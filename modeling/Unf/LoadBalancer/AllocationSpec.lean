import Unf.Lib.Ownership
import Unf.LoadBalancer.Allocation

/-!
# What the allocator's functions establish

Validated pools and requests, planned addresses, and the effect of each call, read off the
functions once.
-/

namespace Unf.LoadBalancer

open Std (ExtTreeMap ExtTreeSet)
open Unf.Lib List
open Unf.Service (ServiceIpPrefix)

/-! ## Prefixes -/

variable {range : ServiceIpPrefix} {pools : List LoadBalancerPool}

theorem canonicalPrefix_of_isCanonical (canonical : range.isCanonical = true) :
    CanonicalPrefix range.address range.prefixLength.toNat := by
  have mask {width prefixLength : Nat} :
      BitVec.allOnes width <<< (width - prefixLength) = Cidr.mask width prefixLength := by
    rw [Cidr.mask]
    split
    next zero =>
      rw [zero, Nat.sub_zero, BitVec.shiftLeft_eq_zero (le_refl width)]
      rfl
    next => rfl
  obtain ⟨address, prefixLength⟩ := range
  cases address <;>
    simp only [ServiceIpPrefix.isCanonical, mask, Bool.and_eq_true, decide_eq_true_eq,
      beq_iff_eq] at canonical <;>
    exact canonical

theorem prefixContains_eq_inPrefix (canonical : range.isCanonical = true) (address : IpAddr) :
    prefixContains range address = inPrefix range.address range.prefixLength.toNat address := by
  have fits := canonicalPrefix_of_isCanonical canonical
  obtain ⟨network, prefixLength⟩ := range
  cases network with
  | v4 network =>
    cases address with
    | v4 address =>
      change (_ == _) = (Cidr.mk network prefixLength.toNat).contains address
      rw [Bool.eq_iff_iff, beq_iff_eq, Cidr.contains_iff fits.1, fits.2, eq_comm]
    | v6 address => rfl
  | v6 network =>
    cases address with
    | v4 address => rfl
    | v6 address =>
      change (_ == _) = (Cidr.mk network prefixLength.toNat).contains address
      rw [Bool.eq_iff_iff, beq_iff_eq, Cidr.contains_iff fits.1, fits.2, eq_comm]

variable {family : AddressFamily} {byName : ExtTreeMap String LoadBalancerPool} {index : Nat}
  {address : IpAddr} {result : Unit}

/-- A prefix that a pool may have. -/
theorem validPoolPrefix_iff : validPoolPrefix family range = true ↔ (range.address.family = family ∧
      range.isCanonical = true) ∧ (poolCandidate range 0).isSome = true := by
  simp [validPoolPrefix]

/-- A candidate of a valid prefix is usable, and has the family of the prefix. -/
theorem poolCandidate_usable (valid : validPoolPrefix family range = true)
    (small : index + 1 < 2 ^ 128) (found : poolCandidate range index = some address) :
    usablePrefixAddress range address = true ∧ address.family = family := by
  obtain ⟨⟨sameFamily, canonical⟩, -⟩ := validPoolPrefix_iff.mp valid
  obtain ⟨contained, host⟩ :=
    hostCandidate_spec (canonicalPrefix_of_isCanonical canonical) small found
  constructor
  · rw [usablePrefixAddress, prefixContains_eq_inPrefix canonical, contained, host]
    rfl
  · rw [family_eq_of_inPrefix contained, sameFamily]

/-! ## Pools -/

/-- The prefixes of a valid pool have its families. -/
theorem validPoolPrefix_of_validatePool {pool : LoadBalancerPool}
    (valid : validatePool pool = .ok ⟨⟩) (found : poolPrefix pool family = some range) :
    validPoolPrefix family range = true := by
  simp only [validatePool, eq_ok_iffs, eq_false_iffs] at valid
  obtain ⟨-, -, -, ipv4, ipv6⟩ := valid
  cases family with
  | ipv4 =>
    rw [poolPrefix] at found
    simpa [found] using ipv4
  | ipv6 =>
    rw [poolPrefix] at found
    simpa [found] using ipv6

/-- Pools by their names that pass validation as a whole. -/
structure PoolsValid (pools : ExtTreeMap String LoadBalancerPool) : Prop where
  bounded : pools.size ≤ maxLoadBalancerPools
  named : ∀ (name : String) (pool : LoadBalancerPool), pools[name]? = some pool →
    pool.name = name
  valid : ∀ (name : String) (pool : LoadBalancerPool), pools[name]? = some pool →
    validatePool pool = .ok ⟨⟩
  uids : ((tableValues pools).map LoadBalancerPool.uid).Nodup
  disjoint : (tableValues pools).Pairwise fun left right =>
    ∀ family, poolsOverlap left right family = false

theorem checkOverlap_eq_ok {pair : LoadBalancerPool × LoadBalancerPool} :
    checkOverlap pair = .ok result ↔ ∀ family, poolsOverlap pair.1 pair.2 family = false := by
  simp only [checkOverlap, forM_eq_ok_iff, failIf_eq_ok, forall_mem_cons,
    not_mem_nil, false_implies, implies_true, and_true]
  constructor
  · rintro ⟨ipv4, ipv6⟩ family
    cases family
    · exact ipv4
    · exact ipv6
  · exact fun apart => ⟨apart .ipv4, apart .ipv6⟩

theorem forM_checkOverlap_eq_ok :
    (orderedPairs pools).forM checkOverlap = .ok result ↔
      pools.Pairwise fun left right => ∀ family, poolsOverlap left right family = false := by
  rw [← forall_mem_orderedPairs_iff]
  simp only [forM_eq_ok_iff, checkOverlap_eq_ok]

theorem addPool_eq_ok (progress : ExtTreeMap String LoadBalancerPool × ExtTreeSet String)
    (pool : LoadBalancerPool) (after : ExtTreeMap String LoadBalancerPool × ExtTreeSet String) :
    addPool progress pool = .ok after ↔
      (validatePool pool = .ok ⟨⟩ ∧ pool.uid ∉ progress.2 ∧ pool.name ∉ progress.1) ∧
        after = (progress.1.insert pool.name pool, progress.2.insert pool.uid) := by
  simp only [addPool, eq_ok_iffs, contains_eq_false_iff, map_contains_eq_false_iff,
    eq_comm (a := after), and_assoc]

theorem mem_foldl_insert_pool (pools : List LoadBalancerPool) (name : String) :
    name ∈ pools.foldl (fun (byName : ExtTreeMap String LoadBalancerPool) pool =>
        byName.insert pool.name pool) ∅ ↔ ∃ pool ∈ pools, pool.name = name := by
  induction pools using List.reverseRecOn with
  | nil => simp
  | append_singleton pools last ih =>
    rw [foldl_append, foldl_cons, foldl_nil, mem_map_insert, ih]
    simp only [mem_append, mem_singleton, or_and_right, exists_or, exists_eq_left]
    exact or_comm

theorem foldlM_addPool_eq_ok {result : ExtTreeMap String LoadBalancerPool × ExtTreeSet String} :
    pools.foldlM addPool (∅, ∅) = .ok result ↔ ((∀ pool ∈ pools, validatePool pool = .ok ⟨⟩) ∧
        (pools.map LoadBalancerPool.uid).Nodup ∧ (pools.map LoadBalancerPool.name).Nodup) ∧
      result = (pools.foldl (fun byName pool => byName.insert pool.name pool) ∅,
        pools.foldl (fun uids pool => uids.insert pool.uid) ∅) := by
  have pair (pools : List LoadBalancerPool) :=
    foldl_pair (fun (byName : ExtTreeMap String LoadBalancerPool) (pool : LoadBalancerPool) =>
        byName.insert pool.name pool)
      (fun (uids : ExtTreeSet String) pool => uids.insert pool.uid) pools ∅ ∅
  rw [foldlM_eq_ok_iff addPool_eq_ok, pair]
  refine and_congr_left fun _ => ?_
  simp only [pair, mem_foldl_insert_pool,
    mem_foldl_insert LoadBalancerPool.uid, ExtTreeSet.not_mem_empty, false_or, not_exists, not_and]
  have split : (∀ before pool rest, pools = before ++ pool :: rest →
      validatePool pool = .ok ⟨⟩ ∧ ∀ earlier ∈ before,
        ¬earlier.uid = pool.uid ∧ ¬earlier.name = pool.name) ↔ _ := forall_split_iff
  rw [nodup_iff_pairwise_ne, pairwise_map, nodup_iff_pairwise_ne,
    pairwise_map, ← pairwise_and_iff, ← split]
  refine forall₃_congr fun before pool rest => imp_congr_right fun _ => and_congr_right
    fun _ => ?_
  exact ⟨fun apart earlier member => ⟨apart.1 earlier member, apart.2 earlier member⟩,
    fun apart => ⟨fun earlier member => (apart earlier member).1,
      fun earlier member => (apart earlier member).2⟩⟩

theorem poolsValid_of_validatePools (computed : validatePools pools = .ok byName) :
    PoolsValid byName := by
  simp only [validatePools, eq_ok_iffs, foldlM_addPool_eq_ok, forM_checkOverlap_eq_ok,
    eq_false_iffs] at computed
  obtain ⟨bounded, _, ⟨⟨valid, uids, names⟩, rfl⟩, disjoint, rfl⟩ := computed
  have perm := tableValues_foldl_insert_perm names
  exact {
    bounded := by
      rw [← length_tableValues, perm.length_eq]
      exact bounded
    named := fun name pool found => ((getElem?_foldl_insert_empty names name pool).mp found).2
    valid := fun name pool found =>
      valid pool ((getElem?_foldl_insert_empty names name pool).mp found).1
    uids := (perm.map _).nodup_iff.mpr uids
    disjoint := disjoint }

/-- Valid pools are accepted again in the order of their names. -/
theorem PoolsValid.validatePools_tableValues (valid : PoolsValid byName) :
    validatePools (tableValues byName) = .ok byName := by
  have rebuilt := foldl_insert_tableValues valid.named
  simp only [validatePools, eq_ok_iffs, foldlM_addPool_eq_ok, forM_checkOverlap_eq_ok,
    eq_false_iffs]
  refine ⟨?_, _, ⟨⟨fun pool member => ?_, valid.uids, nodup_key_tableValues valid.named⟩, rfl⟩,
    ?_, rebuilt⟩
  · rw [length_tableValues]
    exact valid.bounded
  · obtain ⟨name, found⟩ := mem_tableValues.mp member
    exact valid.valid name pool found
  · rw [rebuilt]
    exact valid.disjoint

/-! ## Requests -/

/-- A request with its lists in order, and at most one address for each family. -/
structure AllocationRequest.Normal (request : AllocationRequest) : Prop where
  epoch : request.intentEpoch ≠ 0
  revision : request.intentRevision ≠ .initial
  present : request.families ≠ []
  bounded : request.families.length ≤ 2
  families : request.families.Pairwise (· < ·)
  requested : request.requestedIps.Pairwise (· < ·)
  fewer : request.requestedIps.length ≤ request.families.length
  distinct : (request.requestedIps.map IpAddr.family).Nodup
  admitted : ∀ address ∈ request.requestedIps, address.family ∈ request.families

theorem validateAllocationRequest_eq_ok {raw request : AllocationRequest}
    (computed : validateAllocationRequest raw = .ok request) :
    request.Normal ∧ request.owner = raw.owner ∧ request.pool = raw.pool ∧
      request.families.Perm raw.families ∧ request.requestedIps.Perm raw.requestedIps := by
  simp only [validateAllocationRequest, eq_ok_iffs, eq_false_iffs,
    hasAdjacentRepeat_eq_false_iff (sort_sorted _), nodup_sort, all_eq_true,
    ExtTreeSet.mem_toList, mem_set_ofList, mem_map, mem_sort, contains_iff_mem,
    length_sort, forall_exists_index, and_imp, forall_apply_eq_imp_iff₂] at computed
  obtain ⟨⟨epoch, revision⟩, ⟨present, bounded⟩, distinct, ⟨fewer, requested⟩,
    ⟨sizes, admitted⟩, rfl⟩ := computed
  have count : (sort raw.requestedIps).length =
      ((sort raw.requestedIps).map IpAddr.family).length := by rw [length_map]
  refine ⟨?_, rfl, rfl, sort_perm _, sort_perm _⟩
  exact {
    epoch := epoch
    revision := revision
    present := by
      rw [← length_pos_iff, length_sort, length_pos_iff]
      exact present
    bounded := by
      rw [length_sort]
      exact bounded
    families := sort_ascending distinct
    requested := sort_ascending requested
    fewer := by
      rw [length_sort, length_sort]
      exact fewer
    distinct := by
      rw [← length_sort, count] at sizes
      exact size_ofList_eq_length_iff.mp sizes
    admitted := fun address member => by
      rw [mem_sort] at member ⊢
      exact admitted address member }

/-! ## Planned addresses -/

theorem firstFree_eq_some {candidate : Nat → Option IpAddr} {owned : IpAddr → Bool}
    {remaining : Nat} (found : firstFree candidate owned remaining index = some address) :
    owned address = false ∧ ∃ position < index + remaining, candidate position = some address := by
  induction remaining generalizing index with
  | zero => cases found
  | succ remaining ih =>
    rw [firstFree] at found
    split at found
    next => cases found
    next other here =>
      split at found
      next =>
        obtain ⟨free, position, bounded, listed⟩ := ih found
        exact ⟨free, position, by omega, listed⟩
      next unowned =>
        obtain rfl := Option.some.inj found
        exact ⟨Bool.eq_false_of_not_eq_true unowned, index, by omega, here⟩

/-- The request that a lease answers. -/
def LoadBalancerLease.request (lease : LoadBalancerLease) : AllocationRequest where
  owner := lease.owner
  pool := lease.pool
  families := lease.families
  requestedIps := lease.requestedIps
  intentEpoch := lease.intentEpoch
  intentRevision := lease.intentRevision

namespace LoadBalancerAllocator

variable {allocator : LoadBalancerAllocator} {pool : LoadBalancerPool} {address : IpAddr}

theorem allocateFamily_eq_ok (valid : validatePool pool = .ok ⟨⟩) {family : AddressFamily}
    (computed : allocator.allocateFamily pool family = .ok address) :
    address.family = family ∧ poolUsableAddress pool address = true ∧
      address ∉ allocator.addressOwners := by
  simp only [allocateFamily, eq_ok_iffs] at computed
  obtain ⟨range, found, free⟩ := computed
  obtain ⟨unowned, position, bounded, listed⟩ := firstFree_eq_some free
  have small : position + 1 < 2 ^ 128 := by
    rw [maxPoolAllocationScan] at bounded
    omega
  obtain ⟨usable, sameFamily⟩ :=
    poolCandidate_usable (validPoolPrefix_of_validatePool valid found) small listed
  refine ⟨sameFamily, ?_, map_contains_eq_false_iff.mp unowned⟩
  rw [poolUsableAddress, sameFamily, found]
  exact usable

theorem requestedAddress_eq_ok {entry : AddressFamily × IpAddr} :
    allocator.requestedAddress pool address = .ok entry ↔
      (poolUsableAddress pool address = true ∧ address ∉ allocator.addressOwners) ∧
        entry = (address.family, address) := by
  simp only [requestedAddress, eq_ok_iffs, eq_false_iffs, and_assoc]
  refine and_congr_right fun _ => ?_
  rw [← ExtTreeMap.isSome_getElem?_iff_mem]
  cases allocator.addressOwners[address]? <;> simp [eq_comm]

variable {request : AllocationRequest}

/-- The requested addresses by their families, once they are all free. -/
theorem getElem?_requested (normal : request.Normal) {entries : List (AddressFamily × IpAddr)}
    (computed : request.requestedIps.mapM (allocator.requestedAddress pool) = .ok entries)
    (family : AddressFamily) (address : IpAddr) :
    (ExtTreeMap.ofList entries)[family]? = some address ↔
      address ∈ request.requestedIps ∧ address.family = family := by
  have entriesEq : entries = request.requestedIps.map fun address => (address.family, address) := by
    have related := mapM_eq_ok_iff.mp computed
    have mapped := related.imp fun _ _ checked => (requestedAddress_eq_ok.mp checked).2
    rw [← forall₂_eq_eq_eq, forall₂_map_right_iff]
    exact mapped.flip
  rw [entriesEq, getElem?_ofList_map normal.distinct]

/-- What a plan for a request consists of: one free address of the pool for each family,
and all that were asked for. -/
structure Planned (allocator : LoadBalancerAllocator) (pool : LoadBalancerPool)
    (request : AllocationRequest) (addresses : List IpAddr) : Prop where
  families : addresses.map IpAddr.family = request.families
  usable : ∀ address ∈ addresses, poolUsableAddress pool address = true
  free : ∀ address ∈ addresses, address ∉ allocator.addressOwners
  requested : ∀ address ∈ request.requestedIps, address ∈ addresses

theorem planned_of_planAddresses (valid : validatePool pool = .ok ⟨⟩) (normal : request.Normal)
    {addresses : List IpAddr} (computed : allocator.planAddresses pool request = .ok addresses) :
    Planned allocator pool request addresses := by
  simp only [planAddresses, eq_ok_iffs] at computed
  obtain ⟨entries, checked, planned, chosen, rfl⟩ := computed
  have lookup := getElem?_requested normal checked
  have chosenSpec (family : AddressFamily) (address : IpAddr)
      (result : (ExtTreeMap.ofList entries)[family]?.elim
        (allocator.allocateFamily pool family) .ok = .ok address) :
      address.family = family ∧ poolUsableAddress pool address = true ∧
        address ∉ allocator.addressOwners := by
    cases found : (ExtTreeMap.ofList entries)[family]? with
    | none =>
      rw [found] at result
      exact allocateFamily_eq_ok valid result
    | some requested =>
      rw [found] at result
      obtain rfl := Except.ok.inj result
      obtain ⟨member, sameFamily⟩ := (lookup family requested).mp found
      obtain ⟨entry, -, entryChecked⟩ := exists_mem_mapM_of_mem checked member
      obtain ⟨⟨usable, free⟩, -⟩ := requestedAddress_eq_ok.mp entryChecked
      exact ⟨sameFamily, usable, free⟩
  have families : planned.map IpAddr.family = request.families := by
    have related := (mapM_eq_ok_iff.mp chosen).imp fun family address result =>
      (chosenSpec family address result).1
    rw [← forall₂_eq_eq_eq, forall₂_map_left_iff]
    exact related.flip
  have ordered : sort planned = planned := by
    refine List.Pairwise.insertionSort_eq ?_
    exact (ascending_of_families (families ▸ normal.families)).imp le_of_lt
  rw [ordered]
  exact {
    families := families
    usable := fun address member => by
      obtain ⟨family, -, result⟩ := exists_mem_of_mem_mapM chosen member
      exact (chosenSpec family address result).2.1
    free := fun address member => by
      obtain ⟨family, -, result⟩ := exists_mem_of_mem_mapM chosen member
      exact (chosenSpec family address result).2.2
    requested := fun address member => by
      obtain ⟨result, resultMember, computed⟩ :=
        exists_mem_mapM_of_mem chosen (normal.admitted address member)
      rw [(lookup address.family address).mpr ⟨member, rfl⟩] at computed
      obtain rfl := Except.ok.inj computed
      exact resultMember }

/-! ## Leases -/

variable {lease : LoadBalancerLease} {after : LoadBalancerAllocator}

theorem newLease_eq_ok (valid : validatePool pool = .ok ⟨⟩) (normal : request.Normal)
    (named : pool.name = request.pool) (computed : allocator.newLease pool request = .ok lease) :
    lease.request = request ∧ lease.poolUid = pool.uid ∧ lease.provider = pool.provider ∧
      lease.allocationRevision = allocator.revision.next ∧
      Planned allocator pool request lease.addresses := by
  simp only [newLease, eq_ok_iffs] at computed
  obtain ⟨addresses, planned, rfl⟩ := computed
  refine ⟨?_, rfl, rfl, rfl, planned_of_planAddresses valid normal planned⟩
  rw [LoadBalancerLease.request, named]

theorem refreshedLease_eq_ok {existing : LoadBalancerLease} {outcome : Option LoadBalancerLease}
    (computed : allocator.refreshedLease existing request = .ok outcome) :
    (existing.pool = request.pool ∧ existing.families = request.families ∧
        existing.requestedIps = request.requestedIps) ∧
      ∀ lease ∈ outcome, lease = { existing with
        intentEpoch := request.intentEpoch
        intentRevision := request.intentRevision
        allocationRevision := allocator.revision.next } := by
  simp only [refreshedLease, eq_ok_iffs, eq_false_iffs] at computed
  obtain ⟨⟨⟨pool, families⟩, requested⟩, -, decided⟩ := computed
  refine ⟨⟨pool, families, requested⟩, fun lease member => ?_⟩
  split at decided <;> cases Except.ok.inj decided
  · cases member
  · exact (Option.some.inj member).symm

/-! ## Calls -/

/-- What a successful allocation does: nothing, a new intent for an old lease, or a lease. -/
theorem allocate_eq_ok {raw : AllocationRequest}
    (ran : (allocate raw).run allocator = .ok lease after) :
    ∃ request pool, validateAllocationRequest raw = .ok request ∧
      validateOwner raw.owner = .ok ⟨⟩ ∧ allocator.pools[request.pool]? = some pool ∧
      ((allocator.leases[request.owner]? = some lease ∧
          allocator.refreshedLease lease request = .ok none ∧ after = allocator) ∨
        (∃ existing, allocator.leases[request.owner]? = some existing ∧
          allocator.refreshedLease existing request = .ok (some lease) ∧ after = { allocator with
            leases := allocator.leases.insert request.owner lease
            revision := lease.allocationRevision }) ∨ (allocator.leases[request.owner]? = none ∧
          allocator.newLease pool request = .ok lease ∧ after = { allocator with
            addressOwners := lease.addresses.foldl
              (fun owners address => owners.insert address request.owner)
              allocator.addressOwners
            leases := allocator.leases.insert request.owner lease
            revision := lease.allocationRevision })) := by
  simp only [allocate, run_bind_eq_ok, run_ofExcept_eq_ok, elim_error_eq_ok]
    at ran
  obtain ⟨⟨⟩, _, ⟨validOwner, rfl⟩, request, _, ⟨normalized, rfl⟩, _, _, ⟨rfl, rfl⟩, pool, _,
    ⟨found, rfl⟩, ran⟩ := ran
  refine ⟨request, pool, normalized, validOwner, found, ?_⟩
  split at ran
  next existing held =>
    simp only [run_bind_eq_ok, run_ofExcept_eq_ok] at ran
    obtain ⟨outcome, _, ⟨decided, rfl⟩, ran⟩ := ran
    cases outcome with
    | none =>
      obtain ⟨rfl, rfl⟩ := run_pure_eq_ok.mp ran
      exact .inl ⟨held, decided, rfl⟩
    | some refreshed =>
      obtain ⟨-, _, rfl, -, _, rfl, rfl, rfl⟩ := ran
      exact .inr (.inl ⟨existing, held, decided, rfl⟩)
  next vacant =>
    simp only [run_bind_eq_ok, run_ofExcept_eq_ok, run_modify_eq_ok] at ran
    obtain ⟨granted, _, ⟨planned, rfl⟩, -, _, rfl, -, _, rfl, -, _, rfl, rfl, rfl⟩ := ran
    exact .inr (.inr ⟨vacant, planned, rfl⟩)

theorem allocate_atomic (request : AllocationRequest) : Atomic (allocate request) := by
  refine (readOnly_ofExcept _).bind_atomic fun _ => (readOnly_ofExcept _).bind_atomic
    fun request => readOnly_get.bind_atomic fun allocator =>
      (readOnly_ofExcept _).bind_atomic fun pool => ?_
  split
  next existing _ =>
    refine (readOnly_ofExcept _).bind_atomic fun outcome => ?_
    cases outcome with
    | none => exact (total_pure _).atomic
    | some refreshed =>
      exact ((total_modify _).bind fun _ => (total_modify _).bind fun _ => total_pure _).atomic
  next =>
    refine (readOnly_ofExcept _).bind_atomic fun lease => ?_
    exact ((total_modify _).bind fun _ => (total_modify _).bind fun _ =>
      (total_modify _).bind fun _ => total_pure _).atomic

theorem release_eq_ok {owner : LoadBalancerOwner}
    (ran : (release owner).run allocator = .ok lease after) :
    allocator.leases[owner]? = some lease ∧ after = { allocator with
        leases := allocator.leases.erase owner
        addressOwners := lease.addresses.foldl (fun owners address => owners.erase address)
          allocator.addressOwners
        revision := allocator.revision.next } := by
  simp only [release, run_bind_eq_ok, run_ofExcept_eq_ok, elim_error_eq_ok, run_modify_eq_ok] at ran
  obtain ⟨_, _, ⟨rfl, rfl⟩, -, _, rfl, held, _, ⟨found, rfl⟩, -, _, rfl, -, _, rfl, rfl, rfl⟩ := ran
  exact ⟨found, rfl⟩

/-- An owner without a lease has nothing to take out. -/
theorem release_atomic (owner : LoadBalancerOwner) : Atomic (release owner) := by
  intro state error after failed
  simp only [release, run_bind_eq_error, run_get_ne_error, run_get_eq_ok, run_modify_ne_error,
    run_modify_eq_ok, run_ofExcept_eq_error, run_pure_ne_error, false_or]
    at failed
  obtain ⟨_, allocator, ⟨rfl, rfl⟩, -, _, rfl, failed⟩ := failed
  rcases failed with ⟨unknown, rfl⟩ | ⟨_, _, -, -, _, -, -, _, -, impossible⟩
  · cases found : allocator.leases[owner]? with
    | none => rw [erase_eq_self found]
    | some lease =>
      rw [found] at unknown
      cases unknown
  · exact impossible.elim

end LoadBalancerAllocator

end Unf.LoadBalancer
