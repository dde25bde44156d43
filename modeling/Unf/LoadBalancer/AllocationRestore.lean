import Unf.LoadBalancer.AllocationSpec

/-!
# Runs of the allocator, and what can be restored from them

Whatever calls an allocator has taken, its leases fit their pools and the owners of the
addresses are the holders of the leases. A checkpoint of such an allocator is restored as
it was, unless it has more leases than restoration admits: allocation itself does not
count them.
-/

namespace Unf.LoadBalancer

open Std (ExtTreeMap ExtTreeSet)
open Unf.Lib Std.ExtTreeMap List
open Unf.Service (Revision)

namespace LoadBalancerAllocator

/-! ## Consistent allocators -/

/-- A lease that fits its pool and is not newer than the allocator. -/
structure LeaseSound (pools : ExtTreeMap String LoadBalancerPool) (revision : Revision)
    (lease : LoadBalancerLease) : Prop where
  owner : validateOwner lease.owner = .ok ⟨⟩
  normal : lease.request.Normal
  issued : lease.allocationRevision ≠ .initial
  recent : lease.allocationRevision ≤ revision
  families : lease.addresses.map IpAddr.family = lease.families
  requested : ∀ address ∈ lease.requestedIps, address ∈ lease.addresses
  pooled : ∃ pool, pools[lease.pool]? = some pool ∧ lease.poolUid = pool.uid ∧
    lease.provider = pool.provider ∧
      ∀ address ∈ lease.addresses, poolUsableAddress pool address = true

variable {pools : ExtTreeMap String LoadBalancerPool} {revision : Revision}
  {lease : LoadBalancerLease} {after : LoadBalancerAllocator}

theorem LeaseSound.later {later : Revision} (sound : LeaseSound pools revision lease)
    (grown : revision ≤ later) : LeaseSound pools later lease :=
  { sound with recent := sound.recent.trans grown }

theorem LeaseSound.ascending (sound : LeaseSound pools revision lease) :
    lease.addresses.Pairwise (· < ·) :=
  ascending_of_families (sound.families ▸ sound.normal.families)

/-- What every run of calls preserves. -/
structure Consistent (allocator : LoadBalancerAllocator) : Prop where
  pools : PoolsValid allocator.pools
  owned : ∀ (owner : LoadBalancerOwner) (lease : LoadBalancerLease),
    allocator.leases[owner]? = some lease → lease.owner = owner
  sound : ∀ (owner : LoadBalancerOwner) (lease : LoadBalancerLease),
    allocator.leases[owner]? = some lease →
      LeaseSound allocator.pools allocator.revision lease
  owners : OwnersExact LoadBalancerLease.addresses allocator.leases allocator.addressOwners

theorem consistent_of_new {pools : List LoadBalancerPool} {allocator : LoadBalancerAllocator}
    (built : new pools = .ok allocator) : allocator.Consistent := by
  simp only [new, eq_ok_iffs] at built
  obtain ⟨byName, valid, rfl⟩ := built
  exact {
    pools := poolsValid_of_validatePools valid
    owned := fun owner lease found => by simp at found
    sound := fun owner lease found => by simp at found
    owners := ownersExact_empty }

variable {allocator : LoadBalancerAllocator}

variable (consistent : allocator.Consistent)

include consistent

/-- One lease is entered under its owner, and the revision grows. -/
theorem Consistent.enter {addressOwners : ExtTreeMap IpAddr LoadBalancerOwner}
    (sound : LeaseSound allocator.pools revision lease) (grown : allocator.revision ≤ revision)
    (owners : OwnersExact LoadBalancerLease.addresses
      (allocator.leases.insert lease.owner lease) addressOwners) :
    (LoadBalancerAllocator.mk allocator.pools (allocator.leases.insert lease.owner lease)
      addressOwners revision).Consistent where
  pools := consistent.pools
  owners := owners
  owned := forall_getElem?_insert rfl consistent.owned
  sound := forall_getElem?_insert sound fun owner other found =>
    (consistent.sound owner other found).later grown

variable {raw : AllocationRequest} {owner : LoadBalancerOwner} {initial : LoadBalancerAllocator}
  {pool : LoadBalancerPool} {index : Nat} {left right : Nat}

theorem Consistent.allocate
    (ran : (allocate raw).run allocator = .ok lease after) : after.Consistent := by
  obtain ⟨request, pool, normalized, validOwner, found, effect⟩ := allocate_eq_ok ran
  obtain ⟨normal, sameOwner, -⟩ := validateAllocationRequest_eq_ok normalized
  rcases effect with ⟨-, -, rfl⟩ | ⟨existing, held, refreshed, rfl⟩ | ⟨vacant, granted, rfl⟩
  · exact consistent
  · obtain ⟨-, values⟩ := refreshedLease_eq_ok refreshed
    have equal := values lease rfl
    have existingSound := consistent.sound request.owner existing held
    have leaseOwner : lease.owner = request.owner := by
      rw [equal]
      exact consistent.owned request.owner existing held
    rw [← leaseOwner] at held ⊢
    refine consistent.enter ?_ ?_ (consistent.owners.renew held (by rw [equal]))
    · rw [equal]
      exact {
        owner := existingSound.owner
        normal := { existingSound.normal with
          epoch := normal.epoch
          revision := normal.revision }
        issued := allocator.revision.next_ne_initial
        recent := le_refl _
        families := existingSound.families
        requested := existingSound.requested
        pooled := existingSound.pooled }
    · rw [equal]
      exact allocator.revision.le_next
  · have named := consistent.pools.named request.pool pool found
    have valid := consistent.pools.valid request.pool pool found
    obtain ⟨answered, poolUid, provider, revised, planned⟩ :=
      newLease_eq_ok valid normal named granted
    obtain rfl : lease.request = request := answered
    refine consistent.enter ?_ (revised ▸ allocator.revision.le_next) ?_
    · exact {
        owner := by
          rw [← validOwner, ← sameOwner]
          rfl
        normal := normal
        issued := revised ▸ allocator.revision.next_ne_initial
        recent := le_refl _
        families := planned.families
        requested := planned.requested
        pooled := ⟨pool, found, poolUid, provider, planned.usable⟩ }
    · exact consistent.owners.grant vacant planned.free

theorem Consistent.release
    (ran : (release owner).run allocator = .ok lease after) : after.Consistent := by
  obtain ⟨held, rfl⟩ := release_eq_ok ran
  exact {
    pools := consistent.pools
    owned := fun holder other found => consistent.owned holder other (getElem?_of_erase found)
    sound := fun holder other found =>
      (consistent.sound holder other (getElem?_of_erase found)).later allocator.revision.le_next
    owners := consistent.owners.revoke held }

/-! ## Runs of calls -/

omit consistent

inductive AllocationCall where
  | allocate (request : AllocationRequest)
  | release (owner : LoadBalancerOwner)

def perform : AllocationCall → AllocatorCall LoadBalancerLease
  | .allocate request => allocate request
  | .release owner => release owner

theorem perform_atomic (call : AllocationCall) : Atomic (perform call) := by
  cases call with
  | allocate request => exact allocate_atomic request
  | release owner => exact release_atomic owner

theorem consistent_of_run {pools : List LoadBalancerPool} (built : new pools = .ok initial)
    (calls : List AllocationCall) : (runCalls perform calls initial).Consistent := by
  refine runCalls_invariant (consistent_of_new built) perform_atomic ?_ calls
  intro call allocator lease after consistent ran
  cases call with
  | allocate request => exact consistent.allocate ran
  | release owner => exact consistent.release ran

/-! ## Restoration -/

theorem LeaseSound.leaseForeign (sound : LeaseSound pools revision lease)
    (found : pools[lease.pool]? = some pool) : leaseForeign revision pool lease = false := by
  obtain ⟨_, same, poolUid, provider, usable⟩ := sound.pooled
  obtain rfl := Option.some.inj (found.symm.trans same)
  have counts : lease.addresses.length = lease.families.length := by
    rw [← sound.families, length_map]
  have present : lease.families ≠ [] := sound.normal.present
  have addressed : lease.addresses ≠ [] := by
    rw [← length_pos_iff, counts, length_pos_iff]
    exact present
  have bounded : lease.families.length ≤ 2 := sound.normal.bounded
  have fewer : lease.requestedIps.length ≤ lease.families.length := sound.normal.fewer
  have epoch : lease.intentEpoch ≠ 0 := sound.normal.epoch
  have intent : lease.intentRevision ≠ .initial := sound.normal.revision
  have families := strictlyAscending_iff.mpr sound.normal.families
  have requested := strictlyAscending_iff.mpr sound.normal.requested
  simp only [LoadBalancerAllocator.leaseForeign, eq_false_iffs, List.all_eq_true, any_eq_false,
    List.contains_iff_mem, Bool.not_eq_true', Bool.not_eq_false]
  exact ⟨⟨⟨⟨⟨⟨⟨⟨⟨⟨⟨⟨⟨⟨⟨⟨poolUid, provider⟩, sound.issued⟩, sound.recent⟩, epoch⟩, intent⟩,
    present⟩, bounded⟩, families⟩, requested⟩, strictlyAscending_iff.mpr sound.ascending⟩,
    addressed⟩, counts⟩, fewer⟩, sound.families⟩, sound.requested⟩, usable⟩

theorem claimAddress_eq_ok (owners : ExtTreeMap IpAddr LoadBalancerOwner) (address : IpAddr)
    (after : ExtTreeMap IpAddr LoadBalancerOwner) : claimAddress owner owners address = .ok after ↔
      address ∉ owners ∧ after = owners.insert address owner := by
  rw [claimAddress, ← isSome_getElem?_iff_mem]
  cases owners[address]? <;> simp [eq_comm]

/-- A sound lease of a new owner and free addresses is restored. -/
theorem restoreLease_eq_ok (sound : LeaseSound allocator.pools allocator.revision lease)
    (vacant : lease.owner ∉ allocator.leases)
    (free : ∀ address ∈ lease.addresses, address ∉ allocator.addressOwners) :
    allocator.restoreLease lease = .ok { allocator with
      addressOwners := lease.addresses.foldl
        (fun owners address => owners.insert address lease.owner) allocator.addressOwners
      leases := allocator.leases.insert lease.owner lease } := by
  obtain ⟨pool, found, -⟩ := sound.pooled
  simp only [restoreLease, eq_ok_iffs, map_contains_eq_false_iff,
    foldlM_claim_eq_ok claimAddress_eq_ok]
  have distinct : lease.addresses.Nodup := sound.ascending.imp ne_of_lt
  exact ⟨sound.owner, vacant, pool, found, sound.leaseForeign found, _,
    ⟨⟨free, distinct⟩, rfl⟩, rfl⟩

/-- A checkpoint with not too many leases is restored as it was. -/
theorem Consistent.restore_checkpoint (consistent : allocator.Consistent)
    (bounded : allocator.leases.size ≤ maxLoadBalancerLeases) :
    restore allocator.checkpoint = .ok allocator := by
  have started : new allocator.checkpoint.pools = .ok ⟨allocator.pools, ∅, ∅, .initial⟩ := by
    rw [new, checkpoint, consistent.pools.validatePools_tableValues]
    rfl
  have revised : (!allocator.checkpoint.leases.isEmpty &&
      allocator.checkpoint.revision == .initial) = false := by
    rw [Bool.and_eq_false_iff, Bool.not_eq_false', beq_eq_false_iff_ne, List.isEmpty_iff,
      or_iff_not_imp_left]
    intro present initial
    obtain ⟨lease, member⟩ := exists_mem_of_ne_nil _ present
    obtain ⟨owner, found⟩ := mem_tableValues.mp member
    have sound := consistent.sound owner lease found
    change allocator.revision = .initial at initial
    have recent := sound.recent
    rw [initial] at recent
    exact sound.issued (Revision.get_injective (le_antisymm recent (UInt64.zero_le)))
  have ran : (tableValues allocator.leases).foldlM restoreLease
      ⟨allocator.pools, ∅, ∅, allocator.revision⟩ = .ok allocator := by
    apply consistent.owners.foldlM_tableValues consistent.owned fun leases owners =>
      LoadBalancerAllocator.mk allocator.pools leases owners allocator.revision
    intro leases owners lease listed vacant free
    exact restoreLease_eq_ok (consistent.sound lease.owner lease listed) vacant free
  simp only [restore, eq_ok_iffs, started, Except.ok.injEq, exists_eq_left', revised, true_and]
  refine ⟨rfl, ?_, ran⟩
  rw [decide_eq_false_iff_not, not_lt, checkpoint, length_tableValues]
  exact bounded

/-- A checkpoint with more leases is refused. -/
theorem restore_checkpoint_eq_error (crowded : maxLoadBalancerLeases < allocator.leases.size) :
    restore allocator.checkpoint =
      .error (.tooManyLeases allocator.leases.size maxLoadBalancerLeases) := by
  have exceeded : decide (maxLoadBalancerLeases < allocator.checkpoint.leases.length) = true := by
    rw [checkpoint, length_tableValues]
    exact decide_eq_true crowded
  rw [restore, exceeded, checkpoint, length_tableValues]
  rfl

/-! ## Safety of every run -/

/-- What is expected of an allocator: addresses without collisions, leases that answer their
requests, calls without effect when they fail, and a checkpoint that can be restored. -/
structure Safe (allocator : LoadBalancerAllocator) : Prop where
  owners : OwnersExact LoadBalancerLease.addresses allocator.leases allocator.addressOwners
  disjoint : ((tableValues allocator.leases).flatMap LoadBalancerLease.addresses).Nodup
  covered : ∀ (owner : LoadBalancerOwner) (lease : LoadBalancerLease),
    allocator.leases[owner]? = some lease → lease.owner = owner ∧ lease.families.Nodup ∧
      lease.addresses.map IpAddr.family = lease.families ∧
      (∀ address ∈ lease.requestedIps, address ∈ lease.addresses) ∧
      ∃ pool, allocator.pools[lease.pool]? = some pool ∧
        ∀ address ∈ lease.addresses, poolUsableAddress pool address = true
  answered : ∀ request lease after, (allocate request).run allocator = .ok lease after →
    after.leases[request.owner]? = some lease ∧ lease.pool = request.pool ∧
      lease.families.Perm request.families ∧ lease.requestedIps.Perm request.requestedIps
  atomic : ∀ call error after, (perform call).run allocator = .error error after →
    after = allocator
  restored : restore allocator.checkpoint = .ok allocator

theorem Consistent.answered (consistent : allocator.Consistent)
    (ran : (LoadBalancerAllocator.allocate raw).run allocator = .ok lease after) :
    after.leases[raw.owner]? = some lease ∧ lease.pool = raw.pool ∧
      lease.families.Perm raw.families ∧ lease.requestedIps.Perm raw.requestedIps := by
  obtain ⟨request, pool, normalized, -, found, effect⟩ := allocate_eq_ok ran
  obtain ⟨normal, sameOwner, samePool, families, requested⟩ :=
    validateAllocationRequest_eq_ok normalized
  rw [← sameOwner, ← samePool]
  rcases effect with ⟨held, same, rfl⟩ | ⟨existing, held, refreshed, rfl⟩ | ⟨vacant, granted, rfl⟩
  · obtain ⟨⟨leasePool, leaseFamilies, leaseRequested⟩, -⟩ := refreshedLease_eq_ok same
    exact ⟨held, leasePool, leaseFamilies ▸ families, leaseRequested ▸ requested⟩
  · obtain ⟨⟨leasePool, leaseFamilies, leaseRequested⟩, values⟩ := refreshedLease_eq_ok refreshed
    obtain rfl := values lease rfl
    refine ⟨?_, leasePool, leaseFamilies ▸ families, leaseRequested ▸ requested⟩
    rw [getElem?_map_insert, if_pos rfl]
  · have valid := consistent.pools.valid request.pool pool found
    obtain ⟨rfl, -⟩ := newLease_eq_ok valid normal
      (consistent.pools.named request.pool pool found) granted
    refine ⟨?_, rfl, families, requested⟩
    rw [getElem?_map_insert, if_pos rfl]

/-! ### More leases than a checkpoint may have -/

/-- A request for one address. -/
def requestFor (owner : LoadBalancerOwner) (pool : String) (address : IpAddr) :
    AllocationRequest where
  owner := owner
  pool := pool
  families := [address.family]
  requestedIps := [address]
  intentEpoch := 1
  intentRevision := ⟨1⟩

theorem validateAllocationRequest_requestFor (owner : LoadBalancerOwner) (pool : String)
    (address : IpAddr) : validateAllocationRequest (requestFor owner pool address) =
      .ok (requestFor owner pool address) := by
  have single : (ExtTreeSet.ofList [address.family]).size = 1 :=
    size_ofList_eq_length_iff.mpr (nodup_singleton address.family)
  simp only [validateAllocationRequest, eq_ok_iffs, Bool.or_eq_false_iff, Bool.not_eq_false',
    List.all_eq_true, List.contains_iff_mem]
  exact ⟨⟨rfl, rfl⟩, ⟨rfl, rfl⟩, rfl, ⟨rfl, rfl⟩, ⟨bne_eq_false_iff_eq.mpr single,
    fun family member => member⟩, rfl⟩

/-- A free address of a pool is leased to whoever asks for it and has no lease. -/
theorem allocate_requestFor {name : String} {address : IpAddr}
    (validOwner : validateOwner owner = .ok ⟨⟩) (found : allocator.pools[name]? = some pool)
    (vacant : owner ∉ allocator.leases) (usable : poolUsableAddress pool address = true)
    (free : address ∉ allocator.addressOwners) :
    ∃ lease, (allocate (requestFor owner name address)).run allocator = .ok lease
      { allocator with
        addressOwners := allocator.addressOwners.insert address owner
        leases := allocator.leases.insert owner lease
        revision := allocator.revision.next } := by
  have entry : allocator.requestedAddress pool address = .ok (address.family, address) :=
    requestedAddress_eq_ok.mpr ⟨⟨usable, free⟩, rfl⟩
  have entries : [address].mapM (allocator.requestedAddress pool) =
      .ok [(address.family, address)] := by
    rw [mapM_cons, entry]
    rfl
  have distinct : ([address].map IpAddr.family).Nodup := nodup_singleton _
  have lookup : (ofList [(address.family, address)])[address.family]? = some address :=
    (getElem?_ofList_map distinct address.family address).mpr ⟨mem_singleton_self _, rfl⟩
  have planned : allocator.planAddresses pool (requestFor owner name address) = .ok [address] := by
    simp only [planAddresses, requestFor, entries, ok_bind, mapM_cons, lookup]
    rfl
  have vacantOwner : allocator.leases[(requestFor owner name address).owner]? = none :=
    getElem?_eq_none vacant
  obtain ⟨lease, granted, addresses, revised⟩ : ∃ lease : LoadBalancerLease,
      allocator.newLease pool (requestFor owner name address) = .ok lease ∧
        lease.addresses = [address] ∧ lease.allocationRevision = allocator.revision.next := by
    rw [newLease, planned]
    exact ⟨_, rfl, rfl, rfl⟩
  refine ⟨lease, ?_⟩
  simp only [allocate, run_bind_eq_ok, run_ofExcept_eq_ok, run_get_eq_ok, elim_error_eq_ok]
  refine ⟨⟨⟩, _, ⟨validOwner, rfl⟩, _, _, ⟨validateAllocationRequest_requestFor _ _ _, rfl⟩,
    _, _, ⟨rfl, rfl⟩, pool, _, ⟨found, rfl⟩, ?_⟩
  rw [vacantOwner]
  simp only [run_bind_eq_ok, run_ofExcept_eq_ok, run_pure_eq_ok]
  refine ⟨lease, _, ⟨granted, rfl⟩, ⟨⟩, _, rfl, ⟨⟩, _, rfl, ⟨⟩, _, rfl, rfl, ?_⟩
  rw [addresses, revised]
  rfl

def widePool : LoadBalancerPool where
  name := "wide"
  uid := "wide-uid"
  provider := ⟨"provider", "instance", .directNode⟩
  ipv4 := some ⟨.v4 0x0A000000#32, 8⟩
  ipv6 := none

def wideAddress (index : Nat) : IpAddr :=
  .v4 (BitVec.ofNat 32 (0x0A000000 + (1 + index)))

def numberedOwner (index : Nat) : LoadBalancerOwner :=
  ⟨⟨UInt32.ofNat (1 + index)⟩, "default", "web", "service-uid"⟩

/-- As many requests, each of another owner for another address. -/
def crowd (count : Nat) : List AllocationCall :=
  (List.range count).map fun index =>
    .allocate (requestFor (numberedOwner index) "wide" (wideAddress index))

theorem toNat_wideAddress (small : index < 2 ^ 23) :
    (BitVec.ofNat 32 (0x0A000000 + (1 + index))).toNat = 0x0A000000 + (1 + index) := by
  rw [BitVec.toNat_ofNat]
  omega

theorem wideAddress_injective (leftSmall : left < 2 ^ 23)
    (rightSmall : right < 2 ^ 23) (equal : wideAddress left = wideAddress right) :
    left = right := by
  have same := congrArg BitVec.toNat (IpAddr.v4.inj equal)
  rw [toNat_wideAddress leftSmall, toNat_wideAddress rightSmall] at same
  omega

theorem poolUsableAddress_wideAddress (small : index < 2 ^ 23) :
    poolUsableAddress widePool (wideAddress index) = true := by
  have canonical : (Cidr.mk 0x0A000000#32 8).Canonical := by decide
  have contained : (Cidr.mk 0x0A000000#32 8).contains
      (BitVec.ofNat 32 (0x0A000000 + (1 + index))) = true :=
    canonical.contains_add (show 1 + index < 2 ^ (32 - 8) by omega)
  change (prefixContains ⟨.v4 0x0A000000#32, 8⟩ (wideAddress index) && _) = true
  rw [prefixContains_eq_inPrefix (by decide), Bool.and_eq_true]
  refine ⟨contained, ?_⟩
  simp only [wideAddress, isHost, toNat_wideAddress small, Bool.or_eq_true, decide_eq_true_eq]
  right
  change 0x0A000000 < 0x0A000000 + (1 + index) ∧
    0x0A000000 + (1 + index) < 0x0A000000 + 2 ^ (32 - 8) - 1
  omega

theorem toNat_numberedOwner (small : index < 2 ^ 23) :
    (numberedOwner index).serviceId.get.toNat = 1 + index := by
  exact UInt32.toNat_ofNat_of_lt' (show _ < 2 ^ 32 by omega)

theorem numberedOwner_injective (leftSmall : left < 2 ^ 23)
    (rightSmall : right < 2 ^ 23) (equal : numberedOwner left = numberedOwner right) :
    left = right := by
  have same := congrArg (fun owner => owner.serviceId.get.toNat) equal
  simp only [toNat_numberedOwner leftSmall, toNat_numberedOwner rightSmall] at same
  omega

theorem validateOwner_numberedOwner (small : index < 2 ^ 23) :
    validateOwner (numberedOwner index) = .ok ⟨⟩ := by
  have nonzero : (numberedOwner index).serviceId.get ≠ 0 := by
    intro zero
    have number := toNat_numberedOwner small
    rw [zero] at number
    change 0 = 1 + index at number
    omega
  simp only [validateOwner, eq_ok_iffs, beq_eq_false_iff_ne]
  refine ⟨nonzero, ?_⟩
  change (!validName "default" || !validName "web" || !validUid "service-uid") = false
  decide

/-- Every request of the crowd is served. -/
theorem leases_of_crowd (found : initial.pools["wide"]? = some widePool)
    (leases : initial.leases = ∅) (owners : initial.addressOwners = ∅) {count : Nat}
    (small : count < 2 ^ 23) :
    (runCalls perform (crowd count) initial).pools["wide"]? = some widePool ∧
      (runCalls perform (crowd count) initial).leases.size = count ∧
      ∀ index, count ≤ index → index < 2 ^ 23 →
        numberedOwner index ∉ (runCalls perform (crowd count) initial).leases ∧
          wideAddress index ∉ (runCalls perform (crowd count) initial).addressOwners := by
  induction count with
  | zero =>
    refine ⟨found, ?_, fun index _ _ => ?_⟩
    · change initial.leases.size = 0
      rw [leases]
      rfl
    · change numberedOwner index ∉ initial.leases ∧ wideAddress index ∉ initial.addressOwners
      rw [leases, owners]
      exact ⟨not_mem_empty, not_mem_empty⟩
  | succ count ih =>
    obtain ⟨pooled, counted, pending⟩ := ih (by omega)
    obtain ⟨vacant, free⟩ := pending count (le_refl count) (by omega)
    obtain ⟨lease, ran⟩ := allocate_requestFor (validateOwner_numberedOwner (by omega)) pooled
      vacant (poolUsableAddress_wideAddress (by omega)) free
    have last : crowd (count + 1) = crowd count ++
        [.allocate (requestFor (numberedOwner count) "wide" (wideAddress count))] := by
      simp [crowd, range_succ]
    rw [last, runCalls_append, runCalls_singleton]
    rw [perform, ran]
    refine ⟨pooled, ?_, fun index later inside => ?_⟩
    · change (insert _ _ _).size = _
      rw [size_insert, map_contains_eq_false_iff.mpr vacant, counted]
      rfl
    · obtain ⟨otherVacant, otherFree⟩ := pending index (by omega) inside
      change _ ∉ insert _ _ _ ∧ _ ∉ insert _ _ _
      rw [mem_map_insert, mem_map_insert, not_or, not_or]
      refine ⟨⟨fun same => ?_, otherVacant⟩, fun same => ?_, otherFree⟩
      · have := numberedOwner_injective (by omega) inside same
        omega
      · have := wideAddress_injective (by omega) inside same
        omega

/-- Whatever the calls were, an allocator is safe as long as it has not taken on more leases
than a checkpoint may have. -/
theorem safe_run_iff_leases_le {pools : List LoadBalancerPool} {initial : LoadBalancerAllocator}
    (built : new pools = .ok initial) (calls : List AllocationCall) :
    (runCalls perform calls initial).Safe ↔
      (runCalls perform calls initial).leases.size ≤ maxLoadBalancerLeases := by
  have consistent := consistent_of_run built calls
  constructor
  · intro safe
    by_contra crowded
    have restored := safe.restored
    rw [restore_checkpoint_eq_error (not_le.mp crowded)] at restored
    cases restored
  · intro bounded
    exact {
      owners := consistent.owners
      disjoint := consistent.owners.nodup_items fun owner lease found =>
        (consistent.sound owner lease found).ascending.imp ne_of_lt
      covered := fun owner lease found => by
        have sound := consistent.sound owner lease found
        obtain ⟨pool, pooled, -, -, usable⟩ := sound.pooled
        exact ⟨consistent.owned owner lease found, sound.normal.families.imp ne_of_lt,
          sound.families, sound.requested, pool, pooled, usable⟩
      answered := fun request lease after ran => consistent.answered ran
      atomic := fun call error after => perform_atomic call _ error after
      restored := consistent.restore_checkpoint bounded }

theorem new_widePool : ∃ initial, new [widePool] = .ok initial ∧
    initial.pools["wide"]? = some widePool ∧ initial.leases = ∅ ∧ initial.addressOwners = ∅ := by
  refine ⟨_, rfl, ?_, rfl, rfl⟩
  rfl

theorem safe_run_iff_leases_le_wide : ∃ initial, new [widePool] = .ok initial ∧
      ((runCalls perform (crowd 3) initial).Safe ↔
        (runCalls perform (crowd 3) initial).leases.size ≤ maxLoadBalancerLeases) := by
  obtain ⟨initial, built, -⟩ := new_widePool
  exact ⟨initial, built, safe_run_iff_leases_le built (crowd 3)⟩

/-- One request more than a checkpoint has room for: the last one is served like the others,
and the checkpoint is lost. -/
theorem crowd_not_restorable : ∃ initial, new [widePool] = .ok initial ∧
      restore (runCalls perform (crowd 65537) initial).checkpoint =
        .error (.tooManyLeases 65537 65536) ∧ ¬(runCalls perform (crowd 65537) initial).Safe := by
  obtain ⟨initial, built, found, leases, owners⟩ := new_widePool
  have size : (runCalls perform (crowd 65537) initial).leases.size = 65537 :=
    (leases_of_crowd found leases owners (by decide)).2.1
  have crowded :
      maxLoadBalancerLeases < (runCalls perform (crowd 65537) initial).leases.size := by
    rw [size]
    decide
  have refused := restore_checkpoint_eq_error crowded
  rw [size] at refused
  refine ⟨initial, built, refused, fun safe => ?_⟩
  have restored := safe.restored
  rw [refused] at restored
  cases restored

end LoadBalancerAllocator

end Unf.LoadBalancer
