import Unf.Egress.Allocation
import Unf.Egress.ModelCanonical
import Unf.Lib.Ownership

/-!
# What the egress allocator's functions establish

The addresses that a pool gives out, the plan for a request, the effect of each call, and
the pools that follow a replacement, read off the functions once.
-/

namespace Unf.Egress

open Std (ExtTreeMap ExtTreeSet)
open Unf.Lib List
open Unf.Service (Revision)

/-! ## Addresses of a pool -/

theorem usablePrefixAddress_eq (range : IpPrefix) (address : IpAddr) :
    usablePrefixAddress range address =
      (range.contains address && isHost range.address range.prefixLen.toNat address) := by
  obtain ⟨network, prefixLen⟩ := range
  cases contained : IpPrefix.contains ⟨network, prefixLen⟩ address with
  | false => simp [usablePrefixAddress, contained]
  | true =>
    have sameFamily := family_eq_of_inPrefix contained
    simp only [usablePrefixAddress, contained, Bool.not_true, Bool.false_eq_true, if_false]
    cases network with
    | v4 network =>
      cases address with
      | v4 address =>
        simp only [isHost]
        split
        next short => simp [short.not_ge]
        next long => simp [not_lt.mp long]
      | v6 address => cases sameFamily
    | v6 network =>
      cases address with
      | v4 address => cases sameFamily
      | v6 address =>
        simp only [isHost]
        split
        next short => simp [short.not_ge]
        next long => simp [not_lt.mp long]

variable {range : IpPrefix} {index : Nat} {address : IpAddr} {remaining : Nat}
  {pool : EgressAddressPool}

theorem poolCandidate_usable (canonical : range.isCanonical = true) (small : index + 1 < 2 ^ 128)
    (found : poolCandidate range index = some address) :
    usablePrefixAddress range address = true ∧ address.family = range.family := by
  obtain ⟨contained, host⟩ := hostCandidate_spec (IpPrefix.isCanonical_iff.mp canonical) small found
  constructor
  · rw [usablePrefixAddress_eq, IpPrefix.contains, contained, host]
    rfl
  · exact family_eq_of_inPrefix contained

variable {reserved : ExtTreeSet IpAddr}

theorem scanPrefix_eq_inl (found : scanPrefix reserved range remaining index = .inl address) :
    address ∉ reserved ∧
      ∃ position < index + remaining, poolCandidate range position = some address := by
  induction remaining generalizing index with
  | zero => cases found
  | succ remaining ih =>
    rw [scanPrefix] at found
    split at found
    next => cases found
    next candidate here =>
      split at found
      next =>
        obtain ⟨free, position, bounded, listed⟩ := ih found
        exact ⟨free, position, by omega, listed⟩
      next unreserved =>
        obtain rfl := Sum.inl.inj found
        refine ⟨?_, index, by omega, here⟩
        rwa [ExtTreeSet.contains_iff_mem] at unreserved

theorem scanPrefix_inr_le {left : Nat}
    (exhausted : scanPrefix reserved range remaining index = .inr left) : left ≤ remaining := by
  induction remaining generalizing index with
  | zero =>
    obtain rfl := Sum.inr.inj exhausted
    exact le_refl _
  | succ remaining ih =>
    rw [scanPrefix] at exhausted
    split at exhausted
    next =>
      obtain rfl := Sum.inr.inj exhausted
      exact le_refl _
    next candidate here =>
      split at exhausted
      next => exact (ih exhausted).trans (Nat.le_succ remaining)
      next => cases exhausted

theorem scanPrefixes_eq_some {ranges : List IpPrefix}
    (found : scanPrefixes reserved ranges remaining = some address) :
    address ∉ reserved ∧ ∃ range ∈ ranges, ∃ position < remaining,
      poolCandidate range position = some address := by
  induction ranges generalizing remaining with
  | nil => cases found
  | cons range ranges ih =>
    rw [scanPrefixes] at found
    split at found
    next here scanned =>
      obtain rfl := Option.some.inj found
      obtain ⟨free, position, bounded, listed⟩ := scanPrefix_eq_inl scanned
      exact ⟨free, range, mem_cons_self, position, by omega, listed⟩
    next left scanned =>
      obtain ⟨free, other, member, position, bounded, listed⟩ := ih found
      exact ⟨free, other, mem_cons_of_mem _ member, position,
        bounded.trans_le (scanPrefix_inr_le scanned), listed⟩

theorem allocateFromPool_eq_ok (canonical : pool.Canonical) {family : AddressFamily}
    (computed : allocateFromPool pool family reserved = .ok address) :
    address.family = family ∧ pool.usable address = true ∧ address ∉ reserved := by
  rw [allocateFromPool, elim_error_eq_ok] at computed
  obtain ⟨free, range, member, position, bounded, listed⟩ := scanPrefixes_eq_some computed
  rw [mem_filter, beq_iff_eq] at member
  have prefixCanonical := (validatePool_eq_ok.mp canonical.valid).2.2.1 range member.1
  have small : position + 1 < 2 ^ 128 := by
    rw [maxEgressPoolAllocationScan] at bounded
    omega
  obtain ⟨usable, sameFamily⟩ := poolCandidate_usable prefixCanonical small listed
  refine ⟨sameFamily.trans member.2, ?_, free⟩
  exact any_eq_true.mpr ⟨range, member.1, usable⟩

/-- Every round of the plan adds a fresh address of the family it is for. -/
theorem foldlM_planNext (canonical : pool.Canonical) {families : List AddressFamily}
    {before after : ExtTreeSet IpAddr × List IpAddr}
    (computed : families.foldlM (planNext pool) before = .ok after) :
    ∃ planned, after.2 = before.2 ++ planned ∧ planned.map IpAddr.family = families ∧
      planned.Nodup ∧ ∀ address ∈ planned, pool.usable address = true ∧ address ∉ before.1 := by
  induction families generalizing before with
  | nil =>
    obtain rfl := Except.ok.inj computed
    exact ⟨[], by simp⟩
  | cons family families ih =>
    rw [foldlM_cons, bind_eq_ok] at computed
    obtain ⟨middle, step, rest⟩ := computed
    simp only [planNext, eq_ok_iffs] at step
    obtain ⟨address, allocated, rfl⟩ := step
    obtain ⟨sameFamily, usable, free⟩ := allocateFromPool_eq_ok canonical allocated
    obtain ⟨planned, result, families, distinct, fresh⟩ := ih rest
    have later (other : IpAddr) (member : other ∈ planned) :
        address ≠ other ∧ other ∉ before.1 := by
      have absent := (fresh other member).2
      rwa [mem_set_insert, not_or] at absent
    refine ⟨address :: planned, ?_, ?_, ?_, ?_⟩
    · rw [result, append_assoc]
      rfl
    · rw [map_cons, sameFamily, families]
    · exact nodup_cons.mpr ⟨fun member => (later address member).1 rfl, distinct⟩
    · rw [forall_mem_cons]
      exact ⟨⟨usable, free⟩, fun other member => ⟨(fresh other member).1, (later other member).2⟩⟩

/-! ## Counters -/

theorem checkedNextRevision_eq_ok {revision next : Revision} :
    checkedNextRevision revision = .ok next ↔ revision < next ∧ next = revision.next := by
  rw [checkedNextRevision]
  split
  next changed =>
    rw [Except.ok.injEq, eq_comm]
    refine ⟨fun same => ⟨?_, same⟩, fun same => same.2⟩
    rw [same]
    exact lt_of_le_of_ne revision.le_next (Ne.symm changed)
  next saturated =>
    simp only [reduceCtorEq, false_iff, not_and]
    rintro grown rfl
    exact grown.ne' (not_not.mp saturated)

theorem checkedNextEpoch_eq_ok {epoch next : UInt64}
    (computed : checkedNextEpoch epoch = .ok next) :
    next.toNat = epoch.toNat + 1 := by
  rw [checkedNextEpoch] at computed
  split at computed
  next bounded =>
    obtain rfl := Except.ok.inj computed
    exact Nat.mod_eq_of_lt bounded
  next => cases computed

section Digest

variable {Digest : Type} [DecidableEq Digest]

namespace EgressAllocator

variable {digests : EgressDigests Digest} {allocator : EgressAllocator Digest}

/-! ## Requests -/

/-- A request with its intent in canonical form. -/
structure RequestNormal (digests : EgressDigests Digest)
    (request : EgressAllocationRequest Digest) : Prop where
  epoch : request.intentEpoch ≠ 0
  revision : request.intentRevision ≠ .initial
  canonical : normalizeIntent digests request.intent = .ok request.intent
  addresses : request.intent.addresses.Normal

variable {request : EgressAllocationRequest Digest} {provider : EgressProviderRef}
  {lease : EgressAddressLease Digest} {after : EgressAllocator Digest}
  {raw : EgressAllocationRequest Digest}

theorem validateRequest_eq_ok (computed : validateRequest digests raw = .ok request) :
    RequestNormal digests request := by
  simp only [validateRequest, eq_ok_iffs, eq_false_iffs] at computed
  obtain ⟨⟨epoch, revision⟩, intent, normalized, rfl⟩ := computed
  obtain ⟨-, addresses, canonical⟩ := normalizeIntent_again normalized
  exact ⟨epoch, revision, canonical, addresses⟩

/-- The pools of the allocator by name, each in canonical form, and no two with a common
address. -/
structure PoolsSound (pools : ExtTreeMap String EgressAddressPool) : Prop where
  named : ∀ (name : String) (pool : EgressAddressPool), pools[name]? = some pool →
    pool.name = name
  canonical : ∀ (name : String) (pool : EgressAddressPool), pools[name]? = some pool →
    pool.Canonical
  apart : ∀ (left right : String) (leftPool rightPool : EgressAddressPool),
    pools[left]? = some leftPool → pools[right]? = some rightPool → left ≠ right →
      leftPool.Apart rightPool

/-- The addresses of a lease are the ones its intent asks for. -/
def LeaseFits (pools : ExtTreeMap String EgressAddressPool) (lease : EgressAddressLease Digest) :
    Prop :=
  match lease.intent.addresses with
  | .explicit addresses => lease.pool = none ∧ lease.addresses = addresses
  | .pool name families addressesPerFamily =>
    ∃ pool, pools[name]? = some pool ∧ lease.pool = some ⟨pool.name, pool.uid⟩ ∧
      lease.provider = pool.provider ∧
      (lease.addresses.map IpAddr.family).Perm
        (families.flatMap (List.replicate addressesPerFamily.toNat)) ∧
      ∀ address ∈ lease.addresses, pool.usable address = true

theorem validProvider_of_canonical {pool : EgressAddressPool} (canonical : pool.Canonical) :
    validProvider pool.provider = true := by
  obtain ⟨⟨-, name, instanceName⟩, -⟩ := validatePool_eq_ok.mp canonical.valid
  simp only [validName, validUid, Bool.and_eq_true] at name instanceName
  simp only [validProvider, Bool.and_eq_true]
  exact ⟨⟨⟨name.1, name.2⟩, instanceName.1⟩, instanceName.2⟩

omit [DecidableEq Digest] in
theorem providerFor_valid (sound : PoolsSound allocator.pools)
    (computed : allocator.providerFor request = .ok provider) : validProvider provider = true := by
  rw [providerFor] at computed
  split at computed
  next name families addressesPerFamily _ =>
    simp only [eq_ok_iffs, Option.map_eq_some_iff] at computed
    obtain ⟨-, pool, found, rfl⟩ := computed
    exact validProvider_of_canonical (sound.canonical name pool found)
  next addresses _ =>
    rw [elim_error_eq_ok, Option.filter_eq_some_iff] at computed
    exact computed.2

omit [DecidableEq Digest] in
theorem checkFree_eq_ok {address : IpAddr} {result : Unit} :
    allocator.checkFree address = .ok result ↔ address ∉ allocator.addressOwners := by
  rw [checkFree, ← ExtTreeMap.isSome_getElem?_iff_mem]
  cases allocator.addressOwners[address]? <;> simp

/-- A planned lease has fresh addresses in ascending order, and fits the pools. -/
theorem newLease_eq_ok (sound : PoolsSound allocator.pools) (normal : RequestNormal digests request)
    (provided : allocator.providerFor request = .ok provider)
    (computed : allocator.newLease provider request = .ok lease) :
    (lease.intent = request.intent ∧ lease.intentEpoch = request.intentEpoch ∧
      lease.intentRevision = request.intentRevision ∧ lease.provider = provider) ∧
    (allocator.leases.size ≠ maxEgressIntents ∧ allocator.revision < lease.allocationRevision ∧
      lease.leaseEpoch.toNat = allocator.lastLeaseEpoch.toNat + 1) ∧
    LeaseFits allocator.pools lease ∧ lease.addresses.Pairwise (· < ·) ∧
    ∀ address ∈ lease.addresses, address ∉ allocator.addressOwners := by
  simp only [newLease, eq_ok_iffs, eq_false_iffs] at computed
  obtain ⟨bounded, ⟨pool, addresses⟩, planned, revision, revised, epoch, advanced, rfl⟩ := computed
  refine ⟨⟨rfl, rfl, rfl, rfl⟩, ⟨bounded, (checkedNextRevision_eq_ok.mp revised).1,
    checkedNextEpoch_eq_ok advanced⟩, ?_⟩
  simp only [LeaseFits]
  have addressesNormal := normal.addresses
  rw [planAddresses] at planned
  cases requested : request.intent.addresses with
  | explicit listed =>
    rw [requested] at planned addressesNormal
    simp only [eq_ok_iffs, forM_eq_ok_iff, checkFree_eq_ok] at planned
    obtain ⟨free, rfl, rfl⟩ := planned
    cases addressesNormal with
    | explicit present bounded ascending specified =>
      exact ⟨⟨rfl, rfl⟩, ascending, free⟩
  | pool name families addressesPerFamily =>
    rw [requested] at planned
    simp only [eq_ok_iffs] at planned
    obtain ⟨source, found, progress, ran, rfl, rfl⟩ := planned
    have canonical := sound.canonical name source found
    obtain ⟨fresh, result, exactFamilies, distinct, usable⟩ := foldlM_planNext canonical ran
    rw [result]
    have providerEq : provider = source.provider := by
      simp only [providerFor, requested, eq_ok_iffs, found, Option.map_some, Option.some.injEq]
        at provided
      exact provided.2.symm
    refine ⟨⟨source, found, rfl, providerEq, ?_, fun address member => ?_⟩,
      sort_ascending distinct, fun address member => ?_⟩
    · rw [← exactFamilies]
      exact (sort_perm fresh).map IpAddr.family
    · exact (usable address (mem_sort.mp member)).1
    · have unreserved := (usable address (mem_sort.mp member)).2
      rwa [mem_set_ofList, ExtTreeMap.mem_keys] at unreserved

theorem refreshedLease_eq_ok {existing : EgressAddressLease Digest}
    {outcome : Option (EgressAddressLease Digest)}
    (computed : allocator.refreshedLease existing provider request = .ok outcome) :
    existing.intent.addresses = request.intent.addresses ∧
      ∀ lease ∈ outcome, ∃ revision, allocator.revision < revision ∧ lease = { existing with
        intent := request.intent
        intentEpoch := request.intentEpoch
        intentRevision := request.intentRevision
        allocationRevision := revision } := by
  simp only [refreshedLease, eq_ok_iffs, eq_false_iffs] at computed
  obtain ⟨⟨addresses, -⟩, -, decided⟩ := computed
  refine ⟨addresses, fun lease member => ?_⟩
  split at decided
  next =>
    simp only [eq_ok_iffs] at decided
    obtain ⟨-, rfl⟩ := decided
    cases member
  next =>
    simp only [eq_ok_iffs] at decided
    obtain ⟨revision, revised, rfl⟩ := decided
    obtain rfl := Option.some.inj member
    exact ⟨revision, (checkedNextRevision_eq_ok.mp revised).1, rfl⟩

/-! ## Calls -/

/-- What a successful allocation does: nothing, a new intent for an old lease, or a lease. -/
theorem allocate_eq_ok (ran : (allocate digests raw).run allocator = .ok lease after) :
    ∃ request provider, validateRequest digests raw = .ok request ∧
      allocator.providerFor request = .ok provider ∧
      ((allocator.leases[request.intent.owner]? = some lease ∧ after = allocator) ∨
        (∃ existing, allocator.leases[request.intent.owner]? = some existing ∧
          allocator.refreshedLease existing provider request = .ok (some lease) ∧
          after = { allocator with
            leases := allocator.leases.insert request.intent.owner lease
            revision := lease.allocationRevision }) ∨
        (allocator.leases[request.intent.owner]? = none ∧
          allocator.newLease provider request = .ok lease ∧ after = {
            pools := allocator.pools
            addressOwners := lease.addresses.foldl
              (fun owners address => owners.insert address request.intent.owner)
              allocator.addressOwners
            leases := allocator.leases.insert request.intent.owner lease
            revision := lease.allocationRevision
            lastLeaseEpoch := lease.leaseEpoch })) := by
  simp only [allocate, run_bind_eq_ok, run_ofExcept_eq_ok] at ran
  obtain ⟨request, _, ⟨normalized, rfl⟩, _, _, ⟨rfl, rfl⟩, provider, _, ⟨provided, rfl⟩, ran⟩ := ran
  refine ⟨request, provider, normalized, provided, ?_⟩
  split at ran
  next existing held =>
    simp only [run_bind_eq_ok, run_ofExcept_eq_ok] at ran
    obtain ⟨outcome, _, ⟨decided, rfl⟩, ran⟩ := ran
    cases outcome with
    | none =>
      obtain ⟨rfl, rfl⟩ := run_pure_eq_ok.mp ran
      exact .inl ⟨held, rfl⟩
    | some refreshed =>
      obtain ⟨-, _, rfl, -, _, rfl, rfl, rfl⟩ := ran
      exact .inr (.inl ⟨existing, held, decided, rfl⟩)
  next vacant =>
    simp only [run_bind_eq_ok, run_ofExcept_eq_ok, run_modify_eq_ok] at ran
    obtain ⟨granted, _, ⟨planned, rfl⟩, -, _, rfl, -, _, rfl, -, _, rfl, -, _, rfl, rfl, rfl⟩ := ran
    exact .inr (.inr ⟨vacant, planned, rfl⟩)

theorem allocate_atomic (request : EgressAllocationRequest Digest) :
    Atomic (allocate digests request) := by
  refine (readOnly_ofExcept _).bind_atomic fun request => readOnly_get.bind_atomic
    fun allocator => (readOnly_ofExcept _).bind_atomic fun provider => ?_
  split
  next existing _ =>
    refine (readOnly_ofExcept _).bind_atomic fun outcome => ?_
    cases outcome with
    | none => exact (total_pure _).atomic
    | some refreshed =>
      exact ((total_modify _).bind fun _ => (total_modify _).bind fun _ => total_pure _).atomic
  next =>
    refine (readOnly_ofExcept _).bind_atomic fun lease => ?_
    exact ((total_modify _).bind fun _ => (total_modify _).bind fun _ =>
      (total_modify _).bind fun _ => (total_modify _).bind fun _ => total_pure _).atomic

omit [DecidableEq Digest] in
theorem release_eq_ok {owner : EgressIntentOwner}
    (ran : (release owner).run allocator = .ok lease after) :
    ∃ revision, allocator.revision < revision ∧ allocator.leases[owner]? = some lease ∧
      after = { allocator with
        leases := allocator.leases.erase owner
        addressOwners := lease.addresses.foldl (fun owners address => owners.erase address)
          allocator.addressOwners
        revision := revision } := by
  simp only [release, run_bind_eq_ok, run_get_eq_ok, run_ofExcept_eq_ok, elim_error_eq_ok,
    run_modify_eq_ok, run_pure_eq_ok] at ran
  obtain ⟨_, _, ⟨rfl, rfl⟩, revision, _, ⟨revised, rfl⟩, held, _, ⟨found, rfl⟩, -, _, rfl, -, _,
    rfl, -, _, rfl, rfl, rfl⟩ := ran
  exact ⟨revision, (checkedNextRevision_eq_ok.mp revised).1, found, rfl⟩

omit [DecidableEq Digest] in
theorem release_atomic (owner : EgressIntentOwner) :
    Atomic (release owner : EgressAllocatorCall Digest _) := by
  refine readOnly_get.bind_atomic fun allocator => (readOnly_ofExcept _).bind_atomic
    fun revision => (readOnly_ofExcept _).bind_atomic fun lease => ?_
  exact ((total_modify _).bind fun _ => (total_modify _).bind fun _ =>
    (total_modify _).bind fun _ => total_pure _).atomic

/-! ## Replacement of pools -/

omit [DecidableEq Digest] in
theorem reconcilePools_eq_ok {raw : List EgressAddressPool} {changed : Bool}
    (ran : (reconcilePools raw).run allocator = .ok changed after) :
    ∃ desired retained, normalizePools raw = .ok desired ∧
      (tableValues allocator.leases).foldlM allocator.retainPool ∅ = .ok retained ∧
      after = { allocator with pools := nextPools desired retained } := by
  simp only [reconcilePools, run_bind_eq_ok, run_get_eq_ok, run_ofExcept_eq_ok, mapError_eq_ok]
    at ran
  obtain ⟨desired, _, ⟨normalized, rfl⟩, _, _, ⟨rfl, rfl⟩, retained, _, ⟨collected, rfl⟩, ran⟩ :=
    ran
  refine ⟨desired, retained, normalized, collected, ?_⟩
  split at ran
  next same =>
    obtain ⟨-, rfl⟩ := run_pure_eq_ok.mp ran
    rw [same]
  next =>
    simp only [run_bind_eq_ok, run_modify_eq_ok, run_pure_eq_ok] at ran
    obtain ⟨-, _, rfl, -, rfl⟩ := ran
    rfl

omit [DecidableEq Digest] in
theorem reconcilePools_atomic (pools : List EgressAddressPool) :
    Atomic (reconcilePools pools : EgressAllocatorCall Digest Bool) := by
  refine (readOnly_ofExcept _).bind_atomic fun desired => readOnly_get.bind_atomic
    fun allocator => (readOnly_ofExcept _).bind_atomic fun retained => ?_
  dsimp only
  split
  · exact (total_pure _).atomic
  · exact ((total_modify _).bind fun _ => total_pure _).atomic

omit [DecidableEq Digest] in
/-- Retained pools are pools of the allocator, among them that of every lease. -/
theorem foldlM_retainPool {leases : List (EgressAddressLease Digest)}
    {before after : ExtTreeSet EgressAddressPool}
    (ran : leases.foldlM allocator.retainPool before = .ok after) (pool : EgressAddressPool) :
    pool ∈ after ↔ pool ∈ before ∨ ∃ lease ∈ leases, ∃ allocated, lease.pool = some allocated ∧
      allocator.pools[allocated.name]? = some pool := by
  induction leases generalizing before with
  | nil =>
    obtain rfl := Except.ok.inj ran
    simp
  | cons lease leases ih =>
    rw [foldlM_cons, bind_eq_ok] at ran
    obtain ⟨middle, step, rest⟩ := ran
    rw [ih rest, exists_mem_cons_iff, ← or_assoc]
    refine or_congr_left ?_
    rw [retainPool] at step
    split at step
    next unpooled =>
      obtain rfl := Except.ok.inj step
      simp [unpooled]
    next allocated pooled =>
      simp only [eq_ok_iffs] at step
      obtain ⟨current, found, rfl⟩ := step
      rw [mem_set_insert, or_comm]
      simp [pooled, found]

theorem admissible_iff {current candidate : EgressAddressPool} :
    admissible current candidate = true ↔ (current.name = candidate.name → current = candidate) ∧
        (current.name ≠ candidate.name → current.Apart candidate) := by
  rw [admissible]
  split
  next same => simp [same]
  next different =>
    simp only [Bool.not_eq_true', any_eq_false, Bool.not_eq_true, different, IsEmpty.forall_iff,
      ne_eq, not_false_eq_true, forall_const, true_and, EgressAddressPool.Apart]

/-- The pools after a replacement: the retained ones, and what is desired next to them. -/
theorem getElem?_nextPools {desired : List EgressAddressPool}
    {retained : ExtTreeSet EgressAddressPool} (names : (desired.map EgressAddressPool.name).Nodup)
    (unique : ∀ left right : EgressAddressPool, left ∈ retained → right ∈ retained →
      left.name = right.name → left = right) (name : String) (pool : EgressAddressPool) :
    (nextPools desired retained)[name]? = some pool ↔ pool.name = name ∧ (pool ∈ retained ∨
        pool ∈ desired ∧ ∀ current ∈ retained, admissible current pool = true) := by
  have distinct : (retained.toList.map EgressAddressPool.name).Nodup := by
    rw [nodup_iff_pairwise_ne, pairwise_map]
    refine (ExtTreeSet.distinct_toList (t := retained)).imp_of_mem ?_
    intro left right leftMember rightMember different same
    rw [ExtTreeSet.mem_toList] at leftMember rightMember
    exact different (compare_eq_iff_eq.mpr (unique left right leftMember rightMember same))
  rw [nextPools, getElem?_foldl_insert_items distinct, ExtTreeMap.getElem?_filter]
  simp only [Option.pfilter_eq_filter, Option.filter_eq_some_iff, byName,
    getElem?_foldl_insert_empty names, all_eq_true, ExtTreeSet.mem_toList]
  constructor
  · rintro (⟨member, same⟩ | ⟨-, ⟨member, same⟩, admitted⟩)
    · exact ⟨same, .inl member⟩
    · exact ⟨same, .inr ⟨member, admitted⟩⟩
  · rintro ⟨same, member | ⟨member, admitted⟩⟩
    · exact .inl ⟨member, same⟩
    · by_cases kept : pool ∈ retained
      · exact .inl ⟨kept, same⟩
      · refine .inr ⟨fun current listed sameName => kept ?_, ⟨member, same⟩, admitted⟩
        have equal := (admissible_iff.mp (admitted current listed)).1 (sameName.trans same.symm)
        exact equal ▸ listed

end EgressAllocator

end Digest

end Unf.Egress
