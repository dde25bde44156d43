import Unf.Egress.AllocationSpec

/-!
# Runs of the egress allocator

Whatever calls an allocator has taken, its leases fit their pools, the owners of addresses
are the holders of the leases, and every lease has an epoch later than all that were issued
before it.
-/

namespace Unf.Egress

open Std (ExtTreeMap ExtTreeSet)
open Unf.Lib List EgressAllocator
open Unf.Service (Revision)

variable {Digest : Type} [DecidableEq Digest]

namespace EgressAllocator

variable {digests : EgressDigests Digest} {allocator : EgressAllocator Digest}

/-! ## Consistent allocators -/

/-- A lease that fits the pools and is not newer than the allocator. -/
structure LeaseSound (digests : EgressDigests Digest)
    (pools : ExtTreeMap String EgressAddressPool) (revision : Revision) (lastLeaseEpoch : UInt64)
    (lease : EgressAddressLease Digest) : Prop where
  canonical : normalizeIntent digests lease.intent = .ok lease.intent
  addresses : lease.intent.addresses.Normal
  epoch : lease.intentEpoch ≠ 0
  intentRevision : lease.intentRevision ≠ .initial
  issued : lease.allocationRevision ≠ .initial
  recent : lease.allocationRevision ≤ revision
  numbered : lease.leaseEpoch ≠ 0
  counted : lease.leaseEpoch ≤ lastLeaseEpoch
  ascending : lease.addresses.Pairwise (· < ·)
  provider : validProvider lease.provider = true
  fits : LeaseFits pools lease

/-- What every run of calls preserves. -/
structure Consistent (digests : EgressDigests Digest) (allocator : EgressAllocator Digest) :
    Prop where
  pools : PoolsSound allocator.pools
  bounded : allocator.leases.size ≤ maxEgressIntents
  owned : ∀ (owner : EgressIntentOwner) (lease : EgressAddressLease Digest),
    allocator.leases[owner]? = some lease → lease.intent.owner = owner
  sound : ∀ (owner : EgressIntentOwner) (lease : EgressAddressLease Digest),
    allocator.leases[owner]? = some lease →
      LeaseSound digests allocator.pools allocator.revision allocator.lastLeaseEpoch lease
  owners : OwnersExact EgressAddressLease.addresses allocator.leases allocator.addressOwners

variable {pools : List EgressAddressPool} {lease : EgressAddressLease Digest}
  {after : EgressAllocator Digest} {leases : List (EgressAddressLease Digest)}
  {retained : ExtTreeSet EgressAddressPool} {raw : List EgressAddressPool}

theorem poolsSound_byName (set : PoolSet pools) (canonical : ∀ pool ∈ pools, pool.Canonical) :
    PoolsSound (byName pools) := by
  have listed {name : String} {pool : EgressAddressPool}
      (found : (byName pools)[name]? = some pool) : pool ∈ pools ∧ pool.name = name :=
    (getElem?_foldl_insert_empty set.names name pool).mp found
  exact {
    named := fun name pool found => (listed found).2
    canonical := fun name pool found => canonical pool (listed found).1
    apart := fun left right leftPool rightPool leftFound rightFound different => by
      refine set.apart.forall (listed leftFound).1 (listed rightFound).1 fun same => different ?_
      rw [← (listed leftFound).2, same, (listed rightFound).2] }

theorem consistent_of_new (built : new pools = .ok allocator) : allocator.Consistent digests := by
  simp only [new, eq_ok_iffs] at built
  obtain ⟨normalized, computed, rfl⟩ := built
  obtain ⟨set, canonical⟩ := canonical_of_normalizePools computed
  exact {
    pools := poolsSound_byName set canonical
    bounded := Nat.zero_le _
    owned := fun owner lease found => by simp at found
    sound := fun owner lease found => by simp at found
    owners := ownersExact_empty }

theorem LeaseSound.later {pools : ExtTreeMap String EgressAddressPool}
    {revision laterRevision : Revision} {epoch laterEpoch : UInt64}
    (sound : LeaseSound digests pools revision epoch lease) (revised : revision ≤ laterRevision)
    (advanced : epoch ≤ laterEpoch) : LeaseSound digests pools laterRevision laterEpoch lease :=
  { sound with
    recent := sound.recent.trans revised
    counted := sound.counted.trans advanced }

theorem initial_le (revision : Revision) : Revision.initial ≤ revision :=
  Revision.le_iff.mpr UInt64.zero_le

theorem ne_initial_of_lt {before after : Revision} (grown : before < after) : after ≠ .initial := by
  rintro rfl
  exact absurd grown (not_lt_of_ge (initial_le before))

variable (consistent : allocator.Consistent digests)

include consistent

/-- One lease is entered under its owner, and the counters grow. -/
theorem Consistent.enter {addressOwners : ExtTreeMap IpAddr EgressIntentOwner} {revision : Revision}
    {epoch : UInt64} (sound : LeaseSound digests allocator.pools revision epoch lease)
    (revised : allocator.revision ≤ revision) (advanced : allocator.lastLeaseEpoch ≤ epoch)
    (bounded : (allocator.leases.insert lease.intent.owner lease).size ≤ maxEgressIntents)
    (owners : OwnersExact EgressAddressLease.addresses
      (allocator.leases.insert lease.intent.owner lease) addressOwners) :
    (EgressAllocator.mk allocator.pools (allocator.leases.insert lease.intent.owner lease)
      addressOwners revision epoch).Consistent digests where
  pools := consistent.pools
  bounded := bounded
  owners := owners
  owned := forall_getElem?_insert rfl consistent.owned
  sound := forall_getElem?_insert sound fun owner other found =>
    (consistent.sound owner other found).later revised advanced

theorem Consistent.allocate {raw : EgressAllocationRequest Digest}
    (ran : (allocate digests raw).run allocator = .ok lease after) : after.Consistent digests := by
  obtain ⟨request, provider, normalized, provided, effect⟩ := allocate_eq_ok ran
  have normal := validateRequest_eq_ok normalized
  rcases effect with ⟨-, rfl⟩ | ⟨existing, held, refreshed, rfl⟩ | ⟨vacant, granted, rfl⟩
  · exact consistent
  · obtain ⟨sameAddresses, values⟩ := refreshedLease_eq_ok refreshed
    obtain ⟨revision, grown, equal⟩ := values lease rfl
    have existingSound := consistent.sound request.intent.owner existing held
    have leaseOwner : lease.intent.owner = request.intent.owner := by rw [equal]
    rw [← leaseOwner] at held ⊢
    refine consistent.enter ?_ ?_ (le_refl _) ?_ (consistent.owners.renew held (by rw [equal]))
    · rw [equal]
      exact { existingSound with
        canonical := normal.canonical
        addresses := normal.addresses
        epoch := normal.epoch
        intentRevision := normal.revision
        issued := ne_initial_of_lt grown
        recent := le_refl _
        fits := by
          have fits := existingSound.fits
          rw [LeaseFits, sameAddresses] at fits
          exact fits }
    · rw [equal]
      exact grown.le
    · have present : allocator.leases.contains lease.intent.owner = true := by
        rw [ExtTreeMap.contains_iff_mem, ← ExtTreeMap.isSome_getElem?_iff_mem, held]
        rfl
      rw [ExtTreeMap.size_insert, present]
      exact consistent.bounded
  · obtain ⟨⟨sameIntent, sameEpoch, sameRevision, sameProvider⟩, ⟨room, grown, advanced⟩, fits,
      ascending, free⟩ := newLease_eq_ok consistent.pools normal provided granted
    rw [← sameIntent] at vacant ⊢
    have counted : allocator.lastLeaseEpoch ≤ lease.leaseEpoch := by
      rw [UInt64.le_iff_toNat_le]
      omega
    refine consistent.enter ?_ grown.le counted ?_ (consistent.owners.grant vacant free)
    · exact {
        canonical := sameIntent ▸ normal.canonical
        addresses := sameIntent ▸ normal.addresses
        epoch := sameEpoch ▸ normal.epoch
        intentRevision := sameRevision ▸ normal.revision
        issued := ne_initial_of_lt grown
        recent := le_refl _
        numbered := fun zero => by
          rw [zero] at advanced
          change 0 = _ at advanced
          omega
        counted := le_refl _
        ascending := ascending
        provider := sameProvider ▸ providerFor_valid consistent.pools provided
        fits := fits }
    · have small := ExtTreeMap.size_insert_le (t := allocator.leases) (k := lease.intent.owner)
        (v := lease)
      have bounded := consistent.bounded
      omega

theorem Consistent.release {owner : EgressIntentOwner}
    (ran : (release owner).run allocator = .ok lease after) : after.Consistent digests := by
  obtain ⟨revision, grown, held, rfl⟩ := release_eq_ok ran
  exact {
    pools := consistent.pools
    bounded := ExtTreeMap.size_erase_le.trans consistent.bounded
    owned := fun holder other found => consistent.owned holder other (getElem?_of_erase found)
    sound := fun holder other found =>
      (consistent.sound holder other (getElem?_of_erase found)).later grown.le (le_refl _)
    owners := consistent.owners.revoke held }

omit consistent

/-! ### Replacement of pools -/

variable (sound : PoolsSound allocator.pools)

include sound

variable (collected : leases.foldlM allocator.retainPool ∅ = .ok retained)

include collected

omit [DecidableEq Digest] in
theorem PoolsSound.getElem?_retained {pool : EgressAddressPool} (member : pool ∈ retained) :
    allocator.pools[pool.name]? = some pool := by
  rcases (foldlM_retainPool collected pool).mp member with absent | ⟨lease, -, allocated, -, found⟩
  · exact absurd absent ExtTreeSet.not_mem_empty
  · rw [sound.named allocated.name pool found]
    exact found

omit [DecidableEq Digest] in
/-- Two retained pools of one name are the same pool of the allocator. -/
theorem PoolsSound.retained_unique
    (left right : EgressAddressPool) (inLeft : left ∈ retained) (inRight : right ∈ retained)
    (same : left.name = right.name) : left = right := by
  have leftFound := sound.getElem?_retained collected inLeft
  rw [same] at leftFound
  exact Option.some.inj (leftFound.symm.trans (sound.getElem?_retained collected inRight))

variable {desired : List EgressAddressPool} {result : EgressAddressLease Digest ⊕ Bool}
  {initial : EgressAllocator Digest}

omit [DecidableEq Digest] in
theorem PoolsSound.nextPools
    (normalized : normalizePools raw = .ok desired) : PoolsSound (nextPools desired retained) := by
  obtain ⟨set, canonical⟩ := canonical_of_normalizePools normalized
  have lookup := getElem?_nextPools set.names (sound.retained_unique collected)
  exact {
    named := fun name pool found => ((lookup name pool).mp found).1
    canonical := fun name pool found => by
      rcases ((lookup name pool).mp found).2 with member | ⟨member, -⟩
      · exact sound.canonical _ pool (sound.getElem?_retained collected member)
      · exact canonical pool member
    apart := fun left right leftPool rightPool leftFound rightFound different => by
      obtain ⟨leftName, leftOrigin⟩ := (lookup left leftPool).mp leftFound
      obtain ⟨rightName, rightOrigin⟩ := (lookup right rightPool).mp rightFound
      have names : leftPool.name ≠ rightPool.name := by
        rw [leftName, rightName]
        exact different
      rcases leftOrigin with leftMember | ⟨leftMember, leftAdmitted⟩ <;>
        rcases rightOrigin with rightMember | ⟨rightMember, rightAdmitted⟩
      · exact sound.apart _ _ _ _ (sound.getElem?_retained collected leftMember)
          (sound.getElem?_retained collected rightMember) names
      · exact (admissible_iff.mp (rightAdmitted leftPool leftMember)).2 names
      · exact ((admissible_iff.mp (leftAdmitted rightPool rightMember)).2 names.symm).symm
      · exact set.apart.forall leftMember rightMember
          fun same => names (congrArg EgressAddressPool.name same) }

omit [DecidableEq Digest] in
/-- The pool of a lease stays while the lease does. -/
theorem LeaseFits.nextPools
    (normalized : normalizePools raw = .ok desired) (member : lease ∈ leases)
    (fits : LeaseFits allocator.pools lease) :
    LeaseFits (nextPools desired retained) lease := by
  obtain ⟨set, -⟩ := canonical_of_normalizePools normalized
  rw [LeaseFits] at fits ⊢
  split at fits
  next addresses _ => exact fits
  next name families addressesPerFamily _ =>
    obtain ⟨pool, found, allocated, rest⟩ := fits
    have named := sound.named name pool found
    refine ⟨pool, ?_, allocated, rest⟩
    rw [getElem?_nextPools set.names (sound.retained_unique collected)]
    refine ⟨named, .inl ((foldlM_retainPool collected pool).mpr (.inr ?_))⟩
    refine ⟨lease, member, _, allocated, ?_⟩
    change allocator.pools[pool.name]? = some pool
    rw [named]
    exact found

omit sound

omit collected

include consistent in
theorem Consistent.reconcilePools {changed : Bool}
    (ran : (reconcilePools raw).run allocator = .ok changed after) : after.Consistent digests := by
  obtain ⟨desired, retained, normalized, collected, rfl⟩ := reconcilePools_eq_ok ran
  exact {
    pools := consistent.pools.nextPools collected normalized
    bounded := consistent.bounded
    owned := consistent.owned
    sound := fun owner lease found => { consistent.sound owner lease found with
      fits := (consistent.sound owner lease found).fits.nextPools consistent.pools collected
        normalized (mem_tableValues.mpr ⟨owner, found⟩) }
    owners := consistent.owners }

/-! ## Runs of calls -/

/-- The calls that change an allocator. -/
inductive EgressAllocationCall (Digest : Type) where
  | allocate (request : EgressAllocationRequest Digest)
  | release (owner : EgressIntentOwner)
  | reconcilePools (pools : List EgressAddressPool)

variable {call : EgressAllocationCall Digest}

/-- A call returns a lease, or says whether the pools have changed. -/
def perform (digests : EgressDigests Digest) :
    EgressAllocationCall Digest → EgressAllocatorCall Digest (EgressAddressLease Digest ⊕ Bool)
  | .allocate request => do return .inl (← allocate digests request)
  | .release owner => do return .inl (← release owner)
  | .reconcilePools pools => do return .inr (← reconcilePools pools)

theorem perform_atomic (call : EgressAllocationCall Digest) : Atomic (perform digests call) := by
  cases call with
  | allocate request => exact (allocate_atomic request).bind_total fun _ => total_pure _
  | release owner => exact (release_atomic owner).bind_total fun _ => total_pure _
  | reconcilePools pools =>
    exact (reconcilePools_atomic pools).bind_total fun _ => total_pure _

include consistent in
theorem Consistent.perform (ran : (perform digests call).run allocator = .ok result after) :
    after.Consistent digests := by
  cases call with
  | allocate request =>
    obtain ⟨lease, _, allocated, returned⟩ := run_bind_eq_ok.mp ran
    obtain ⟨-, rfl⟩ := run_pure_eq_ok.mp returned
    exact consistent.allocate allocated
  | release owner =>
    obtain ⟨lease, _, released, returned⟩ := run_bind_eq_ok.mp ran
    obtain ⟨-, rfl⟩ := run_pure_eq_ok.mp returned
    exact consistent.release released
  | reconcilePools pools =>
    obtain ⟨changed, _, reconciled, returned⟩ := run_bind_eq_ok.mp ran
    obtain ⟨-, rfl⟩ := run_pure_eq_ok.mp returned
    exact consistent.reconcilePools reconciled

theorem consistent_of_run (built : new pools = .ok initial)
    (calls : List (EgressAllocationCall Digest)) :
    (runCalls (perform digests) calls initial).Consistent digests :=
  runCalls_invariant (consistent_of_new built) perform_atomic
    (fun _ _ _ _ consistent ran => consistent.perform ran) calls

/-! ## Epochs -/

/-- The lease that a call grants to an intent without one. -/
def granted (digests : EgressDigests Digest) (allocator : EgressAllocator Digest) :
    EgressAllocationCall Digest → Option (EgressAddressLease Digest)
  | .allocate request =>
    match (allocate digests request).run allocator with
    | .ok lease _ => if lease.intent.owner ∈ allocator.leases then none else some lease
    | .error _ _ => none
  | .release _ | .reconcilePools _ => none

/-- The leases that a run grants, in the order of the calls. -/
def issued (digests : EgressDigests Digest) :
    List (EgressAllocationCall Digest) → EgressAllocator Digest → List (EgressAddressLease Digest)
  | [], _ => []
  | call :: calls, allocator =>
    (granted digests allocator call).toList ++
      issued digests calls (EStateM.Result.state ((perform digests call).run allocator))

theorem issued_append_singleton (calls : List (EgressAllocationCall Digest))
    (call : EgressAllocationCall Digest) (allocator : EgressAllocator Digest) :
    issued digests (calls ++ [call]) allocator = issued digests calls allocator ++
      (granted digests (runCalls (perform digests) calls allocator) call).toList := by
  induction calls generalizing allocator with
  | nil => simp [issued]
  | cons first calls ih =>
    rw [List.cons_append, issued, issued, ih, List.append_assoc]
    rfl

/-- The lease goes back to the earlier one. -/
def Continues (earlier lease : EgressAddressLease Digest) : Prop :=
  earlier.leaseEpoch = lease.leaseEpoch ∧ earlier.intent.owner = lease.intent.owner ∧
    earlier.addresses = lease.addresses

include consistent in
/-- A call either leaves the last epoch alone and only continues leases, or it issues the
next epoch to the one lease it grants. -/
theorem epoch_of_call (ran : (perform digests call).run allocator = .ok result after) :
    (granted digests allocator call = none ∧ after.lastLeaseEpoch = allocator.lastLeaseEpoch ∧
      ∀ (owner : EgressIntentOwner) lease, after.leases[owner]? = some lease →
        ∃ earlier, allocator.leases[owner]? = some earlier ∧ Continues earlier lease) ∨
    ∃ fresh, granted digests allocator call = some fresh ∧
      fresh.leaseEpoch.toNat = allocator.lastLeaseEpoch.toNat + 1 ∧
      after.lastLeaseEpoch = fresh.leaseEpoch ∧
      ∀ (owner : EgressIntentOwner) lease, after.leases[owner]? = some lease →
        lease = fresh ∨ allocator.leases[owner]? = some lease := by
  cases call with
  | allocate raw =>
    obtain ⟨lease, _, allocated, returned⟩ := run_bind_eq_ok.mp ran
    obtain ⟨-, rfl⟩ := run_pure_eq_ok.mp returned
    obtain ⟨request, provider, normalized, provided, effect⟩ := allocate_eq_ok allocated
    have decision : granted digests allocator (.allocate raw) =
        if lease.intent.owner ∈ allocator.leases then none else some lease := by
      rw [granted, allocated]
    rcases effect with ⟨held, rfl⟩ | ⟨existing, held, refreshed, rfl⟩ | ⟨vacant, planned, rfl⟩
    · have owner := consistent.owned request.intent.owner lease held
      have present : lease.intent.owner ∈ after.leases := by
        rw [owner, ← ExtTreeMap.isSome_getElem?_iff_mem, held]
        rfl
      rw [if_pos present] at decision
      exact .inl ⟨decision, rfl, fun holder other found => ⟨other, found, rfl, rfl, rfl⟩⟩
    · obtain ⟨-, values⟩ := refreshedLease_eq_ok refreshed
      obtain ⟨revision, -, equal⟩ := values lease rfl
      have owner := consistent.owned request.intent.owner existing held
      have present : lease.intent.owner ∈ allocator.leases := by
        rw [equal, ← ExtTreeMap.isSome_getElem?_iff_mem, held]
        rfl
      rw [if_pos present] at decision
      refine .inl ⟨decision, rfl, forall_getElem?_insert ⟨existing, held, ?_⟩
        fun holder other found => ⟨other, found, rfl, rfl, rfl⟩⟩
      rw [equal]
      exact ⟨rfl, owner, rfl⟩
    · have normal := validateRequest_eq_ok normalized
      obtain ⟨⟨sameIntent, -⟩, ⟨-, -, advanced⟩, -⟩ :=
        newLease_eq_ok consistent.pools normal provided planned
      have absent : lease.intent.owner ∉ allocator.leases := by
        rw [sameIntent, ← ExtTreeMap.isSome_getElem?_iff_mem, vacant]
        exact Bool.false_ne_true
      rw [if_neg absent] at decision
      exact .inr ⟨lease, decision, advanced, rfl,
        forall_getElem?_insert (.inl rfl) fun holder other found => .inr found⟩
  | release owner =>
    obtain ⟨lease, _, released, returned⟩ := run_bind_eq_ok.mp ran
    obtain ⟨-, rfl⟩ := run_pure_eq_ok.mp returned
    obtain ⟨revision, -, -, rfl⟩ := release_eq_ok released
    refine .inl ⟨rfl, rfl, fun holder other found => ?_⟩
    exact ⟨other, getElem?_of_erase found, rfl, rfl, rfl⟩
  | reconcilePools pools =>
    obtain ⟨changed, _, reconciled, returned⟩ := run_bind_eq_ok.mp ran
    obtain ⟨-, rfl⟩ := run_pure_eq_ok.mp returned
    obtain ⟨desired, retained, -, -, rfl⟩ := reconcilePools_eq_ok reconciled
    exact .inl ⟨rfl, rfl, fun holder other found => ⟨other, found, rfl, rfl, rfl⟩⟩

/-- A call that fails grants nothing. -/
theorem granted_of_error {error : EgressAllocationError}
    (ran : (perform digests call).run allocator = .error error after) :
    granted digests allocator call = none := by
  cases call with
  | allocate raw =>
    rcases run_bind_eq_error.mp ran with failed | ⟨_, _, -, impossible⟩
    · rw [granted, failed]
    · exact absurd impossible run_pure_ne_error
  | release owner => rfl
  | reconcilePools pools => rfl

/-- The epochs of what has been issued, against the allocator they were issued by. -/
structure Numbered (issued : List (EgressAddressLease Digest))
    (allocator : EgressAllocator Digest) : Prop where
  ascending : (issued.map EgressAddressLease.leaseEpoch).Pairwise (· < ·)
  counted : ∀ lease ∈ issued, lease.leaseEpoch ≤ allocator.lastLeaseEpoch
  held : ∀ (owner : EgressIntentOwner) lease, allocator.leases[owner]? = some lease →
    ∃ first ∈ issued, Continues first lease

theorem numbered_of_run (built : new pools = .ok initial)
    (calls : List (EgressAllocationCall Digest)) :
    Numbered (issued digests calls initial) (runCalls (perform digests) calls initial) := by
  induction calls using List.reverseRecOn with
  | nil =>
    simp only [new, eq_ok_iffs] at built
    obtain ⟨normalized, -, rfl⟩ := built
    exact ⟨List.Pairwise.nil, by simp [issued], fun owner lease found => by simp at found⟩
  | append_singleton calls call ih =>
    have consistent : (runCalls (perform digests) calls initial).Consistent digests :=
      consistent_of_run built calls
    rw [issued_append_singleton, runCalls_append, runCalls_singleton]
    cases ran : (perform digests call).run (runCalls (perform digests) calls initial) with
    | error error after =>
      rw [granted_of_error ran, perform_atomic call _ error after ran, Option.toList_none,
        append_nil]
      exact ih
    | ok result after =>
      rw [EStateM.Result.state]
      rcases epoch_of_call consistent ran with ⟨nothing, same, continued⟩ |
        ⟨fresh, grant, next, last, leases⟩
      · rw [nothing, Option.toList_none, append_nil]
        refine ⟨ih.ascending, same ▸ ih.counted, fun owner lease found => ?_⟩
        obtain ⟨earlier, before, epoch, sameOwner, addresses⟩ := continued owner lease found
        obtain ⟨first, member, back⟩ := ih.held owner earlier before
        exact ⟨first, member, back.1.trans epoch, back.2.1.trans sameOwner,
          back.2.2.trans addresses⟩
      · rw [grant]
        have newer (lease : EgressAddressLease Digest)
            (member : lease ∈ issued digests calls initial) :
            lease.leaseEpoch < fresh.leaseEpoch := by
          have before := UInt64.le_iff_toNat_le.mp (ih.counted lease member)
          rw [UInt64.lt_iff_toNat_lt]
          omega
        refine ⟨?_, fun lease member => ?_, fun owner lease found => ?_⟩
        · rw [map_append, pairwise_append]
          refine ⟨ih.ascending, pairwise_singleton _ _, ?_⟩
          intro epoch earlier other singleton
          obtain ⟨lease, member, rfl⟩ := mem_map.mp earlier
          obtain rfl := mem_singleton.mp singleton
          exact newer lease member
        · rw [last]
          rcases mem_append.mp member with earlier | singleton
          · exact (newer lease earlier).le
          · rw [mem_singleton.mp singleton]
        · rcases leases owner lease found with rfl | before
          · exact ⟨lease, by simp, rfl, rfl, rfl⟩
          · obtain ⟨first, member, back⟩ := ih.held owner lease before
            exact ⟨first, mem_append_left _ member, back⟩

end EgressAllocator

end Unf.Egress
