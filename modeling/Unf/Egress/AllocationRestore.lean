import Unf.Egress.AllocationRun

/-!
# What can be restored of an egress allocator

A checkpoint of an allocator is restored as it was if its pools form a valid set, and is
refused otherwise. Replacing pools under live leases does not keep them a valid set: the
retained and the desired pools may be too many together, and may have one UID.
-/

namespace Unf.Egress

open Std (ExtTreeMap)
open Unf.Lib List
open Unf.Service (Revision)

variable {Digest : Type} [DecidableEq Digest]

namespace EgressAllocator

variable {digests : EgressDigests Digest} {allocator : EgressAllocator Digest}

/-! ## Leases -/

/-- The requested number of addresses of each family. -/
theorem length_filter_family {addresses : List IpAddr} {families : List AddressFamily}
    {count : Nat} (perm : (addresses.map IpAddr.family).Perm
      (families.flatMap (List.replicate count))) (distinct : families.Nodup)
    {family : AddressFamily} (member : family ∈ families) :
    (addresses.filter fun address => address.family == family).length = count := by
  have counted : (addresses.filter fun address => address.family == family).length =
      (addresses.map IpAddr.family).count family := by
    rw [List.count, countP_map, countP_eq_length_filter]
    rfl
  rw [counted, perm.count_eq, count_flatMap_replicate distinct count member]

variable {pools : ExtTreeMap String EgressAddressPool} {lease : EgressAddressLease Digest}
  {revision : Revision} {epoch : UInt64}

variable (sound : LeaseSound digests pools revision epoch lease)

include sound

theorem LeaseSound.leaseMatchesRequest (same : allocator.pools = pools) :
    allocator.leaseMatchesRequest lease = true := by
  have fits := sound.fits
  have normal := sound.addresses
  cases requested : lease.intent.addresses with
  | explicit addresses =>
    simp only [LeaseFits, requested] at fits
    simp [EgressAllocator.leaseMatchesRequest, requested, fits.1, fits.2]
  | pool name families addressesPerFamily =>
    simp only [LeaseFits, requested] at fits
    obtain ⟨pool, found, allocated, provider, perm, usable⟩ := fits
    rw [requested] at normal
    cases normal with
    | pool named present ascending positive bounded =>
      have distinct : families.Nodup := ascending.imp ne_of_lt
      have total : lease.addresses.length = families.length * addressesPerFamily.toNat := by
        rw [← length_map IpAddr.family, perm.length_eq]
        simp
      simp only [EgressAllocator.leaseMatchesRequest, requested, same, found, allocated,
        provider, total, BEq.rfl, Bool.true_and, Bool.and_eq_true, all_eq_true, beq_iff_eq]
      exact ⟨fun family member => length_filter_family perm distinct member, usable⟩

theorem LeaseSound.addresses_bounded :
    lease.addresses ≠ [] ∧ lease.addresses.length ≤ maxEgressAddressesPerIntent * 2 := by
  have fits := sound.fits
  have normal := sound.addresses
  rw [LeaseFits] at fits
  split at fits
  next addresses requested =>
    rw [requested] at normal
    cases normal with
    | explicit present bounded ascending specified =>
      rw [fits.2]
      exact ⟨present, bounded.trans (Nat.le_mul_of_pos_right _ (by decide))⟩
  next name families addressesPerFamily requested =>
    obtain ⟨pool, found, allocated, provider, perm, usable⟩ := fits
    rw [requested] at normal
    cases normal with
    | pool named present ascending positive bounded =>
      have total : lease.addresses.length = families.length * addressesPerFamily.toNat := by
        rw [← length_map IpAddr.family, perm.length_eq]
        simp
      have every : families ⊆ [.ipv4, .ipv6] := fun family _ => by cases family <;> simp
      have few : families.length ≤ 2 := (subperm_of_subset (ascending.imp ne_of_lt) every).length_le
      have some : 0 < families.length := length_pos_iff.mpr present
      have count : 0 < addressesPerFamily.toNat := by
        rw [Nat.pos_iff_ne_zero]
        exact fun zero => positive (UInt16.toNat_inj.mp zero)
      rw [← length_pos_iff, total]
      exact ⟨Nat.mul_pos some count, by
        rw [Nat.mul_comm]
        exact Nat.mul_le_mul bounded few⟩

variable {owner : EgressIntentOwner}

omit sound

theorem claimAddress_eq_ok (owners : ExtTreeMap IpAddr EgressIntentOwner) (address : IpAddr)
    (after : ExtTreeMap IpAddr EgressIntentOwner) : claimAddress owner owners address = .ok after ↔
      address ∉ owners ∧ after = owners.insert address owner := by
  rw [claimAddress, ← ExtTreeMap.isSome_getElem?_iff_mem]
  cases owners[address]? <;> simp [eq_comm]

/-- A sound lease of a new owner and free addresses is restored. -/
theorem restoreLease_eq_ok
    (sound : LeaseSound digests allocator.pools allocator.revision allocator.lastLeaseEpoch lease)
    (vacant : lease.intent.owner ∉ allocator.leases)
    (free : ∀ address ∈ lease.addresses, address ∉ allocator.addressOwners) :
    allocator.restoreLease digests lease = .ok { allocator with
      addressOwners := lease.addresses.foldl
        (fun owners address => owners.insert address lease.intent.owner) allocator.addressOwners
      leases := allocator.leases.insert lease.intent.owner lease } := by
  obtain ⟨present, bounded⟩ := sound.addresses_bounded
  have native : allocator.leaseForeign lease = false := by
    simp only [leaseForeign, eq_false_iffs, map_contains_eq_false_iff]
    exact ⟨⟨⟨⟨⟨⟨⟨⟨⟨⟨⟨vacant, sound.epoch⟩, sound.intentRevision⟩, sound.issued⟩, sound.recent⟩,
      sound.numbered⟩, sound.counted⟩, present⟩, bounded⟩,
      strictlyAscending_iff.mpr sound.ascending⟩, sound.provider⟩, sound.leaseMatchesRequest rfl⟩
  simp only [restoreLease, eq_ok_iffs, eq_false_iffs, foldlM_claim_eq_ok claimAddress_eq_ok]
  have distinct : lease.addresses.Nodup := sound.ascending.imp ne_of_lt
  exact ⟨lease.intent, sound.canonical, ⟨rfl, native⟩, _, ⟨⟨free, distinct⟩, rfl⟩, rfl⟩

/-! ## Checkpoints -/

/-- The pools of a consistent allocator lack nothing of a valid set but their number and
their UIDs. -/
theorem PoolsSound.poolSet_iff (sound : PoolsSound pools) :
    PoolSet (tableValues pools) ↔ pools.size ≤ maxEgressPools ∧
      ((tableValues pools).map EgressAddressPool.uid).Nodup := by
  constructor
  · intro set
    exact ⟨length_tableValues pools ▸ set.bounded, set.uids⟩
  · rintro ⟨bounded, uids⟩
    refine ⟨length_tableValues pools ▸ bounded, nodup_key_tableValues sound.named, uids, ?_⟩
    have distinct := nodup_key_tableValues sound.named
    rw [nodup_iff_pairwise_ne, pairwise_map] at distinct
    refine distinct.imp_of_mem fun {left right} leftMember rightMember different => ?_
    obtain ⟨leftName, leftFound⟩ := mem_tableValues.mp leftMember
    obtain ⟨rightName, rightFound⟩ := mem_tableValues.mp rightMember
    refine sound.apart leftName rightName left right leftFound rightFound fun same => ?_
    rw [sound.named leftName left leftFound, sound.named rightName right rightFound] at different
    exact different same

omit [DecidableEq Digest] in
/-- The pools of a checkpoint are accepted when they form a valid set. -/
theorem new_tableValues_iff (sound : PoolsSound pools) {built : EgressAllocator Digest} :
    new (tableValues pools) = .ok built ↔
      PoolSet (tableValues pools) ∧ built = ⟨pools, ∅, ∅, .initial, 0⟩ := by
  have canonical (pool : EgressAddressPool) (member : pool ∈ tableValues pools) :
      pool.Canonical := by
    obtain ⟨name, found⟩ := mem_tableValues.mp member
    exact sound.canonical name pool found
  have rebuilt : byName (tableValues pools) = pools := foldl_insert_tableValues sound.named
  simp only [new, eq_ok_iffs,
    normalizePools_canonical_iff canonical (tableValues_ascending sound.named)]
  constructor
  · rintro ⟨_, ⟨set, rfl⟩, rfl⟩
    exact ⟨set, by rw [rebuilt]⟩
  · rintro ⟨set, rfl⟩
    exact ⟨_, ⟨set, rfl⟩, by rw [rebuilt]⟩

variable (consistent : allocator.Consistent digests)

include consistent

theorem Consistent.counters :
    (!allocator.checkpoint.leases.isEmpty && (allocator.checkpoint.revision == .initial ||
      allocator.checkpoint.lastLeaseEpoch == 0)) = false := by
  rw [Bool.and_eq_false_iff, Bool.not_eq_false', List.isEmpty_iff, or_iff_not_imp_left,
    Bool.or_eq_false_iff, beq_eq_false_iff_ne, beq_eq_false_iff_ne]
  intro present
  obtain ⟨lease, member⟩ := exists_mem_of_ne_nil _ present
  obtain ⟨owner, found⟩ := mem_tableValues.mp member
  have sound := consistent.sound owner lease found
  constructor
  · intro initial
    have recent := sound.recent
    change allocator.revision = .initial at initial
    rw [initial] at recent
    exact sound.issued (le_antisymm recent (initial_le _))
  · intro zero
    have counted := sound.counted
    change allocator.lastLeaseEpoch = 0 at zero
    rw [zero] at counted
    exact sound.numbered (le_antisymm counted UInt64.zero_le)

/-- A checkpoint is restored as it was exactly when its pools form a valid set. -/
theorem Consistent.restore_checkpoint_iff :
    restore digests allocator.checkpoint = .ok allocator ↔
      PoolSet (tableValues allocator.pools) := by
  have started (built : EgressAllocator Digest) :
      new (tableValues allocator.pools) = .ok built ↔ _ := new_tableValues_iff consistent.pools
  constructor
  · intro restored
    simp only [restore, bind_eq_ok] at restored
    obtain ⟨_, -, _, -, _, -, built, accepted, -⟩ := restored
    exact ((started built).mp accepted).1
  · intro set
    have ran : (tableValues allocator.leases).foldlM (restoreLease digests)
        ⟨allocator.pools, ∅, ∅, allocator.revision, allocator.lastLeaseEpoch⟩ = .ok allocator := by
      apply consistent.owners.foldlM_tableValues consistent.owned fun leases owners =>
        EgressAllocator.mk allocator.pools leases owners allocator.revision
          allocator.lastLeaseEpoch
      intro leases owners lease listed vacant free
      exact restoreLease_eq_ok (consistent.sound lease.intent.owner lease listed) vacant free
    have accepted := (started _).mpr ⟨set, rfl⟩
    simp only [restore, eq_ok_iffs]
    refine ⟨rfl, ?_, consistent.counters, _, accepted, allocator, ran, ?_, rfl⟩
    · rw [decide_eq_false_iff_not, not_lt, checkpoint, length_tableValues]
      exact consistent.bounded
    · exact bne_eq_false_iff_eq.mpr rfl

/-! ## Safety of every run -/

omit consistent in
/-- What is expected of an allocator after some calls: addresses without collisions, leases
within the pools they name, epochs that only grow, calls without effect when they fail, and a
checkpoint that can be restored. -/
structure Safe (digests : EgressDigests Digest) (issued : List (EgressAddressLease Digest))
    (allocator : EgressAllocator Digest) : Prop where
  owners : OwnersExact EgressAddressLease.addresses allocator.leases allocator.addressOwners
  disjoint : ((tableValues allocator.leases).flatMap EgressAddressLease.addresses).Nodup
  pooled : ∀ (owner : EgressIntentOwner) (lease : EgressAddressLease Digest) allocated,
    allocator.leases[owner]? = some lease → lease.pool = some allocated →
      ∃ pool, allocator.pools[allocated.name]? = some pool ∧ pool.uid = allocated.uid ∧
        pool.provider = lease.provider ∧
        ∀ address ∈ lease.addresses, pool.usable address = true
  epochs : (issued.map EgressAddressLease.leaseEpoch).Pairwise (· < ·)
  held : ∀ (owner : EgressIntentOwner) (lease : EgressAddressLease Digest),
    allocator.leases[owner]? = some lease → lease.intent.owner = owner ∧
      ∃ first ∈ issued, Continues first lease
  atomic : ∀ call error after, (perform digests call).run allocator = .error error after →
    after = allocator
  restored : restore digests allocator.checkpoint = .ok allocator

theorem Consistent.pooled
    {allocated : EgressAllocatedPool} (found : allocator.leases[owner]? = some lease)
    (sourced : lease.pool = some allocated) :
    ∃ pool, allocator.pools[allocated.name]? = some pool ∧ pool.uid = allocated.uid ∧
      pool.provider = lease.provider ∧ ∀ address ∈ lease.addresses, pool.usable address = true := by
  have fits := (consistent.sound owner lease found).fits
  rw [LeaseFits] at fits
  split at fits
  next addresses _ =>
    rw [fits.1] at sourced
    cases sourced
  next name families addressesPerFamily _ =>
    obtain ⟨pool, pooled, same, provider, -, usable⟩ := fits
    obtain rfl := Option.some.inj (same.symm.trans sourced)
    refine ⟨pool, ?_, rfl, provider.symm, usable⟩
    rw [consistent.pools.named name pool pooled]
    exact pooled

omit consistent

/-- Whatever the calls were, an allocator is safe exactly while its pools are not too many
and have distinct UIDs. -/
theorem safe_run_iff_pools {pools : List EgressAddressPool} {initial : EgressAllocator Digest}
    (built : new pools = .ok initial) (calls : List (EgressAllocationCall Digest)) :
    Safe digests (issued digests calls initial) (runCalls (perform digests) calls initial) ↔
      (runCalls (perform digests) calls initial).pools.size ≤ maxEgressPools ∧
        ((tableValues (runCalls (perform digests) calls initial).pools).map
          EgressAddressPool.uid).Nodup := by
  have consistent : (runCalls (perform digests) calls initial).Consistent digests :=
    consistent_of_run built calls
  have numbered : Numbered (issued digests calls initial)
      (runCalls (perform digests) calls initial) := numbered_of_run built calls
  rw [← consistent.pools.poolSet_iff, ← consistent.restore_checkpoint_iff]
  constructor
  · exact fun safe => safe.restored
  · intro restored
    exact {
      owners := consistent.owners
      disjoint := consistent.owners.nodup_items fun owner lease found =>
        (consistent.sound owner lease found).ascending.imp ne_of_lt
      pooled := fun owner lease allocated => consistent.pooled
      epochs := numbered.ascending
      held := fun owner lease found =>
        ⟨consistent.owned owner lease found, numbered.held owner lease found⟩
      atomic := fun call error after => perform_atomic call _ error after
      restored := restored }

/-- A pool with eight addresses. -/
def smallPool (name : String) (network : Ipv4Addr) : EgressAddressPool where
  name := name
  uid := "pool-uid"
  provider := ⟨"static", "lab"⟩
  prefixes := [⟨.v4 network, 29⟩]

def webRequest (pool : String) : EgressAllocationRequest Nat where
  intent := {
    owner := ⟨.cluster, "web", "web-uid"⟩
    priority := 1000
    source := ⟨⟨∅, []⟩, ⟨∅, []⟩, ∅⟩
    destinations := .any
    fqdn := none
    internet := none
    addresses := .pool pool [.ipv4] 1 }
  explicitProvider := none
  intentEpoch := 1
  intentRevision := ⟨1⟩

/-- Digests do not enter into an intent for all destinations. -/
def noDigests : EgressDigests Nat where
  fqdnSnapshot _ := 0
  internet := ⟨fun _ => 0, fun _ => 0⟩

/-- The pool of a lease is replaced by another pool with its UID. -/
def renamingCalls : List (EgressAllocationCall Nat) :=
  [.allocate (webRequest "old"), .reconcilePools [smallPool "new" 0xC6336400#32]]

theorem new_smallPool : ∃ initial : EgressAllocator Nat,
    new [smallPool "old" 0xC0000200#32] = .ok initial ∧
      (tableValues (runCalls (perform noDigests) renamingCalls initial).pools).map
        EgressAddressPool.uid = ["pool-uid", "pool-uid"] := by
  refine ⟨_, rfl, ?_⟩
  decide +kernel

theorem safe_run_iff_pools_small : ∃ initial : EgressAllocator Nat,
    new [smallPool "old" 0xC0000200#32] = .ok initial ∧
      (Safe noDigests (issued noDigests [.allocate (webRequest "old")] initial)
          (runCalls (perform noDigests) [.allocate (webRequest "old")] initial) ↔
        (runCalls (perform noDigests) [.allocate (webRequest "old")] initial).pools.size ≤
            maxEgressPools ∧
          ((tableValues (runCalls (perform noDigests) [.allocate (webRequest "old")]
            initial).pools).map EgressAddressPool.uid).Nodup) := by
  obtain ⟨initial, built, -⟩ := new_smallPool
  exact ⟨initial, built, safe_run_iff_pools built _⟩

/-- The old pool is retained for its lease next to the new one, and the checkpoint is lost. -/
theorem renamed_pool_not_restorable : ∃ initial : EgressAllocator Nat,
    new [smallPool "old" 0xC0000200#32] = .ok initial ∧
      ¬Safe noDigests (issued noDigests renamingCalls initial)
        (runCalls (perform noDigests) renamingCalls initial) := by
  obtain ⟨initial, built, uids⟩ := new_smallPool
  have consistent : (runCalls (perform noDigests) renamingCalls initial).Consistent noDigests :=
    consistent_of_run built renamingCalls
  refine ⟨initial, built, fun safe => ?_⟩
  have set := consistent.restore_checkpoint_iff.mp safe.restored
  have distinct := set.uids
  rw [uids] at distinct
  exact absurd distinct (by decide)

end EgressAllocator

end Unf.Egress
