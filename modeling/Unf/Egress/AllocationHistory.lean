import Unf.Egress.AllocationRestore

/-!
# Leases and pools over time

A lease epoch stands for one intent and its addresses for as long as the allocator lives, and
a replacement of the pools takes away none that a lease needs.
-/

namespace Unf.Egress.EgressAllocator

open Unf.Lib List

variable {Digest : Type} [DecidableEq Digest] {pools : List EgressAddressPool}
  {initial : EgressAllocator Digest} {digests : EgressDigests Digest}

/-- A pool that a lease has its addresses from. -/
def InUse (allocator : EgressAllocator Digest) (pool : EgressAddressPool) : Prop :=
  ∃ lease ∈ tableValues allocator.leases, ∃ allocated, lease.pool = some allocated ∧
    allocator.pools[allocated.name]? = some pool

theorem Consistent.exists_retained {allocator : EgressAllocator Digest}
    (consistent : allocator.Consistent digests) :
    ∃ retained, (tableValues allocator.leases).foldlM allocator.retainPool ∅ = .ok retained := by
  cases collected : (tableValues allocator.leases).foldlM allocator.retainPool ∅ with
  | ok retained => exact ⟨retained, rfl⟩
  | error failure =>
    obtain ⟨lease, member, before, failed⟩ := exists_foldlM_eq_error collected
    obtain ⟨owner, held⟩ := mem_tableValues.mp member
    have fits := (consistent.sound owner lease held).fits
    rw [LeaseFits] at fits
    split at fits
    next => simp [retainPool, fits.1] at failed
    next =>
      obtain ⟨pool, found, pooled, -⟩ := fits
      rw [← consistent.pools.named _ pool found] at found
      simp [retainPool, pooled, found] at failed

/-- After any run the pools are replaced unless the desired ones are invalid. The pools in use
stay, and a desired pool is added if it is no other version of a pool in use and shares no
address with one of another name. -/
theorem reconcilePools_exact (digests : EgressDigests Digest) (built : new pools = .ok initial)
    (calls : List (EgressAllocationCall Digest)) (raw : List EgressAddressPool) :
    let allocator := runCalls (perform digests) calls initial
    (∀ error, normalizePools raw = .error error →
      (reconcilePools raw).run allocator = .error (.invalidModel error) allocator) ∧
    ∀ desired, normalizePools raw = .ok desired → ∃ next,
      (reconcilePools raw).run allocator =
        .ok (decide (next ≠ allocator.pools)) { allocator with pools := next } ∧
      ∀ (name : String) (pool : EgressAddressPool), next[name]? = some pool ↔
        pool.name = name ∧ (allocator.InUse pool ∨ pool ∈ desired ∧ ∀ current,
          allocator.InUse current → (current.name = pool.name → current = pool) ∧
            (current.name ≠ pool.name → current.Apart pool)) := by
  intro allocator
  refine ⟨fun error invalid => ?_, fun desired normalized => ?_⟩
  · refine run_bind_eq_error.mpr (.inl (run_ofExcept_eq_error.mpr ⟨?_, rfl⟩))
    rw [invalid]
    rfl
  have consistent : allocator.Consistent digests := consistent_of_run built calls
  obtain ⟨retained, collected⟩ := consistent.exists_retained
  refine ⟨nextPools desired retained, ?_, fun name pool => ?_⟩
  · simp only [reconcilePools, run_bind_eq_ok, run_get_eq_ok, run_ofExcept_eq_ok, mapError_eq_ok]
    refine ⟨desired, _, ⟨normalized, rfl⟩, _, _, ⟨rfl, rfl⟩, retained, _, ⟨collected, rfl⟩, ?_⟩
    split
    next same => simp [same]
    next different => simp [different]
  · have used (pool : EgressAddressPool) : pool ∈ retained ↔ allocator.InUse pool := by
      rw [foldlM_retainPool collected]
      simp [InUse]
    rw [getElem?_nextPools (canonical_of_normalizePools normalized).1.names
      (consistent.pools.retained_unique collected)]
    simp only [used, admissible_iff]

theorem reconcilePools_exact_small : ∃ initial : EgressAllocator Nat,
    new [smallPool "old" 0xC0000200#32] = .ok initial ∧ ∃ changed replaced,
      (reconcilePools [smallPool "new" 0xC6336400#32]).run
        (runCalls (perform noDigests) [.allocate (webRequest "old")] initial) =
        .ok changed replaced := by
  obtain ⟨initial, built, -⟩ := new_smallPool
  obtain ⟨next, ran, -⟩ := (reconcilePools_exact noDigests built
    [.allocate (webRequest "old")] [smallPool "new" 0xC6336400#32]).2 _ rfl
  exact ⟨initial, built, _, _, ran⟩

end Unf.Egress.EgressAllocator
