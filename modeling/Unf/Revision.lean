import Unf.Lib.Counter
import Unf.Service.Snapshot

/-!
# Revisions

Revisions are ordered by their number, and the last one has no successor but itself.
-/

namespace Unf.Service

open Unf.Lib

namespace Revision

theorem get_injective : Function.Injective get := by
  rintro ⟨left⟩ ⟨right⟩ equal
  exact congrArg _ equal

instance : LinearOrder Revision :=
  LinearOrder.lift' get get_injective

theorem le_iff {left right : Revision} : left ≤ right ↔ left.get ≤ right.get :=
  Iff.rfl

/-- The next revision, which is the same one at the end of the range. -/
def next (revision : Revision) : Revision :=
  ⟨saturatingAdd revision.get 1⟩

theorem toNat_next (revision : Revision) :
    revision.next.get.toNat = min (revision.get.toNat + 1) (2 ^ 64 - 1) :=
  toNat_saturatingAdd _ _

theorem le_next (revision : Revision) : revision ≤ revision.next := by
  have bound := revision.get.toNat_lt
  rw [le_iff, UInt64.le_iff_toNat_le, toNat_next]
  omega

/-- Any other revision than the last has a later one. -/
theorem lt_next {revision : Revision} (advances : revision.next ≠ revision) :
    revision < revision.next :=
  lt_of_le_of_ne (le_next revision) advances.symm

theorem next_ne_initial (revision : Revision) : revision.next ≠ initial := by
  intro equal
  have zero := congrArg (fun revision : Revision => revision.get.toNat) equal
  rw [toNat_next] at zero
  change _ = 0 at zero
  omega

end Revision

end Unf.Service
