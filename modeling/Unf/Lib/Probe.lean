import Mathlib

/-!
# Cyclic probing of a table

A probe sequence starts at an offset and advances by a fixed skip modulo the
table size.  When the skip is prime to the size, one cycle of the sequence visits
every slot exactly once.
-/

namespace Unf.Lib

/-- The slot visited after a number of steps. -/
def probeSlot (size offset skip step : Nat) : Nat :=
  (offset + step * skip) % size

theorem probeSlot_lt {size : Nat} (positive : 0 < size) (offset skip step : Nat) :
    probeSlot size offset skip step < size :=
  Nat.mod_lt _ positive

theorem bijOn_probeSlot {size skip : Nat} (positive : 0 < size) (coprime : size.Coprime skip)
    (offset : Nat) : Set.BijOn (probeSlot size offset skip) (Set.Iio size) (Set.Iio size) := by
  refine ((Set.finite_Iio size).injOn_iff_bijOn_of_mapsTo fun step _ =>
    probeSlot_lt positive offset skip step).mp ?_
  intro left leftBound right rightBound same
  have congruent : left * skip ≡ right * skip [MOD size] := Nat.ModEq.add_left_cancel' offset same
  exact (congruent.cancel_right_of_coprime coprime).eq_of_lt_of_lt leftBound rightBound

/-- Every slot of a table of prime size is visited within the first `size` steps. -/
theorem exists_probeSlot_eq {size skip : Nat} (prime : size.Prime)
    (skipPositive : 0 < skip) (skipBound : skip < size) (offset : Nat) {slot : Nat}
    (slotBound : slot < size) : ∃ step < size, probeSlot size offset skip step = slot :=
  (bijOn_probeSlot prime.pos (Nat.coprime_of_lt_prime skipPositive.ne' skipBound prime)
    offset).surjOn slotBound

end Unf.Lib
