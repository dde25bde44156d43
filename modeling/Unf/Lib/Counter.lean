import Unf.Lib.Order

/-!
# 64-bit counters

Additions on 64-bit counters that report an overflow or stop at the last value.
-/

namespace Unf.Lib

instance orderUInt64 : LinearOrder UInt64 where
  le_refl := UInt64.le_refl
  le_trans _ _ _ := UInt64.le_trans
  lt_iff_le_not_ge left right := by
    simp only [UInt64.le_iff_toNat_le, UInt64.lt_iff_toNat_lt]
    omega
  le_antisymm _ _ := UInt64.le_antisymm
  le_total := UInt64.le_total
  toDecidableLE := inferInstance
  toDecidableEq := inferInstance
  toDecidableLT := inferInstance

/-- The sum of two counters, unless it does not fit. -/
def checkedAdd (left right : UInt64) : Option UInt64 :=
  if left.toNat + right.toNat < 2 ^ 64 then some (left + right) else none

/-- The sum of two counters, or the last value. -/
def saturatingAdd (left right : UInt64) : UInt64 :=
  (checkedAdd left right).getD (UInt64.ofNat (2 ^ 64 - 1))

theorem checkedAdd_eq_some_iff {left right sum : UInt64} :
    checkedAdd left right = some sum ↔ sum.toNat = left.toNat + right.toNat := by
  have bound := sum.toNat_lt
  rw [checkedAdd]
  split
  next fits =>
    rw [Option.some.injEq, ← UInt64.toNat_inj, UInt64.toNat_add, Nat.mod_eq_of_lt fits, eq_comm]
  next overflows =>
    simp only [reduceCtorEq, false_iff]
    omega

theorem checkedAdd_eq_none_iff {left right : UInt64} :
    checkedAdd left right = none ↔ 2 ^ 64 ≤ left.toNat + right.toNat := by
  rw [checkedAdd]
  split <;> simp <;> omega

theorem toNat_saturatingAdd (left right : UInt64) :
    (saturatingAdd left right).toNat = min (left.toNat + right.toNat) (2 ^ 64 - 1) := by
  rw [saturatingAdd]
  cases sum : checkedAdd left right with
  | none =>
    have overflows := checkedAdd_eq_none_iff.mp sum
    rw [Nat.min_eq_right (by omega)]
    rfl
  | some total =>
    have exact := checkedAdd_eq_some_iff.mp sum
    have bound := total.toNat_lt
    rw [Option.getD_some, exact, Nat.min_eq_left (by omega)]

end Unf.Lib
