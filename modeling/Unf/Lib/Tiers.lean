import Mathlib

/-!
# Tables with inheritance

A table with an exact, a wide and a global tier is searched from the most to
the least specific key.  Entries may be left out when they carry no information
of their own: values that need not be kept, and values equal to the one they
inherit.  The search still finds the value of the most specific tier, as long
as keeping a value entails keeping the values that override it.
-/

namespace Unf.Lib

universe u v w

/-- The keys of the three tiers. -/
inductive TierKey (α : Type u) (β : Type v) where
  | global
  | wide (first : α)
  | exact (first : α) (second : β)
  deriving DecidableEq

/-- The values of the three tiers; the global one is always defined. -/
structure Tiers (α : Type u) (β : Type v) (ν : Type w) where
  global : ν
  wide : α → Option ν
  exact : α → β → Option ν

namespace Tiers

variable {α : Type u} {β : Type v} {ν : Type w}

/-- The value of the most specific tier. -/
def resolve (tiers : Tiers α β ν) (first : α) (second : β) : ν :=
  (tiers.exact first second).getD ((tiers.wide first).getD tiers.global)

def value (tiers : Tiers α β ν) : TierKey α β → Option ν
  | .global => some tiers.global
  | .wide first => tiers.wide first
  | .exact first second => tiers.exact first second

/-- The value that a key of the wide or exact tier overrides. -/
def inherited (tiers : Tiers α β ν) : TierKey α β → Option ν
  | .global => none
  | .wide _ => some tiers.global
  | .exact first _ => some ((tiers.wide first).getD tiers.global)

/-- The table of all values to keep. -/
def kept (tiers : Tiers α β ν) (keep : ν → Bool) (key : TierKey α β) : Option ν :=
  (tiers.value key).filter keep

/-- The table of the values to keep that differ from what they inherit. -/
def changed [DecidableEq ν] (tiers : Tiers α β ν) (keep : ν → Bool)
    (key : TierKey α β) : Option ν :=
  (tiers.value key).filter fun value => keep value && tiers.inherited key != some value

/-- Search a table from the most to the least specific key. -/
def search (table : TierKey α β → Option ν) (first : α) (second : β) : Option ν :=
  (table (.exact first second)).or ((table (.wide first)).or (table .global))

/-- Keeping a value entails keeping the values that override it. -/
structure KeepsOverrides (tiers : Tiers α β ν) (keep : ν → Bool) : Prop where
  wide : ∀ first value, tiers.wide first = some value → keep tiers.global = true →
    keep value = true
  exact : ∀ first second value, tiers.exact first second = some value →
    keep ((tiers.wide first).getD tiers.global) = true → keep value = true

variable {keep : ν → Bool} {override : Option ν} {base : ν} {tiers : Tiers α β ν}

variable (overrides : ∀ value, override = some value → keep base = true → keep value = true)

include overrides

/-- One level of overriding, when every value to keep is stored. -/
private theorem override_kept :
    (override.filter keep).or ((some base).filter keep) =
      (some (override.getD base)).filter keep := by
  cases override with
  | none => simp
  | some value =>
    cases keptValue : keep value with
    | true => simp [Option.filter, keptValue]
    | false =>
      have dropped : keep base = false := by
        by_contra keptBase
        simpa [keptValue] using overrides value rfl (by simpa using keptBase)
      simp [Option.filter, dropped]

/-- One level of overriding, when values equal to the base are left out. -/
private theorem override_changed [DecidableEq ν] :
    (override.filter fun value => keep value && some base != some value).or
        ((some base).filter keep) = (some (override.getD base)).filter keep := by
  by_cases same : override = some base
  · simp [same, Option.filter]
  · rw [← override_kept overrides]
    cases override with
    | none => rfl
    | some value =>
      have different : base ≠ value := by
        rintro rfl
        exact same rfl
      simp [Option.filter, different]

omit overrides

theorem search_kept (overrides : tiers.KeepsOverrides keep) (first : α)
    (second : β) : search (tiers.kept keep) first second =
      (some (tiers.resolve first second)).filter keep := by
  rw [resolve, ← override_kept (overrides.exact first second),
    ← override_kept (overrides.wide first)]
  rfl

theorem search_changed [DecidableEq ν] (overrides : tiers.KeepsOverrides keep)
    (first : α) (second : β) : search (tiers.changed keep) first second =
      (some (tiers.resolve first second)).filter keep := by
  rw [resolve, ← override_changed (overrides.exact first second),
    ← override_changed (overrides.wide first)]
  simp [search, changed, value, inherited, Option.filter]

end Tiers

end Unf.Lib
