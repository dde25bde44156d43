import Unf.Policy.Lowering

/-!
# Addresses outside the longer prefixes

The search for an address of a prefix that no excluded prefix covers, with the arithmetic
of the source checked: it ends without an overflow, and finds an address whenever there
is one.
-/

namespace Unf.Policy

open Unf.Lib

/-- The halves of a prefix, unless their length or the network of the upper one
overflows. -/
def checkedHalves (cidr : Ipv6Cidr) : Option (List Ipv6Cidr) :=
  if cidr.prefixLen + 1 ≤ 128 ∧
      cidr.network.toNat + 2 ^ (128 - (cidr.prefixLen + 1)) < 2 ^ 128 then
    some cidr.halves
  else
    none

/-- The search with checked arithmetic and a bound on the depth of the recursion. There is
no result when either is exceeded. -/
def uncoveredChecked : Nat → Ipv6Cidr → List Ipv6Cidr → Option (Option Ipv6Addr)
  | depth, cidr, excluded =>
    if excluded.contains cidr then
      some none
    else if excluded.all fun item => !item.contains cidr.network then
      some (some cidr.network)
    else if cidr.prefixLen = 128 then
      some none
    else
      match depth with
      | 0 => none
      | depth + 1 => do
        (← checkedHalves cidr).findSomeM? fun child =>
          let childExcluded := excluded.filter fun item => child.containsCidr item
          if childExcluded.isEmpty then
            some (some child.network)
          else
            uncoveredChecked depth child childExcluded

variable {cidr : Ipv6Cidr} {excluded : List Ipv6Cidr}

theorem checkedHalves_eq (canonical : cidr.Canonical) (shorter : cidr.prefixLen < 128) :
    checkedHalves cidr = some cidr.halves := by
  refine if_pos ⟨shorter, canonical.toNat_add_lt ?_⟩
  exact Nat.pow_lt_pow_right (by decide) (by omega)

theorem findSomeM?_eq_some {α β : Type} {items : List α} {attempt : α → Option (Option β)}
    {find : α → Option β} (found : ∀ item ∈ items, attempt item = some (find item)) :
    items.findSomeM? attempt = some (items.findSome? find) := by
  induction items with
  | nil => rfl
  | cons first items ih =>
    rw [List.forall_mem_cons] at found
    rw [List.findSomeM?, found.1, List.findSome?_cons]
    cases find first with
    | none => exact ih found.2
    | some value => rfl

theorem uncoveredChecked_of_full (full : cidr.prefixLen = 128) (depth : Nat) :
    uncoveredChecked depth cidr excluded = some (uncoveredIpv6Address cidr excluded) := by
  rw [uncoveredIpv6Address, Cidr.uncovered, full, Cidr.uncoveredFrom]
  cases depth <;> rw [uncoveredChecked] <;> split_ifs <;> rfl

/-- As many levels as the prefix has host bits are enough. -/
theorem uncoveredChecked_eq {depth : Nat} (canonical : cidr.Canonical)
    (enough : 128 - cidr.prefixLen ≤ depth) :
    uncoveredChecked depth cidr excluded = some (uncoveredIpv6Address cidr excluded) := by
  induction depth generalizing cidr excluded with
  | zero => exact uncoveredChecked_of_full (le_antisymm canonical.1 (by omega)) 0
  | succ depth ih =>
    rcases canonical.1.eq_or_lt with full | shorter
    · exact uncoveredChecked_of_full full (depth + 1)
    · obtain ⟨remaining, bits⟩ : ∃ remaining, 128 - cidr.prefixLen = remaining + 1 :=
        ⟨128 - (cidr.prefixLen + 1), by omega⟩
      rw [uncoveredChecked, uncoveredIpv6Address, Cidr.uncovered, bits, Cidr.uncoveredFrom,
        if_neg shorter.ne, checkedHalves_eq canonical shorter]
      split_ifs
      · rfl
      · rfl
      · refine findSomeM?_eq_some fun child member => ?_
        obtain ⟨childCanonical, -⟩ := Cidr.contains_half_network canonical shorter member
        have length := Cidr.halves_prefixLen member
        have depths : 128 - child.prefixLen = remaining := by omega
        dsimp only
        rw [ih childCanonical (by omega), uncoveredIpv6Address, Cidr.uncovered, depths]
        split_ifs <;> rfl

/-- The search ends without an overflow, returns only addresses of the prefix that no
excluded prefix covers, and returns none exactly when there is no such address. -/
theorem uncoveredIpv6Address_correct (cidr : Ipv6Cidr) (canonical : cidr.Canonical)
    (excluded : List Ipv6Cidr) (inside : ∀ item ∈ excluded, item.Canonical ∧
      cidr.containsCidr item = true ∧ item ≠ cidr) :
    uncoveredChecked 128 cidr excluded = some (uncoveredIpv6Address cidr excluded) ∧
    (∀ address, uncoveredIpv6Address cidr excluded = some address →
      cidr.contains address = true ∧ ∀ item ∈ excluded, item.contains address = false) ∧
    (uncoveredIpv6Address cidr excluded = none ↔ ∀ address, cidr.contains address = true →
      ∃ item ∈ excluded, item.contains address = true) := by
  have sound (address : Ipv6Addr) (found : uncoveredIpv6Address cidr excluded = some address) :
      cidr.contains address = true ∧ ∀ item ∈ excluded, item.contains address = false :=
    Cidr.uncoveredFrom_sound rfl canonical (fun item member => (inside item member).2.1) found
  refine ⟨uncoveredChecked_eq canonical (Nat.sub_le 128 _), sound, ?_⟩
  constructor
  · intro absent address contained
    by_contra free
    have found : (uncoveredIpv6Address cidr excluded).isSome = true :=
      Cidr.uncoveredFrom_complete rfl contained (by simpa using free)
    simp [absent] at found
  · intro covered
    by_contra present
    obtain ⟨address, found⟩ := Option.ne_none_iff_exists'.mp present
    obtain ⟨contained, free⟩ := sound address found
    obtain ⟨item, member, covers⟩ := covered address contained
    simp [free item member] at covers

theorem uncoveredIpv6Address_of_half :
    (∀ address, uncoveredIpv6Address ⟨0, 127⟩ [⟨0, 128⟩] = some address →
      Cidr.contains ⟨0, 127⟩ address = true ∧ ∀ item ∈ [(⟨0, 128⟩ : Ipv6Cidr)],
        item.contains address = false) ∧
    uncoveredIpv6Address ⟨0, 127⟩ [⟨0, 128⟩] = some 1 :=
  ⟨(uncoveredIpv6Address_correct ⟨0, 127⟩ ⟨by decide, by decide⟩ [⟨0, 128⟩] (by
    simp only [List.forall_mem_singleton]
    exact ⟨⟨by decide, by decide⟩, by decide, by decide⟩)).2.1, by decide⟩

end Unf.Policy
