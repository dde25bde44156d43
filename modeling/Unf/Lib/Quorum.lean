import Unf.Lib.Order

/-!
# Order statistics

The value that a given number of items reach: the item at a rank of the descending
list exceeds a bound when more than so many items do.
-/

namespace Unf.Lib

open List

universe u v

section Descending

variable {α : Type u} [LinearOrder α] {items : List α} {bound : α} {rank : Nat}

/-- Sort a list in descending order. -/
def sortDescending (items : List α) : List α :=
  items.insertionSort (· ≥ ·)

theorem sortDescending_perm (items : List α) : (sortDescending items).Perm items :=
  perm_insertionSort _ items

theorem sortDescending_sorted (items : List α) : (sortDescending items).Pairwise (· ≥ ·) :=
  pairwise_insertionSort _ items

theorem sortDescending_eq_of_perm {left right : List α} (perm : left.Perm right) :
    sortDescending left = sortDescending right :=
  ((sortDescending_perm left).trans (perm.trans (sortDescending_perm right).symm)).eq_of_pairwise
    (fun _ _ _ _ first second => le_antisymm second first)
    (sortDescending_sorted left) (sortDescending_sorted right)

/-- In a descending list the items above a bound come first. -/
theorem lt_getElem?_iff_of_descending (descending : items.Pairwise (· ≥ ·)) :
    (∃ item, items[rank]? = some item ∧ bound < item) ↔
      rank < (items.filter fun item => bound < item).length := by
  induction items generalizing rank with
  | nil => simp
  | cons first items ih =>
    by_cases above : bound < first
    · rw [filter_cons_of_pos (by simpa using above), length_cons]
      cases rank with
      | zero => simp [above]
      | succ rank =>
        rw [getElem?_cons_succ, ih descending.of_cons]
        omega
    · have none : ∀ item ∈ first :: items, ¬bound < item := by
        intro item member higher
        exact above (higher.trans_le (descending.rel_head member))
      have empty : (first :: items).filter (fun item => decide (bound < item)) = [] := by
        rw [filter_eq_nil_iff]
        intro item member
        simpa using none item member
      rw [empty]
      simp only [length_nil, Nat.not_lt_zero, iff_false, not_exists, not_and]
      exact fun item found => none item (mem_of_getElem? found)

/-- The item at a rank exceeds a bound when more items than the rank do. -/
theorem lt_sortDescending_iff :
    (∃ item, (sortDescending items)[rank]? = some item ∧ bound < item) ↔
      rank < (items.filter fun item => bound < item).length := by
  rw [lt_getElem?_iff_of_descending (sortDescending_sorted items),
    ((sortDescending_perm items).filter _).length_eq]

end Descending

section Owners

variable {α : Type u} {κ : Type v} {items : List α} {owner : α → κ}
  {holds : α → Bool}

/-- Each of several owners with an item of a kind counts for one such item. -/
theorem card_le_length_filter {owners : Finset κ}
    (supported : ∀ key ∈ owners, ∃ item ∈ items, owner item = key ∧ holds item = true) :
    owners.card ≤ (items.filter holds).length := by
  classical
  have contained : owners ⊆ ((items.filter holds).map owner).toFinset := by
    intro key member
    obtain ⟨item, listed, rfl, satisfied⟩ := supported key member
    exact mem_toFinset.mpr (mem_map_of_mem (mem_filter.mpr ⟨listed, satisfied⟩))
  calc owners.card
      _ ≤ ((items.filter holds).map owner).toFinset.card := Finset.card_le_card contained
      _ ≤ ((items.filter holds).map owner).length := toFinset_card_le _
      _ = (items.filter holds).length := length_map _

/-- Where no owner has two items, every item of a kind counts for one owner. -/
theorem exists_owners_of_distinct (distinct : (items.map owner).Nodup) (holds : α → Bool) :
    ∃ owners : Finset κ, owners.card = (items.filter holds).length ∧
      ∀ key ∈ owners, ∃ item ∈ items, owner item = key ∧ holds item = true := by
  classical
  have distinctKept : ((items.filter holds).map owner).Nodup :=
    distinct.sublist (filter_sublist.map owner)
  refine ⟨((items.filter holds).map owner).toFinset, ?_, ?_⟩
  · rw [toFinset_card_of_nodup distinctKept, length_map]
  · intro key member
    obtain ⟨item, kept, rfl⟩ := mem_map.mp (mem_toFinset.mp member)
    obtain ⟨listed, satisfied⟩ := mem_filter.mp kept
    exact ⟨item, listed, rfl, satisfied⟩

end Owners

end Unf.Lib
