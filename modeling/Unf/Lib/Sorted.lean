import Unf.Lib.Except
import Unf.Lib.Order

/-!
# Searching and comparing sorted lists

The first match in a sorted list is the least one, and sorting what is already
sorted changes nothing.
-/

namespace Unf.Lib

open List

universe u v

/-- What one item only satisfies, no two items satisfy. -/
theorem eq_of_countP_eq_one {α : Type u} {holds : α → Bool} {items : List α}
    (once : items.countP holds = 1) {left right : α} (leftMember : left ∈ items)
    (rightMember : right ∈ items) (leftHolds : holds left = true)
    (rightHolds : holds right = true) : left = right := by
  rw [countP_eq_length_filter, length_eq_one_iff] at once
  obtain ⟨only, filtered⟩ := once
  have isOnly {item : α} (member : item ∈ items) (itemHolds : holds item = true) :
      item = only := by
    rw [← mem_singleton, ← filtered]
    exact mem_filter.mpr ⟨member, itemHolds⟩
  rw [isOnly leftMember leftHolds, isOnly rightMember rightHolds]

section Ascending

variable {α : Type u} [LinearOrder α] {items : List α}

/-- The first match of a search through a sorted list is the least one. -/
theorem find?_sort_eq_some_iff {holds : α → Bool} {found : α} :
    (sort items).find? holds = some found ↔
      found ∈ items ∧ holds found = true ∧ ∀ item ∈ items, holds item = true → found ≤ item := by
  suffices search : ∀ sorted : List α, sorted.Pairwise (· ≤ ·) →
      (sorted.find? holds = some found ↔ found ∈ sorted ∧ holds found = true ∧
        ∀ item ∈ sorted, holds item = true → found ≤ item) by
    simpa only [mem_sort] using search (sort items) (sort_sorted items)
  intro sorted
  induction sorted with
  | nil => simp
  | cons first rest ih =>
    intro ascending
    by_cases here : holds first = true
    · rw [find?_cons_of_pos here, Option.some.injEq]
      constructor
      · rintro rfl
        exact ⟨mem_cons_self, here, fun item member _ => ascending.rel_head member⟩
      · rintro ⟨member, -, least⟩
        exact le_antisymm (ascending.rel_head member) (least first mem_cons_self here)
    · rw [find?_cons_of_neg here, ih ascending.of_cons]
      simp only [mem_cons, forall_eq_or_imp, here, Bool.false_eq_true, false_imp_iff, true_and]
      constructor
      · rintro ⟨member, holdsFound, least⟩
        exact ⟨.inr member, holdsFound, least⟩
      · rintro ⟨rfl | member, holdsFound, least⟩
        · exact absurd holdsFound here
        · exact ⟨member, holdsFound, least⟩

/-- Bringing items into a canonical form that sorting does not disturb, twice. -/
theorem sort_map_sort_map {canonical : α → α}
    (idempotent : ∀ item, canonical (canonical item) = canonical item) (items : List α) :
    sort ((sort (items.map canonical)).map canonical) = sort (items.map canonical) := by
  apply sort_eq_of_perm
  have again := (sort_perm (items.map canonical)).map canonical
  rwa [map_map, Function.comp_def, funext idempotent] at again

/-- What a canonical form keeps of the items is only reordered by sorting. -/
theorem map_sort_map_perm {β : Type v} (kept : α → β) (canonical : α → α)
    (same : ∀ item, kept (canonical item) = kept item) (items : List α) :
    ((sort (items.map canonical)).map kept).Perm (items.map kept) := by
  have perm := (sort_perm (items.map canonical)).map kept
  rwa [map_map, Function.comp_def, funext same] at perm

theorem perm_of_sort_eq {left right : List α} (same : sort left = sort right) : left.Perm right :=
  (sort_perm left).symm.trans (same ▸ sort_perm right)

theorem sort_eq_self (ascending : items.Pairwise (· < ·)) : sort items = items :=
  eq_of_perm_of_sorted (sort_perm items) (sort_sorted items) (ascending.imp le_of_lt)

theorem sortDedup_eq_self (ascending : items.Pairwise (· < ·)) : sortDedup items = items :=
  eq_of_perm_of_sorted (sortDedup_perm_of_nodup (ascending.imp ne_of_lt))
    ((sortDedup_sorted items).imp le_of_lt) (ascending.imp le_of_lt)

theorem sort_ascending (distinct : items.Nodup) : (sort items).Pairwise (· < ·) :=
  ((sort_sorted items).and (nodup_sort.mpr distinct)).imp fun ordered =>
    lt_of_le_of_ne ordered.1 ordered.2

end Ascending

/-- Each of several distinct items repeated as often. -/
theorem count_flatMap_replicate {β : Type u} [BEq β] [LawfulBEq β] {items : List β}
    (distinct : items.Nodup) (times : Nat) {item : β} (member : item ∈ items) :
    (items.flatMap (List.replicate times)).count item = times := by
  have absent {rest : List β} (unlisted : item ∉ rest) :
      (rest.flatMap (List.replicate times)).count item = 0 := by
    refine count_eq_zero_of_not_mem fun repeated => unlisted ?_
    obtain ⟨other, listed, inside⟩ := mem_flatMap.mp repeated
    rwa [eq_of_mem_replicate inside]
  induction items with
  | nil => cases member
  | cons first items ih =>
    rw [nodup_cons] at distinct
    rw [flatMap_cons, count_append]
    rcases mem_cons.mp member with rfl | later
    · rw [count_replicate_self, absent distinct.1, Nat.add_zero]
    · have different : first ≠ item := fun same => distinct.1 (same ▸ later)
      rw [count_replicate, beq_false_of_ne different, ih distinct.2 later]
      exact Nat.zero_add times

section StableSort

variable {α : Type u} {κ : Type v} [LinearOrder κ]

@[simp] theorem sortByKey_sortByKey (key : α → κ) (items : List α) :
    sortByKey key (sortByKey key items) = sortByKey key items :=
  sortByKey_congr key fun value => sortByKey_filter key items value

/-- Sorting commutes with a change of the items that keeps their keys. -/
theorem sortByKey_map {key : α → κ} {change : α → α}
    (sameKey : ∀ item, key (change item) = key item) (items : List α) :
    sortByKey key (items.map change) = (sortByKey key items).map change := by
  refine (map_insertionSort _ (fun left right => key left ≤ key right) change items
    fun left _ right _ => ?_).symm
  rw [sameKey, sameKey]

end StableSort

section DistinctKeys

variable {α : Type u} {κ : Type v} [LinearOrder κ]

/-- Sorting by distinct keys does not depend on the order of the items. -/
theorem sortByKey_eq_of_perm (key : α → κ) {left right : List α} (perm : left.Perm right)
    (distinct : (left.map key).Nodup) : sortByKey key left = sortByKey key right :=
  sortByKey_congr key fun value => filter_eq_of_perm key perm distinct value

end DistinctKeys

/-! ## Equality up to the order of the items -/

section UpToOrder

variable {α : Type u} {κ : Type v} {same : α → α → Prop} {canonical : α → α}

/-- The same items up to a relation, in any order. -/
def UpToOrder (same : α → α → Prop) : List α → List α → Prop :=
  Relation.Comp List.Perm (List.Forall₂ same)

variable {left right : List α} {item : α} {items sorted : List α} {β : Type v}

theorem UpToOrder.exists_mem (related : UpToOrder same left right)
    (member : item ∈ left) : ∃ other ∈ right, same item other := by
  obtain ⟨middle, perm, paired⟩ := related
  exact exists_mem_of_forall₂ paired (perm.mem_iff.mp member)

/-- Both sides may be reordered further. -/
theorem UpToOrder.of_perm {left' right' : List α} (leftPerm : left'.Perm left)
    (related : UpToOrder same left right) (rightPerm : right.Perm right') :
    UpToOrder same left' right' := by
  obtain ⟨middle, perm, paired⟩ := related
  have swapped : Relation.Comp (List.Forall₂ same) List.Perm middle right' :=
    ⟨right, paired, rightPerm⟩
  rw [forall₂_comp_perm_eq_perm_comp_forall₂] at swapped
  obtain ⟨middle', middlePerm, paired'⟩ := swapped
  exact ⟨middle', leftPerm.trans (perm.trans middlePerm), paired'⟩

/-- Items and their canonical forms in any order are the same up to order. -/
theorem upToOrder_of_perm (perm : sorted.Perm (items.map canonical))
    (kept : ∀ item ∈ items, same item (canonical item)) : UpToOrder same items sorted := by
  have related : List.Forall₂ same items (items.map canonical) := by
    rw [forall₂_map_right_iff, forall₂_same]
    exact kept
  rw [UpToOrder, ← forall₂_comp_perm_eq_perm_comp_forall₂]
  exact ⟨items.map canonical, related, perm.symm⟩

/-- Distinct keys match every item with its own canonical form. -/
theorem UpToOrder.same_canonical {key : α → κ}
    (related : UpToOrder same items sorted) (perm : sorted.Perm (items.map canonical))
    (sameKey : ∀ left right, same left right → key left = key right)
    (canonicalKey : ∀ item, key (canonical item) = key item)
    (distinct : (items.map key).Nodup) : ∀ item ∈ items, same item (canonical item) := by
  intro item member
  obtain ⟨_, otherMember, holds⟩ := related.exists_mem member
  obtain ⟨other, original, rfl⟩ := mem_map.mp (perm.mem_iff.mp otherMember)
  have keys : key item = key other := (sameKey _ _ holds).trans (canonicalKey other)
  obtain rfl := inj_on_of_nodup_map distinct member original keys
  exact holds

variable (related : UpToOrder same left right)

include related

/-- What items expand to, up to order. -/
theorem UpToOrder.flatMap_perm {expand expand' : α → List β}
    (step : ∀ first second, same first second → (expand first).Perm (expand' second)) :
    (left.flatMap expand).Perm (right.flatMap expand') := by
  obtain ⟨middle, perm, paired⟩ := related
  refine (perm.flatMap_right expand).trans ?_
  clear perm
  induction paired with
  | nil => exact .refl _
  | cons first _ ih =>
    exact (step _ _ first).append ih

theorem UpToOrder.filter {holds : α → Bool}
    (agree : ∀ first second, same first second → holds first = holds second) :
    UpToOrder same (left.filter holds) (right.filter holds) := by
  obtain ⟨middle, perm, paired⟩ := related
  refine ⟨middle.filter holds, perm.filter holds, ?_⟩
  clear perm
  induction paired with
  | nil => exact .nil
  | @cons first second _ _ firstSame _ ih =>
    rw [filter_cons, filter_cons, agree first second firstSame]
    split
    · exact .cons firstSame ih
    · exact ih

theorem UpToOrder.map_perm {function function' : α → β}
    (step : ∀ first second, same first second → function first = function' second) :
    (left.map function).Perm (right.map function') := by
  rw [map_eq_flatMap, map_eq_flatMap]
  exact related.flatMap_perm fun first second holds => by rw [step first second holds]

theorem UpToOrder.and_mem :
    UpToOrder (fun first second => first ∈ left ∧ same first second) left right := by
  obtain ⟨middle, perm, paired⟩ := related
  refine ⟨middle, perm, ?_⟩
  have contained : ∀ item ∈ middle, item ∈ left := fun item => perm.mem_iff.mpr
  clear perm
  induction paired with
  | nil => exact .nil
  | cons first _ ih =>
    exact .cons ⟨contained _ mem_cons_self, first⟩ (ih
      fun item member => contained item (mem_cons_of_mem _ member))

theorem UpToOrder.exists_mem_left (member : item ∈ right) : ∃ other ∈ left, same other item := by
  obtain ⟨middle, perm, paired⟩ := related
  obtain ⟨other, otherMember, holds⟩ := exists_mem_of_forall₂ paired.flip member
  exact ⟨other, perm.mem_iff.mpr otherMember, holds⟩

end UpToOrder

end Unf.Lib
