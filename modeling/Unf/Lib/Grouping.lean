import Unf.Lib.OrderedMap

/-!
# Grouping values by key

Values appended to the group of their key, and the best item of a list.
-/

namespace Unf.Lib

open List Option

open Std (ExtTreeMap)

universe u v

section Groups

variable {κ : Type u} {ν : Type v} [LinearOrder κ]

/-- One more value at the end of the group of its key. -/
def pushValue (groups : ExtTreeMap κ (List ν)) (entry : κ × ν) : ExtTreeMap κ (List ν) :=
  groups.insert entry.1 (groups[entry.1]?.getD [] ++ [entry.2])

/-- The groups of a list of values with their keys. -/
def groupEntries (entries : List (κ × ν)) : ExtTreeMap κ (List ν) :=
  entries.foldl pushValue ∅

/-- The values that are listed under a key. -/
def valuesAt (entries : List (κ × ν)) (key : κ) : List ν :=
  (entries.filter fun entry => entry.1 = key).map Prod.snd

variable {entries : List (κ × ν)} {key : κ}

theorem mem_valuesAt {value : ν} :
    value ∈ valuesAt entries key ↔ (key, value) ∈ entries := by
  simp [valuesAt]

/-- A group has the values of its key, in the order in which they came. -/
theorem getElem?_groupEntries (entries : List (κ × ν)) (key : κ) : (groupEntries entries)[key]? =
      if valuesAt entries key = [] then none else some (valuesAt entries key) := by
  induction entries using List.reverseRecOn with
  | nil => simp [groupEntries, valuesAt]
  | append_singleton entries last ih =>
    rw [groupEntries, foldl_append, foldl_cons, foldl_nil, ← groupEntries,
      pushValue, getElem?_map_insert]
    have listed : valuesAt (entries ++ [last]) key =
        valuesAt entries key ++ if last.1 = key then [last.2] else [] := by
      by_cases here : last.1 = key <;> simp [valuesAt, here]
    by_cases here : last.1 = key
    · rw [listed, if_pos here, here, ih]
      split
      next empty => simp [empty]
      next => simp
    · rw [if_neg here, listed, if_neg here, append_nil, ih]

theorem getElem?_groupEntries_eq_some_iff {values : List ν} :
    (groupEntries entries)[key]? = some values ↔ values = valuesAt entries key ∧ values ≠ [] := by
  rw [getElem?_groupEntries]
  split
  next empty =>
    simp only [reduceCtorEq, empty, false_iff, not_and, not_not]
    exact id
  next nonempty =>
    rw [some.injEq, eq_comm]
    constructor
    · rintro rfl
      exact ⟨rfl, nonempty⟩
    · exact And.left

/-- Sorting the groups of reordered entries gives the same groups. -/
theorem sort_groupEntries_eq_of_perm [LinearOrder ν] {left right : List (κ × ν)}
    (perm : left.Perm right) :
    (groupEntries left).map (fun _ => sort) = (groupEntries right).map fun _ => sort := by
  apply ExtTreeMap.ext_getElem?
  intro key
  have same : (valuesAt left key).Perm (valuesAt right key) := (perm.filter _).map _
  rw [ExtTreeMap.getElem?_map, ExtTreeMap.getElem?_map, getElem?_groupEntries,
    getElem?_groupEntries]
  simp only [← List.isEmpty_iff, same.isEmpty_eq]
  split
  · rfl
  · rw [map_some, map_some, sort_eq_of_perm same]

end Groups

section Best

variable {α : Type u} {κ : Type v} [LinearOrder κ]

/-- The better of the best item so far and the next one, which wins a tie. -/
def keepLarger (rank : α → κ) (best : Option α) (item : α) : Option α :=
  match best with
  | none => some item
  | some current => if rank item < rank current then best else some item

/-- The last of the items with the largest rank. -/
def maxByKey (rank : α → κ) (items : List α) : Option α :=
  items.foldl (keepLarger rank) none

theorem maxByKey_append_singleton (rank : α → κ) (items : List α) (last : α) :
    maxByKey rank (items ++ [last]) = keepLarger rank (maxByKey rank items) last := by
  rw [maxByKey, foldl_append, foldl_cons, foldl_nil, ← maxByKey]

variable {items : List α} {rank : α → κ}

theorem maxByKey_eq_none_iff : maxByKey rank items = none ↔ items = [] := by
  induction items using List.reverseRecOn with
  | nil => simp [maxByKey]
  | append_singleton items last ih =>
    rw [maxByKey_append_singleton]
    cases maxByKey rank items <;> simp only [keepLarger]
    next => simp
    next => split <;> simp

/-- The best item is one of the items, and no item has a larger rank. -/
theorem maxByKey_spec {best : α} (found : maxByKey rank items = some best) :
    best ∈ items ∧ ∀ item ∈ items, rank item ≤ rank best := by
  induction items using List.reverseRecOn generalizing best with
  | nil => simp [maxByKey] at found
  | append_singleton items last ih =>
    rw [maxByKey_append_singleton, keepLarger.eq_def] at found
    cases earlier : maxByKey rank items with
    | none =>
      rw [earlier] at found
      obtain rfl := some.inj found
      rw [maxByKey_eq_none_iff] at earlier
      simp [earlier]
    | some current =>
      rw [earlier] at found
      obtain ⟨member, greatest⟩ := ih earlier
      dsimp only at found
      split at found
      next smaller =>
        obtain rfl := some.inj found
        refine ⟨mem_append_left _ member, fun item listed => ?_⟩
        rcases mem_append.mp listed with listed | listed
        · exact greatest item listed
        · rw [mem_singleton.mp listed]
          exact smaller.le
      next notSmaller =>
        obtain rfl := some.inj found
        refine ⟨by simp, fun item listed => ?_⟩
        rcases mem_append.mp listed with listed | listed
        · exact (greatest item listed).trans (not_lt.mp notSmaller)
        · rw [mem_singleton.mp listed]

/-- Some item is large when the best one is. -/
theorem exists_mem_iff_maxByKey (rank : α → κ) (large : α → Prop)
    (upward : ∀ left ∈ items, ∀ right ∈ items, rank left ≤ rank right → large left → large right) :
    (∃ item ∈ items, large item) ↔ ∃ best, maxByKey rank items = some best ∧ large best := by
  constructor
  · rintro ⟨item, member, isLarge⟩
    cases found : maxByKey rank items with
    | none =>
      rw [maxByKey_eq_none_iff.mp found] at member
      cases member
    | some best =>
      obtain ⟨bestMember, greatest⟩ := maxByKey_spec found
      exact ⟨best, rfl, upward item member best bestMember (greatest item member) isLarge⟩
  · rintro ⟨best, found, isLarge⟩
    exact ⟨best, (maxByKey_spec found).1, isLarge⟩

end Best

section StrictlyAscending

variable {α : Type u} [LinearOrder α]

/-- Every item is smaller than the next one. -/
def strictlyAscending : List α → Bool
  | first :: second :: rest => decide (first < second) && strictlyAscending (second :: rest)
  | _ => true

theorem strictlyAscending_iff {items : List α} :
    strictlyAscending items = true ↔ items.Pairwise (· < ·) := by
  rw [← isChain_iff_pairwise]
  induction items with
  | nil => simp [strictlyAscending]
  | cons first items ih =>
    cases items with
    | nil => simp [strictlyAscending]
    | cons second rest =>
      rw [strictlyAscending, Bool.and_eq_true, ih, decide_eq_true_eq, isChain_cons_cons]

end StrictlyAscending

/-- Some item is related to the next one. -/
def anyAdjacent {α : Type u} (relates : α → α → Bool) : List α → Bool
  | first :: second :: rest => relates first second || anyAdjacent relates (second :: rest)
  | _ => false

end Unf.Lib
