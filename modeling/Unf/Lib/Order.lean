import Mathlib

/-!
# Orders, running minima and stable sorting

Rust compares fixed-width integers numerically, derives the order of a record
lexicographically, and sorts with a stable algorithm.  This module supplies the
linear orders of the fixed-width carriers, the running minimum that a loop
keeps while it scans its candidates, and the extensional description of a
stable sort by key.
-/

namespace Unf.Lib

open List

universe u v

instance orderUInt8 : LinearOrder UInt8 where
  le_refl := UInt8.le_refl
  le_trans _ _ _ := UInt8.le_trans
  lt_iff_le_not_ge left right := by
    simp only [UInt8.le_iff_toNat_le, UInt8.lt_iff_toNat_lt]
    omega
  le_antisymm _ _ := UInt8.le_antisymm
  le_total := UInt8.le_total
  toDecidableLE := inferInstance
  toDecidableEq := inferInstance
  toDecidableLT := inferInstance

instance orderUInt16 : LinearOrder UInt16 where
  le_refl := UInt16.le_refl
  le_trans _ _ _ := UInt16.le_trans
  lt_iff_le_not_ge left right := by
    simp only [UInt16.le_iff_toNat_le, UInt16.lt_iff_toNat_lt]
    omega
  le_antisymm _ _ := UInt16.le_antisymm
  le_total := UInt16.le_total
  toDecidableLE := inferInstance
  toDecidableEq := inferInstance
  toDecidableLT := inferInstance

instance orderUInt32 : LinearOrder UInt32 where
  le_refl := UInt32.le_refl
  le_trans _ _ _ := UInt32.le_trans
  lt_iff_le_not_ge left right := by
    simp only [UInt32.le_iff_toNat_le, UInt32.lt_iff_toNat_lt]
    omega
  le_antisymm _ _ := UInt32.le_antisymm
  le_total := UInt32.le_total
  toDecidableLE := inferInstance
  toDecidableEq := inferInstance
  toDecidableLT := inferInstance

instance orderBitVec (width : Nat) : LinearOrder (BitVec width) where
  le_refl := BitVec.le_refl
  le_trans _ _ _ := BitVec.le_trans
  lt_iff_le_not_ge left right := by
    simp only [BitVec.le_def, BitVec.lt_def]
    omega
  le_antisymm left right leftLe rightLe := by
    apply BitVec.eq_of_toNat_eq
    exact Nat.le_antisymm leftLe rightLe
  le_total left right := Nat.le_total left.toNat right.toNat
  toDecidableLE := inferInstance
  toDecidableEq := inferInstance
  toDecidableLT := inferInstance

/-- The comparison of a linear order decides equality, so it can key an ordered
map or set. -/
instance lawfulEqCmp_of_linearOrder {α : Type u} [LinearOrder α] :
    Std.LawfulEqCmp (compare : α → α → Ordering) where
  compare_self := compare_eq_iff_eq.mpr rfl
  eq_of_compare := compare_eq_iff_eq.mp

/-! Maps carry the transitivity of their keys' comparison in their terms. -/

instance transCmp_of_linearOrder {α : Type u} [LinearOrder α] :
    Std.TransCmp (compare : α → α → Ordering) :=
  inferInstance

instance transOrd_lex {α β : Type*} [LinearOrder α] [LinearOrder β] :
    Std.TransOrd (α ×ₗ β) :=
  inferInstance

instance transOrd_lex_lex {α β γ : Type*} [LinearOrder α] [LinearOrder β] [LinearOrder γ] :
    Std.TransOrd (α ×ₗ β ×ₗ γ) :=
  inferInstance

/-- Missing values come before present ones. -/
def noneFirst {α : Type u} (value : Option α) : WithBot α := value

@[simp] theorem noneFirst_inj {α : Type u} {left right : Option α} :
    noneFirst left = noneFirst right ↔ left = right :=
  Iff.rfl

/-! ## Running minima -/

section RunningMinimum

variable {α : Type u} {κ : Type v} [LinearOrder κ]

/-- One step of a running minimum: a candidate replaces the current best only
when it is strictly smaller, so the earliest of several equal candidates is
kept. -/
def keepSmaller (rank : α → κ) (best : Option α) (candidate : α) : Option α :=
  match best with
  | none => some candidate
  | some current => if rank candidate < rank current then some candidate else best

/-- The candidate kept by scanning a whole list. -/
def runningMin (rank : α → κ) (candidates : List α) : Option α :=
  candidates.foldl (keepSmaller rank) none

variable (rank : α → κ)

/-- The running minimum is the first of the least candidates. -/
theorem runningMin_eq_argmin (candidates : List α) :
    runningMin rank candidates = candidates.argmin rank := by
  rw [runningMin]
  congr 1
  funext best candidate
  cases best <;> rfl

@[simp] theorem runningMin_eq_none_iff (candidates : List α) :
    runningMin rank candidates = none ↔ candidates = [] := by
  rw [runningMin_eq_argmin, argmin_eq_none]

variable {candidates : List α} {kept : α}

theorem mem_of_runningMin (found : runningMin rank candidates = some kept) : kept ∈ candidates := by
  rw [runningMin_eq_argmin] at found
  exact argmin_mem found

theorem runningMin_le (found : runningMin rank candidates = some kept) {candidate : α}
    (member : candidate ∈ candidates) : rank kept ≤ rank candidate := by
  rw [runningMin_eq_argmin] at found
  exact le_of_mem_argmin member found

/-- When the rank separates the candidates, the scan is characterized by
membership and minimality, with no reference to the scanning order. -/
theorem runningMin_eq_some_iff
    (separates : ∀ left ∈ candidates, ∀ right ∈ candidates, rank left = rank right → left = right) :
    runningMin rank candidates = some kept ↔
      kept ∈ candidates ∧ ∀ candidate ∈ candidates, rank kept ≤ rank candidate := by
  constructor
  · intro found
    exact ⟨mem_of_runningMin rank found, fun _ => runningMin_le rank found⟩
  · rintro ⟨member, least⟩
    cases found : runningMin rank candidates with
    | none => exact absurd ((runningMin_eq_none_iff rank _).mp found) (ne_nil_of_mem member)
    | some other =>
      have otherMember := mem_of_runningMin rank found
      rw [separates other otherMember kept member
        (le_antisymm (runningMin_le rank found member) (least other otherMember))]

/-- Two scans over the same set of candidates keep the same candidate. -/
theorem runningMin_congr {left right : List α}
    (separates : ∀ first ∈ left, ∀ second ∈ left, rank first = rank second → first = second)
    (same : ∀ candidate, candidate ∈ left ↔ candidate ∈ right) :
    runningMin rank left = runningMin rank right := by
  have separatesRight : ∀ first ∈ right, ∀ second ∈ right,
      rank first = rank second → first = second := by
    intro first firstMember second secondMember
    exact separates first ((same first).2 firstMember) second ((same second).2 secondMember)
  apply Option.ext
  intro kept
  rw [runningMin_eq_some_iff rank separates, runningMin_eq_some_iff rank separatesRight]
  simp only [same]

/-- A scan over the images of items keeps the image of the item that a scan
over the items keeps, when both orders agree on them. -/
theorem runningMin_map {β : Type u} {ν : Type v} [LinearOrder ν] (key : β → ν) (function : β → α)
    {items : List β} (agree : ∀ left ∈ items, ∀ right ∈ items,
      rank (function left) < rank (function right) ↔ key left < key right) :
    runningMin rank (items.map function) = (runningMin key items).map function := by
  suffices scan : ∀ rest : List β, (∀ item ∈ rest, item ∈ items) → ∀ best : Option β,
      (∀ item ∈ best, item ∈ items) →
      (rest.map function).foldl (keepSmaller rank) (best.map function) =
        (rest.foldl (keepSmaller key) best).map function by
    exact scan items (fun _ member => member) none (by simp)
  intro rest
  induction rest with
  | nil => exact fun _ _ _ => rfl
  | cons item rest ih =>
    intro contained best bestContained
    have itemMember := contained item mem_cons_self
    have restContained : ∀ other ∈ rest, other ∈ items :=
      fun other member => contained other (mem_cons_of_mem _ member)
    have step : keepSmaller rank (best.map function) (function item) =
        (keepSmaller key best item).map function := by
      cases best with
      | none => rfl
      | some current =>
        simp only [Option.map_some, keepSmaller,
          agree item itemMember current (bestContained current rfl)]
        split <;> rfl
    rw [map_cons, foldl_cons, step]
    apply ih restContained
    intro other kept
    cases best with
    | none =>
      obtain rfl : item = other := by simpa [keepSmaller] using kept
      exact itemMember
    | some current =>
      simp only [keepSmaller] at kept
      split at kept
      · obtain rfl : item = other := by simpa using kept
        exact itemMember
      · exact bestContained other kept

end RunningMinimum

/-! ## Stable sorting by key -/

section StableSort

variable {α : Type u} {κ : Type v} [LinearOrder κ]

variable (key : α → κ) (items : List α) {left right : List α}

/-- Stable sort of a list by a key. -/
def sortByKey : List α :=
  items.insertionSort fun left right => key left ≤ key right

@[simp] theorem mem_sortByKey {items : List α} {item : α} :
    item ∈ sortByKey key items ↔ item ∈ items :=
  mem_insertionSort _

theorem sortByKey_perm : (sortByKey key items).Perm items :=
  perm_insertionSort _ items

private instance keyLe_total (key : α → κ) :
    Std.Total fun left right : α => key left ≤ key right :=
  ⟨fun left right => le_total (key left) (key right)⟩

private instance keyLe_trans (key : α → κ) :
    IsTrans α fun left right => key left ≤ key right :=
  ⟨fun _ _ _ => le_trans⟩

theorem sortByKey_sorted : (sortByKey key items).Pairwise fun left right => key left ≤ key right :=
  pairwise_insertionSort _ items

/-- Stability: the items that share one key keep their relative order. -/
theorem sortByKey_filter (value : κ) :
    (sortByKey key items).filter (fun item => key item = value) =
      items.filter fun item => key item = value := by
  have kept : (items.filter fun item => key item = value).Sublist (sortByKey key items) := by
    apply sublist_insertionSort
    · apply pairwise_of_forall_mem_list
      intro left leftMember right rightMember
      simp only [mem_filter, decide_eq_true_eq] at leftMember rightMember
      exact (leftMember.2.trans rightMember.2.symm).le
    · exact filter_sublist
  have filtered := kept.filter fun item => decide (key item = value)
  rw [filter_filter] at filtered
  simp only [Bool.and_self] at filtered
  exact (filtered.eq_of_length ((sortByKey_perm key items).filter _).length_eq.symm).symm

/-- A list sorted by key is determined by the sublists of its key classes. -/
theorem eq_of_filter_key_eq (leftSorted : left.Pairwise fun first second => key first ≤ key second)
    (rightSorted : right.Pairwise fun first second => key first ≤ key second)
    (same : ∀ value, left.filter (fun item => key item = value) =
      right.filter fun item => key item = value) : left = right := by
  induction left generalizing right with
  | nil =>
    cases right with
    | nil => rfl
    | cons item rest =>
      have := same (key item)
      simp at this
  | cons first leftRest ih =>
    cases right with
    | nil =>
      have := same (key first)
      simp at this
    | cons second rightRest =>
      have firstMember : first ∈ second :: rightRest := by
        have member : first ∈ (first :: leftRest).filter fun item => key item = key first := by simp
        rw [same] at member
        exact mem_of_mem_filter member
      have secondMember : second ∈ first :: leftRest := by
        have member : second ∈ (second :: rightRest).filter fun item => key item = key second := by
          simp
        rw [← same] at member
        exact mem_of_mem_filter member
      have keysEqual : key first = key second :=
        le_antisymm (leftSorted.rel_head_of_rel_head_head secondMember (le_refl _))
          (rightSorted.rel_head_of_rel_head_head firstMember (le_refl _))
      have headsEqual : first = second := by
        have := same (key first)
        simp only [filter_cons, keysEqual, decide_true, if_true, List.cons.injEq] at this
        exact this.1
      subst headsEqual
      congr 1
      apply ih leftSorted.of_cons rightSorted.of_cons
      intro value
      have := same value
      by_cases matching : key first = value
      · simpa [filter_cons, matching] using this
      · simpa [filter_cons, matching] using this

/-- A stable sort only sees the order within each key class. -/
theorem sortByKey_congr [keyEq : DecidableEq κ] (key : α → κ)
    (same : ∀ value, left.filter (fun item => key item = value) =
      right.filter fun item => key item = value) : sortByKey key left = sortByKey key right := by
  obtain rfl : keyEq = LinearOrder.toDecidableEq := Subsingleton.elim _ _
  apply eq_of_filter_key_eq key (sortByKey_sorted key left) (sortByKey_sorted key right)
  intro value
  rw [sortByKey_filter, sortByKey_filter, same]

end StableSort

section DistinctKeys

variable {α : Type u} {κ : Type v}

/-- Permuted lists with distinct keys agree on the items of one key. -/
theorem filter_eq_of_perm [DecidableEq κ] (key : α → κ)
    {left right : List α} (perm : left.Perm right) (distinct : (left.map key).Nodup) (value : κ) :
    left.filter (fun item => key item = value) = right.filter fun item => key item = value := by
  -- no two items of a list with distinct keys have this one
  have alone {items : List α} (distinct : (items.map key).Nodup) :
      (items.filter fun item => key item = value).Pairwise fun _ _ => False := by
    rw [pairwise_filter]
    refine (pairwise_map.mp distinct).imp fun different first second => different ?_
    rw [of_decide_eq_true first, of_decide_eq_true second]
  exact (perm.filter _).eq_of_pairwise (fun _ _ _ _ impossible => impossible.elim)
    (alone distinct) (alone ((perm.map key).nodup_iff.mp distinct))

end DistinctKeys

/-! ## Sorted lists without repetitions -/

section SortedDistinct

variable {α : Type u} [LinearOrder α]

/-- Sort a list and remove adjacent repetitions. -/
def sortDedup (items : List α) : List α :=
  (items.insertionSort (· ≤ ·)).destutter (· ≠ ·)

theorem mem_destutter_ne (first item : α) (items : List α) :
    item ∈ List.destutter' (· ≠ ·) first items ↔ item = first ∨ item ∈ items := by
  induction items generalizing first with
  | nil => simp
  | cons next rest ih =>
    by_cases different : first ≠ next
    · rw [destutter'_cons_pos _ different, mem_cons, ih, mem_cons]
    · rw [destutter'_cons_neg _ different, ih, mem_cons, not_not.mp different]
      tauto

variable {items : List α}

@[simp] theorem mem_sortDedup {item : α} : item ∈ sortDedup items ↔ item ∈ items := by
  have sameMembers : item ∈ items.insertionSort (· ≤ ·) ↔ item ∈ items := mem_insertionSort _
  rw [← sameMembers, sortDedup]
  cases items.insertionSort (· ≤ ·) with
  | nil => rfl
  | cons first rest =>
    change item ∈ List.destutter' _ first rest ↔ _
    rw [mem_destutter_ne, mem_cons]

/-- A sorted list whose neighbours differ is strictly ascending. -/
theorem pairwise_lt_of_isChain_ne (ordered : items.Pairwise (· ≤ ·))
    (different : items.IsChain (· ≠ ·)) : items.Pairwise (· < ·) := by
  rw [isChain_iff_forall_rel_of_append_cons_cons] at different
  have increasing : items.IsChain (· < ·) := by
    rw [isChain_iff_forall_rel_of_append_cons_cons]
    intro left right before after split
    rw [split] at ordered
    have le := rel_of_pairwise_cons (pairwise_append.mp ordered).2.1
      mem_cons_self
    exact lt_of_le_of_ne le (different split)
  exact increasing.pairwise

theorem sortDedup_sorted (items : List α) : (sortDedup items).Pairwise (· < ·) :=
  pairwise_lt_of_isChain_ne ((pairwise_insertionSort _ items).sublist (destutter_sublist _ _))
    (isChain_destutter _ _)

/-- Nothing is removed from exactly the lists without repetitions. -/
theorem length_sortDedup_eq_iff (items : List α) :
    (sortDedup items).length = items.length ↔ items.Nodup := by
  have perm := perm_insertionSort (· ≤ ·) items
  have ordered : (items.insertionSort (· ≤ ·)).Pairwise (· ≤ ·) := pairwise_insertionSort _ _
  rw [← perm.nodup_iff, ← perm.length_eq, sortDedup]
  constructor
  · intro sameLength
    have unchanged := (destutter_sublist _ _).eq_of_length sameLength
    rw [destutter_eq_self_iff] at unchanged
    exact (pairwise_lt_of_isChain_ne ordered unchanged).imp ne_of_lt
  · intro distinct
    rw [(destutter_eq_self_iff _ _).mpr]
    exact distinct.isChain

theorem sortDedup_perm_of_nodup (distinct : items.Nodup) : (sortDedup items).Perm items := by
  have subset : (sortDedup items).Subperm items :=
    (destutter_sublist _ _).subperm.trans (perm_insertionSort _ _).subperm
  exact subset.perm_of_length_le ((length_sortDedup_eq_iff items).mpr distinct).ge

theorem sortDedup_sortDedup (items : List α) : sortDedup (sortDedup items) = sortDedup items := by
  have strict := sortDedup_sorted items
  have again := sortDedup_perm_of_nodup (strict.imp ne_of_lt)
  exact again.eq_of_pairwise (fun _ _ _ _ => le_antisymm)
    ((sortDedup_sorted _).imp le_of_lt) (strict.imp le_of_lt)

/-- The sorted distinct form is a reordering of exactly the lists without
repetitions. -/
theorem perm_sortDedup_iff : items.Perm (sortDedup items) ↔ items.Nodup := by
  constructor
  · intro perm
    exact (length_sortDedup_eq_iff items).mp perm.length_eq.symm
  · intro distinct
    exact (sortDedup_perm_of_nodup distinct).symm

/-- The sorted distinct form does not depend on the order of the items. -/
theorem sortDedup_perm {left right : List α} (perm : left.Perm right) :
    sortDedup left = sortDedup right := by
  have sorted : left.insertionSort (· ≤ ·) = right.insertionSort (· ≤ ·) := by
    apply List.Perm.eq_of_pairwise' (pairwise_insertionSort _ _) (pairwise_insertionSort _ _)
    exact (perm_insertionSort _ _).trans (perm.trans (perm_insertionSort _ _).symm)
  rw [sortDedup, sortDedup, sorted]

end SortedDistinct

/-! ## Sorting by the order of the items -/

section Ascending

variable {α : Type u} [LinearOrder α]

/-- Sort a list in ascending order. -/
def sort (items : List α) : List α :=
  items.insertionSort (· ≤ ·)

theorem sort_perm (items : List α) : (sort items).Perm items :=
  perm_insertionSort _ items

theorem sort_sorted (items : List α) : (sort items).Pairwise (· ≤ ·) :=
  pairwise_insertionSort _ items

variable {items : List α} {left right : List α}

@[simp] theorem mem_sort {item : α} : item ∈ sort items ↔ item ∈ items :=
  (sort_perm items).mem_iff

@[simp] theorem length_sort (items : List α) : (sort items).length = items.length :=
  (sort_perm items).length_eq

@[simp] theorem nodup_sort : (sort items).Nodup ↔ items.Nodup :=
  (sort_perm items).nodup_iff

/-- A sorted list is determined by its items. -/
theorem eq_of_perm_of_sorted (perm : left.Perm right)
    (leftSorted : left.Pairwise (· ≤ ·)) (rightSorted : right.Pairwise (· ≤ ·)) : left = right :=
  perm.eq_of_pairwise (fun _ _ _ _ => le_antisymm) leftSorted rightSorted

theorem sort_eq_of_perm (perm : left.Perm right) : sort left = sort right :=
  eq_of_perm_of_sorted ((sort_perm left).trans (perm.trans (sort_perm right).symm))
    (sort_sorted left) (sort_sorted right)

@[simp] theorem sort_sort (items : List α) : sort (sort items) = sort items :=
  sort_eq_of_perm (sort_perm items)

/-- Two neighbours of a list are the same. -/
def hasAdjacentRepeat : List α → Bool
  | first :: second :: rest => first == second || hasAdjacentRepeat (second :: rest)
  | _ => false

/-- In a sorted list equal items are neighbours. -/
theorem hasAdjacentRepeat_eq_false_iff (sorted : items.Pairwise (· ≤ ·)) :
    hasAdjacentRepeat items = false ↔ items.Nodup := by
  induction items with
  | nil => simp [hasAdjacentRepeat]
  | cons first rest ih =>
    cases rest with
    | nil => simp [hasAdjacentRepeat]
    | cons second rest =>
      obtain ⟨firstLeast, restSorted⟩ := pairwise_cons.mp sorted
      rw [hasAdjacentRepeat, Bool.or_eq_false_iff, ih restSorted, nodup_cons (a := first)]
      apply and_congr_left
      intro _
      rw [beq_eq_false_iff_ne]
      constructor
      · intro different member
        have least : second ≤ first := restSorted.rel_head member
        exact different (le_antisymm (firstLeast second mem_cons_self) least)
      · rintro absent rfl
        exact absent mem_cons_self

theorem hasAdjacentRepeat_sort_eq_false_iff :
    hasAdjacentRepeat (sort items) = false ↔ items.Nodup := by
  rw [hasAdjacentRepeat_eq_false_iff (sort_sorted items), nodup_sort]

end Ascending

end Unf.Lib
