import Mathlib

/-!
# Fallible computations

Inversion lemmas for computations in `Except`: what is known when a sequence of
checks, a bind or a loop has returned a result.
-/

namespace Unf.Lib

open List

universe u v w

variable {ε : Type u} {α : Type v} {β : Type v}

/-- Return an error when a condition holds. -/
def failIf (condition : Bool) (error : ε) : Except ε PUnit.{v + 1} :=
  if condition then .error error else .ok ⟨⟩

variable {condition : Bool} {error : ε} {continuation : α → Except ε β} {failure : ε}
  {function : α → Except ε β} {body : β → α → Except ε β} {initial : β} {convert : α → Except ε β}

@[simp] theorem failIf_eq_ok {result : PUnit} :
    failIf condition error = .ok result ↔ condition = false := by
  cases condition <;> simp [failIf]

@[simp] theorem ok_bind (value : α) (continuation : α → Except ε β) :
    ((.ok value : Except ε α) >>= continuation) = continuation value := rfl

theorem pure_eq_ok {value result : α} : (pure value : Except ε α) = .ok result ↔ value = result :=
  Except.ok.injEq value result ▸ Iff.rfl

variable {result : β} {computation : Except ε α} {items : List α} {results : List β}
  {holds ofResult : β → Prop} {ofItem : α → Prop} {γ : Type w} {item : α}

theorem bind_eq_ok : (computation >>= continuation) = .ok result ↔
      ∃ value, computation = .ok value ∧ continuation value = .ok result := by
  cases computation <;> simp [bind, Except.bind]

@[simp] theorem failIf_bind_eq_ok {continuation : PUnit → Except ε β} :
    (failIf condition error >>= continuation) = .ok result ↔
      condition = false ∧ continuation ⟨⟩ = .ok result := by
  cases condition <;> simp [failIf, bind, Except.bind]

@[simp] theorem mapError_eq_ok {ε' : Type u} {convert : ε → ε'} {result : α} :
    computation.mapError convert = .ok result ↔ computation = .ok result := by
  cases computation <;> simp [Except.mapError]

theorem exists_of_map_eq_ok {convert : α → β} (computed : computation.map convert = .ok result) :
    ∃ value, computation = .ok value ∧ convert value = result := by
  cases computation with
  | error => cases computed
  | ok value => exact ⟨value, rfl, Except.ok.inj computed⟩

/-- A missing value reported as an error. -/
theorem elim_error_eq_ok {value : Option α} {result : α} :
    value.elim (.error error) .ok = (.ok result : Except ε α) ↔ value = some result := by
  cases value <;> simp

/-- The rules that read off a computation what its checks have established. -/
theorem eq_ok_iffs :
    (∀ {ε α β : Type} {first : Except ε α} {next : α → Except ε β} {result : β},
      (first >>= next) = .ok result ↔ ∃ value, first = .ok value ∧ next value = .ok result) ∧
    (∀ {ε : Type} {condition : Bool} {error : ε} {result : PUnit.{1}},
      failIf condition error = .ok result ↔ condition = false) ∧
    (∀ {ε α : Type} {value result : α}, (pure value : Except ε α) = .ok result ↔ value = result) ∧
    (∀ {ε ε' α : Type} {computation : Except ε α} {convert : ε → ε'} {result : α},
      computation.mapError convert = .ok result ↔ computation = .ok result) ∧
    (∀ {ε α : Type} {value : Option α} {error : ε} {result : α},
      value.elim (.error error) .ok = (.ok result : Except ε α) ↔ value = some result) ∧
    ∀ {holds : PUnit.{1} → Prop}, (∃ value, holds value) ↔ holds ⟨⟩ :=
  ⟨bind_eq_ok, failIf_eq_ok, pure_eq_ok, mapError_eq_ok, elim_error_eq_ok, Unique.exists_iff⟩

/-- The rules that read off a check that it has not found anything. -/
theorem eq_false_iffs :
    (∀ left right : Bool, (left || right) = false ↔ left = false ∧ right = false) ∧
    (∀ value : Bool, (!value) = false ↔ value = true) ∧
    (∀ (holds : Prop) [Decidable holds], decide holds = false ↔ ¬holds) ∧
    (∀ {α : Type} [BEq α] [LawfulBEq α] {left right : α}, (left == right) = false ↔ left ≠ right) ∧
    (∀ {α : Type} [BEq α] [LawfulBEq α] {left right : α}, (left != right) = false ↔ left = right) ∧
    (∀ {α : Type} {items : List α}, items.isEmpty = false ↔ items ≠ []) ∧
    ∀ {α : Type} [LinearOrder α] {left right : α}, ¬left < right ↔ right ≤ left :=
  ⟨by simp, by simp, fun _ _ => decide_eq_false_iff_not, beq_eq_false_iff_ne, bne_eq_false_iff_eq,
    isEmpty_eq_false_iff, not_lt⟩

theorem exists_ok_of_isSome (done : computation.toOption.isSome = true) :
    ∃ result, computation = .ok result := by
  cases computation with
  | error => cases done
  | ok result => exact ⟨result, rfl⟩

theorem exists_ok_of_any {property : α → Prop} [DecidablePred property]
    (done : (computation.toOption.any fun result => property result) = true) :
    ∃ result, computation = .ok result ∧ property result := by
  cases computation with
  | error => cases done
  | ok result => exact ⟨result, rfl, of_decide_eq_true done⟩

theorem failIf_eq_error : (failIf condition error : Except ε PUnit.{v + 1}) = .error failure ↔
      condition = true ∧ failure = error := by
  cases condition <;> simp [failIf, eq_comm]

theorem bind_eq_error : (computation >>= continuation) = .error failure ↔
      computation = .error failure ∨
        ∃ value, computation = .ok value ∧ continuation value = .error failure := by
  cases computation <;> simp [bind, Except.bind]

/-! ## Loops -/

theorem mapM_cons_eq_ok {head : α} {tail : List α} {result : List β} :
    (head :: tail).mapM function = .ok result ↔
      ∃ value values, function head = .ok value ∧ tail.mapM function = .ok values ∧
        result = value :: values := by
  simp only [mapM_cons, bind_eq_ok, pure_eq_ok, exists_and_left, eq_comm (a := result)]

/-- A property that every round of a loop preserves holds of its result. -/
theorem foldlM_invariant (initially : holds initial)
    (step : ∀ item ∈ items, ∀ before after, holds before →
      body before item = .ok after → holds after)
    (computed : items.foldlM body initial = .ok result) : holds result := by
  induction items generalizing initial with
  | nil =>
    rw [← Except.ok.inj computed]
    exact initially
  | cons item rest ih =>
    rw [foldlM_cons, bind_eq_ok] at computed
    obtain ⟨middle, bodyComputed, restComputed⟩ := computed
    exact ih (step item mem_cons_self initial middle initially
      bodyComputed) (fun other member => step other (mem_cons_of_mem _ member))
      restComputed

/-- A loop that checks each item and appends what it makes of it. -/
theorem eq_map_of_foldlM_append {body : List β → α → Except ε (List β)} {convert : α → β}
    (step : ∀ before item after, body before item = .ok after → after = before ++ [convert item])
    (computed : items.foldlM body [] = .ok results) : results = items.map convert := by
  induction items using List.reverseRecOn generalizing results with
  | nil => exact (Except.ok.inj computed).symm
  | append_singleton items last ih =>
    rw [foldlM_append, bind_eq_ok] at computed
    obtain ⟨before, earlierComputed, lastComputed⟩ := computed
    rw [foldlM_cons, bind_eq_ok] at lastComputed
    obtain ⟨after, appended, done⟩ := lastComputed
    obtain rfl : after = results := Except.ok.inj done
    rw [step _ _ _ appended, ih earlierComputed, map_append, map_singleton]

/-- What holds of some element that a loop appends, in terms of the items it
runs over. -/
theorem exists_mem_foldlM_iff {body : List β → α → Except ε (List β)} {initial : List β}
    (step : ∀ item ∈ items, ∀ before after, body before item = .ok after →
      ∃ appended, after = before ++ appended ∧
        ((∃ result ∈ appended, ofResult result) ↔ ofItem item))
    (computed : items.foldlM body initial = .ok results) :
    ∃ appended, results = initial ++ appended ∧
      ((∃ result ∈ appended, ofResult result) ↔ ∃ item ∈ items, ofItem item) := by
  induction items generalizing initial with
  | nil =>
    refine ⟨[], ?_, by simp⟩
    rw [append_nil]
    exact (Except.ok.inj computed).symm
  | cons item rest ih =>
    rw [foldlM_cons, bind_eq_ok] at computed
    obtain ⟨middle, bodyComputed, restComputed⟩ := computed
    obtain ⟨first, rfl, firstIff⟩ := step item mem_cons_self initial middle bodyComputed
    obtain ⟨second, rfl, secondIff⟩ := ih
      (fun other member => step other (mem_cons_of_mem _ member)) restComputed
    refine ⟨first ++ second, append_assoc _ _ _, ?_⟩
    rw [exists_mem_cons_iff, ← firstIff, ← secondIff]
    simp only [mem_append, or_and_right, exists_or]

/-- A call that appends to a list exactly the elements of `added`. -/
def Appends (call : List β → Except ε (List β)) (added : β → Prop) : Prop :=
  ∀ before after, call before = .ok after →
    ∀ element, element ∈ after ↔ element ∈ before ∨ added element

/-- A loop of such calls appends what each of its rounds adds. -/
theorem Appends.foldlM {body : List β → α → Except ε (List β)} {added : α → β → Prop}
    (step : ∀ item ∈ items, Appends (fun before => body before item) (added item)) :
    Appends (fun before => items.foldlM body before)
      fun element => ∃ item ∈ items, added item element := by
  intro before after computed element
  dsimp only at computed ⊢
  induction items generalizing before with
  | nil =>
    rw [← Except.ok.inj computed]
    simp
  | cons item rest ih =>
    rw [foldlM_cons, bind_eq_ok] at computed
    obtain ⟨middle, bodyComputed, restComputed⟩ := computed
    rw [ih (fun other member => step other (mem_cons_of_mem _ member)) middle restComputed,
      step item mem_cons_self before middle bodyComputed, exists_mem_cons_iff, or_assoc]

/-- What holds of every item after those before it, item by item. -/
theorem forall_split_cons {first : α} {holds : List α → α → Prop} :
    (∀ before item rest, first :: items = before ++ item :: rest → holds before item) ↔
      holds [] first ∧
        ∀ before item rest, items = before ++ item :: rest → holds (first :: before) item := by
  constructor
  · intro all
    exact ⟨all [] first items rfl, fun before item rest split =>
      all (first :: before) item rest (by rw [split, cons_append])⟩
  · rintro ⟨here, later⟩ before item rest split
    cases before with
    | nil =>
      obtain ⟨rfl, rfl⟩ := List.cons.inj split
      exact here
    | cons earlier before =>
      obtain ⟨rfl, splitRest⟩ := List.cons.inj split
      exact later before item rest splitRest

/-- A loop whose rounds are decided by the state that the earlier rounds have built
succeeds when every round does. -/
theorem foldlM_eq_ok_iff {accepts : β → α → Prop} {advance : β → α → β}
    (step : ∀ state item after, body state item = .ok after ↔
      accepts state item ∧ after = advance state item) : items.foldlM body initial = .ok result ↔
      (∀ before item rest, items = before ++ item :: rest →
        accepts (before.foldl advance initial) item) ∧ result = items.foldl advance initial := by
  induction items generalizing initial with
  | nil => simp [pure, Except.pure, eq_comm]
  | cons first items ih =>
    rw [foldlM_cons, bind_eq_ok, forall_split_cons]
    simp only [step, ih]
    constructor
    · rintro ⟨middle, ⟨accepted, rfl⟩, acceptedRest, rfl⟩
      exact ⟨⟨accepted, acceptedRest⟩, rfl⟩
    · rintro ⟨⟨accepted, acceptedRest⟩, rfl⟩
      exact ⟨_, ⟨accepted, rfl⟩, acceptedRest, rfl⟩

/-- A loop whose rounds run an inner loop over what the item expands to. -/
theorem foldlM_flatMap_eq_ok {expand : α → List γ} {admissible : α → Prop}
    {outer : β → α → Except ε β} {inner : β → γ → Except ε β}
    (step : ∀ state item after, outer state item = .ok after ↔
      admissible item ∧ (expand item).foldlM inner state = .ok after) :
    items.foldlM outer initial = .ok result ↔ (∀ item ∈ items, admissible item) ∧
        (items.flatMap expand).foldlM inner initial = .ok result := by
  induction items generalizing initial with
  | nil => simp
  | cons first items ih =>
    rw [foldlM_cons, bind_eq_ok, flatMap_cons, foldlM_append, bind_eq_ok, forall_mem_cons]
    simp only [step, ih]
    constructor
    · rintro ⟨middle, ⟨firstAdmissible, firstDone⟩, restAdmissible, restDone⟩
      exact ⟨⟨firstAdmissible, restAdmissible⟩, middle, firstDone, restDone⟩
    · rintro ⟨⟨firstAdmissible, restAdmissible⟩, middle, firstDone, restDone⟩
      exact ⟨middle, ⟨firstAdmissible, firstDone⟩, restAdmissible, restDone⟩

theorem forM_eq_ok_iff {body : α → Except ε PUnit} {result : PUnit} :
    items.forM body = .ok result ↔ ∀ item ∈ items, body item = .ok ⟨⟩ := by
  induction items with
  | nil => simp [pure, Except.pure]
  | cons first items ih =>
    rw [List.forM, bind_eq_ok, forall_mem_cons, ih]
    constructor
    · rintro ⟨⟨⟩, firstDone, restDone⟩
      exact ⟨firstDone, restDone⟩
    · rintro ⟨firstDone, restDone⟩
      exact ⟨⟨⟩, firstDone, restDone⟩

/-- A loop whose rounds first convert the item is a loop over the converted items. -/
theorem foldlM_mapM_eq_ok {γ : Type v} {convert : α → Except ε γ} {body : β → γ → Except ε β} :
    items.foldlM (fun state item => convert item >>= body state) initial = .ok result ↔
      ∃ converted, items.mapM convert = .ok converted ∧
        converted.foldlM body initial = .ok result := by
  induction items generalizing initial with
  | nil => simp [pure, Except.pure]
  | cons first items ih =>
    rw [foldlM_cons]
    simp only [bind_eq_ok, ih, mapM_cons_eq_ok]
    constructor
    · rintro ⟨middle, ⟨value, converted, advanced⟩, values, restConverted, computed⟩
      refine ⟨value :: values, ⟨value, values, converted, restConverted, rfl⟩, ?_⟩
      rw [foldlM_cons, bind_eq_ok]
      exact ⟨middle, advanced, computed⟩
    · rintro ⟨_, ⟨value, values, converted, restConverted, rfl⟩, computed⟩
      rw [foldlM_cons, bind_eq_ok] at computed
      obtain ⟨middle, advanced, computed⟩ := computed
      exact ⟨middle, ⟨value, converted, advanced⟩, values, restConverted, computed⟩

theorem mapM_eq_ok_iff : items.mapM convert = .ok results ↔
      List.Forall₂ (fun item result => convert item = .ok result) items results := by
  induction items generalizing results with
  | nil =>
    cases results <;> simp [pure, Except.pure]
  | cons first items ih =>
    rw [mapM_cons_eq_ok, forall₂_cons_left_iff]
    simp only [ih]

theorem exists_mem_of_forall₂ {relates : α → γ → Prop} {others : List γ}
    (related : List.Forall₂ relates items others) (member : item ∈ items) :
    ∃ other ∈ others, relates item other := by
  induction related with
  | nil => cases member
  | cons first _ ih =>
    rcases mem_cons.mp member with rfl | later
    · exact ⟨_, mem_cons_self, first⟩
    · obtain ⟨other, listed, holds⟩ := ih later
      exact ⟨other, mem_cons_of_mem _ listed, holds⟩

theorem exists_mem_of_mem_mapM (computed : items.mapM convert = .ok results)
    (member : result ∈ results) : ∃ item ∈ items, convert item = .ok result :=
  exists_mem_of_forall₂ (mapM_eq_ok_iff.mp computed).flip member

theorem exists_mem_mapM_of_mem (computed : items.mapM convert = .ok results)
    (member : item ∈ items) : ∃ result ∈ results, convert item = .ok result :=
  exists_mem_of_forall₂ (mapM_eq_ok_iff.mp computed) member

/-- What holds of some result of a fallible map, in terms of its inputs. -/
theorem exists_mem_mapM_iff
    (step : ∀ item ∈ items, ∀ result, function item = .ok result → (ofResult result ↔ ofItem item))
    (computed : items.mapM function = .ok results) :
    (∃ result ∈ results, ofResult result) ↔ ∃ item ∈ items, ofItem item := by
  constructor
  · rintro ⟨result, listed, holds⟩
    obtain ⟨item, member, converted⟩ := exists_mem_of_mem_mapM computed listed
    exact ⟨item, member, (step item member result converted).mp holds⟩
  · rintro ⟨item, member, holds⟩
    obtain ⟨result, listed, converted⟩ := exists_mem_mapM_of_mem computed member
    exact ⟨result, listed, (step item member result converted).mpr holds⟩

theorem forall_mem_mapM (step : ∀ item ∈ items, ∀ result, function item = .ok result → holds result)
    (computed : items.mapM function = .ok results) : ∀ result ∈ results, holds result := by
  intro result listed
  obtain ⟨item, member, converted⟩ := exists_mem_of_mem_mapM computed listed
  exact step item member result converted

/-- What a loop fails with is what one of its rounds fails with. -/
theorem exists_foldlM_eq_error (failed : items.foldlM body initial = .error failure) :
    ∃ item ∈ items, ∃ before, body before item = .error failure := by
  induction items generalizing initial with
  | nil => simp [pure, Except.pure] at failed
  | cons item rest ih =>
    rw [foldlM_cons, bind_eq_error] at failed
    rcases failed with first | ⟨middle, -, restFailed⟩
    · exact ⟨item, mem_cons_self, initial, first⟩
    · obtain ⟨other, member, before, otherFailed⟩ := ih restFailed
      exact ⟨other, mem_cons_of_mem _ member, before, otherFailed⟩

theorem exists_forM_eq_error {body : α → Except ε PUnit}
    (failed : items.forM body = .error failure) : ∃ item ∈ items, body item = .error failure := by
  induction items with
  | nil => simp [pure, Except.pure] at failed
  | cons item rest ih =>
    rw [List.forM, bind_eq_error] at failed
    rcases failed with first | ⟨-, -, restFailed⟩
    · exact ⟨item, mem_cons_self, first⟩
    · obtain ⟨other, member, otherFailed⟩ := ih restFailed
      exact ⟨other, mem_cons_of_mem _ member, otherFailed⟩

/-- Every item with every later one, as two nested loops meet them. -/
def orderedPairs : List α → List (α × α)
  | [] => []
  | first :: rest => rest.map (Prod.mk first) ++ orderedPairs rest

theorem forall_mem_orderedPairs_iff {relates : α → α → Prop} :
    (∀ pair ∈ orderedPairs items, relates pair.1 pair.2) ↔ items.Pairwise relates := by
  induction items with
  | nil => simp [orderedPairs]
  | cons first items ih =>
    rw [orderedPairs, forall_mem_append, ih, pairwise_cons, forall_mem_map]

/-- What holds of every item and its predecessors, item by item and pair by pair. -/
theorem forall_split_iff {accepts : α → Prop} {admits : α → α → Prop} :
    (∀ before item rest, items = before ++ item :: rest →
        accepts item ∧ ∀ earlier ∈ before, admits earlier item) ↔
      (∀ item ∈ items, accepts item) ∧ items.Pairwise admits := by
  induction items generalizing accepts with
  | nil => simp
  | cons first items ih =>
    have later := @ih fun item => accepts item ∧ admits first item
    have both : (∀ item ∈ items, accepts item ∧ admits first item) ↔ _ := forall₂_and
    simp only [both, and_assoc] at later
    simp only [forall_split_cons, forall_mem_cons, later, pairwise_cons,
      not_mem_nil, false_implies, implies_true, and_true, and_assoc]

end Unf.Lib
