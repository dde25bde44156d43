import Unf.Lib.OrderedMap

/-!
# Steps on a durable state that may fail or be cut short

A process changes a state that outlives it, one step at a time. Every step may fail without an
effect, and the process may be killed right before or right after it; what it has done so far
then stays. How each step goes is an argument of the step, so that a result can speak about all
the ways in which a sequence of steps may go.
-/

namespace Unf.Lib

open Std (ExtTreeMap ExtTreeSet)

/-- How a step goes. -/
inductive Fate (ε : Type) where
  | succeeds
  | fails (error : ε)
  | killedBefore
  | killedAfter
  deriving DecidableEq, Repr

/-- How the write of some bytes goes, which may leave any part of their beginning. -/
inductive WriteFate (ε : Type) where
  | completes
  | fails (written : Nat) (error : ε)
  | killed (written : Nat)
  deriving DecidableEq, Repr

/-- What a sequence of steps comes to, and the state that it leaves. -/
inductive Outcome (σ ε α : Type) where
  | returned (value : α) (state : σ)
  | failed (error : ε) (state : σ)
  | killed (state : σ)
  deriving DecidableEq, Repr

/-- The state that is left. -/
def Outcome.state {σ ε α : Type} : Outcome σ ε α → σ
  | returned _ state => state
  | failed _ state => state
  | killed state => state

/-- A sequence of steps. -/
structure Attempt (σ ε α : Type) where
  run : σ → Outcome σ ε α

namespace Attempt

variable {σ ε α β : Type}

protected def bind (first : Attempt σ ε α) (next : α → Attempt σ ε β) : Attempt σ ε β where
  run state :=
    match first.run state with
    | .returned value after => (next value).run after
    | .failed error after => .failed error after
    | .killed after => .killed after

instance : Monad (Attempt σ ε) where
  pure value := ⟨fun state => .returned value state⟩
  bind := Attempt.bind

/-- A computation that does not look at the state. -/
def ofExcept (computation : Except ε α) : Attempt σ ε α where
  run state :=
    match computation with
    | .ok value => .returned value state
    | .error error => .failed error state

/-- The state, without a step. -/
def look : Attempt σ ε σ where
  run state := .returned state state

def step (fate : Fate ε) (effect : σ → Except ε σ) : Attempt σ ε Unit where
  run state :=
    match fate with
    | .succeeds =>
      match effect state with
      | .ok after => .returned () after
      | .error error => .failed error state
    | .fails error => .failed error state
    | .killedBefore => .killed state
    | .killedAfter => .killed ((effect state).toOption.getD state)

/-- A write, as the effect that its first bytes have. -/
def write (fate : WriteFate ε) (bytes : List UInt8) (effect : List UInt8 → σ → σ) :
    Attempt σ ε Unit where
  run state :=
    match fate with
    | .completes => .returned () (effect bytes state)
    | .fails written error => .failed error (effect (bytes.take written) state)
    | .killed written => .killed (effect (bytes.take written) state)

/-- Steps that clean up after a failure. Their own failure is not reported. -/
def onFailure (steps : Attempt σ ε α) (cleanup : Attempt σ ε Unit) : Attempt σ ε α where
  run state :=
    match steps.run state with
    | .returned value after => .returned value after
    | .killed after => .killed after
    | .failed error after =>
      match cleanup.run after with
      | .returned _ cleaned => .failed error cleaned
      | .failed _ cleaned => .failed error cleaned
      | .killed cleaned => .killed cleaned

/-! ## Results -/

section Results

variable {steps : Attempt σ ε α} {next : α → Attempt σ ε β} {state after : σ} {error : ε}
  {value : α}

theorem look_bind (next : σ → Attempt σ ε β) (state : σ) :
    (look >>= next).run state = (next state).run state :=
  rfl

theorem ofExcept_ok_bind (value : α) (next : α → Attempt σ ε β) (state : σ) :
    (ofExcept (.ok value) >>= next).run state = (next value).run state :=
  rfl

theorem ofExcept_error_bind (error : ε) (next : α → Attempt σ ε β) (state : σ) :
    (ofExcept (.error error) >>= next).run state = .failed error state :=
  rfl

theorem bind_of_returned (ran : steps.run state = .returned value after) :
    (steps >>= next).run state = (next value).run after := by
  change (Attempt.bind steps next).run state = _
  simp only [Attempt.bind, ran]

theorem bind_of_failed (ran : steps.run state = .failed error after) :
    (steps >>= next).run state = .failed error after := by
  change (Attempt.bind steps next).run state = _
  simp only [Attempt.bind, ran]

theorem bind_of_killed (ran : steps.run state = .killed after) :
    (steps >>= next).run state = .killed after := by
  change (Attempt.bind steps next).run state = _
  simp only [Attempt.bind, ran]

variable {cleanup : Attempt σ ε Unit}

theorem onFailure_of_returned (ran : steps.run state = .returned value after) :
    (steps.onFailure cleanup).run state = .returned value after := by
  simp only [onFailure, ran]

theorem onFailure_of_killed (ran : steps.run state = .killed after) :
    (steps.onFailure cleanup).run state = .killed after := by
  simp only [onFailure, ran]

/-- The state after a failure is the one that the clean-up leaves. -/
theorem onFailure_of_failed (ran : steps.run state = .failed error after) :
    ((steps.onFailure cleanup).run state).state = (cleanup.run after).state := by
  simp only [onFailure, ran]
  cases cleanup.run after <;> rfl

/-- The clean-up only depends on how the steps end. -/
theorem onFailure_congr {rest : Attempt σ ε α} (same : steps.run state = rest.run after) :
    (steps.onFailure cleanup).run state = (rest.onFailure cleanup).run after := by
  simp only [onFailure, same]

section Steps

variable {effect : σ → Except ε σ} {bytes : List UInt8} {writes : List UInt8 → σ → σ}

theorem step_of_ok (done : effect state = .ok after) :
    (step .succeeds effect).run state = .returned () after := by
  simp only [step, done]

theorem step_of_error (refused : effect state = .error error) :
    (step .succeeds effect).run state = .failed error state := by
  simp only [step, refused]

theorem step_fails (error : ε) : (step (.fails error) effect).run state = .failed error state :=
  rfl

theorem step_killedBefore : (step .killedBefore effect).run state = .killed state :=
  rfl

theorem step_killedAfter_of_ok (done : effect state = .ok after) :
    (step .killedAfter effect).run state = .killed after := by
  simp only [step, done]
  rfl

theorem write_completes : (write .completes bytes writes : Attempt σ ε Unit).run state =
      .returned () (writes bytes state) :=
  rfl

theorem write_fails (written : Nat) (error : ε) :
    (write (.fails written error) bytes writes).run state =
      .failed error (writes (bytes.take written) state) :=
  rfl

theorem fate_of_returned {fate : Fate ε}
    (ran : (step fate effect).run state = .returned () after) : fate = .succeeds := by
  cases fate with
  | succeeds => rfl
  | fails => cases ran
  | killedBefore => cases ran
  | killedAfter => cases ran

theorem writeFate_of_returned {fate : WriteFate ε}
    (ran : (write fate bytes writes).run state = .returned () after) : fate = .completes := by
  cases fate with
  | completes => rfl
  | fails => cases ran
  | killed => cases ran

end Steps

theorem bind_eq_returned {result : β} (ran : (steps >>= next).run state = .returned result after) :
    ∃ value middle, steps.run state = .returned value middle ∧
      (next value).run middle = .returned result after := by
  cases first : steps.run state with
  | returned value middle =>
    rw [bind_of_returned first] at ran
    exact ⟨value, middle, rfl, ran⟩
  | failed error middle =>
    rw [bind_of_failed first] at ran
    cases ran
  | killed middle =>
    rw [bind_of_killed first] at ran
    cases ran

theorem onFailure_eq_returned (ran : (steps.onFailure cleanup).run state = .returned value after) :
    steps.run state = .returned value after := by
  cases first : steps.run state with
  | returned value middle =>
    rwa [onFailure_of_returned first] at ran
  | killed middle =>
    rw [onFailure_of_killed first] at ran
    cases ran
  | failed error middle =>
    simp only [onFailure, first] at ran
    cases cleaned : cleanup.run middle <;> rw [cleaned] at ran <;> cases ran

end Results

/-! ## Invariants -/

/-- Steps that keep a property, however they end. -/
def Preserves (holds : σ → Prop) (steps : Attempt σ ε α) : Prop :=
  ∀ state, holds state → holds (steps.run state).state

section Invariants

variable {holds : σ → Prop} {steps : Attempt σ ε α}

theorem preserves_step (fate : Fate ε) {effect : σ → Except ε σ}
    (keeps : ∀ state after, holds state → effect state = .ok after → holds after) :
    Preserves holds (step fate effect) := by
  intro state held
  cases fate with
  | fails => exact held
  | killedBefore => exact held
  | succeeds =>
    cases done : effect state with
    | error =>
      rw [step_of_error done]
      exact held
    | ok after =>
      rw [step_of_ok done]
      exact keeps state after held done
  | killedAfter =>
    cases done : effect state with
    | error error =>
      simp only [step, done]
      exact held
    | ok after =>
      rw [step_killedAfter_of_ok done]
      exact keeps state after held done

theorem Preserves.bind {next : α → Attempt σ ε β}
    (first : Preserves holds steps) (rest : ∀ value, Preserves holds (next value)) :
    Preserves holds (steps >>= next) := by
  intro state held
  have kept := first state held
  cases ran : steps.run state with
  | returned value after =>
    rw [ran] at kept
    rw [bind_of_returned ran]
    exact rest value after kept
  | failed error after =>
    rw [ran] at kept
    rw [bind_of_failed ran]
    exact kept
  | killed after =>
    rw [ran] at kept
    rw [bind_of_killed ran]
    exact kept

theorem Preserves.onFailure {cleanup : Attempt σ ε Unit}
    (first : Preserves holds steps) (cleans : Preserves holds cleanup) :
    Preserves holds (steps.onFailure cleanup) := by
  intro state held
  have kept := first state held
  cases ran : steps.run state with
  | returned value after =>
    rw [ran] at kept
    rw [onFailure_of_returned ran]
    exact kept
  | killed after =>
    rw [ran] at kept
    rw [onFailure_of_killed ran]
    exact kept
  | failed error after =>
    rw [ran] at kept
    rw [onFailure_of_failed ran]
    exact cleans after kept

end Invariants

end Attempt

/-! ## Files -/

/-- The errors of a file system that the callers tell apart. -/
inductive FileError where
  | notFound
  | alreadyExists
  | directoryNotEmpty
  | other
  deriving DecidableEq, Repr

/-- The files under their names. -/
abbrev Files (κ : Type) [LinearOrder κ] : Type :=
  ExtTreeMap κ (List UInt8)

namespace Files

variable {κ : Type} [LinearOrder κ]

/-- Create an empty file, which must not exist. -/
def createNew (name : κ) (files : Files κ) : Except FileError (Files κ) :=
  if files.contains name then .error .alreadyExists else .ok (files.insert name [])

/-- Give a file, which must exist, another name, in place of the file that has it. -/
def rename (source target : κ) (files : Files κ) : Except FileError (Files κ) :=
  match files[source]? with
  | none => .error .notFound
  | some contents => .ok ((files.erase source).insert target contents)

def remove (name : κ) (files : Files κ) : Except FileError (Files κ) :=
  if files.contains name then .ok (files.erase name) else .error .notFound

end Files

/-! ## Encodings

Records of strings, numbers, lists and maps can be written as bytes and read back. -/

instance countableChar : Countable Char :=
  Function.Injective.countable fun _ _ same => Char.ext (UInt32.toNat_inj.mp same)

instance countableString : Countable String :=
  Function.Injective.countable fun _ _ => String.toList_inj.mp

instance countableMap {κ ν : Type} [LinearOrder κ] [Countable κ] [Countable ν] :
    Countable (ExtTreeMap κ ν) :=
  toList_map_injective.countable

instance countableSet {κ : Type} [LinearOrder κ] [Countable κ] : Countable (ExtTreeSet κ) :=
  toList_set_injective.countable

theorem exists_encoding (α : Type) [Countable α] (ending : List UInt8) :
    ∃ (encode : α → List UInt8) (decode : List UInt8 → Option α),
      ∀ value, decode (encode value ++ ending) = some value := by
  obtain ⟨number, injective⟩ := Countable.exists_injective_nat α
  have separate : Function.Injective fun value =>
      List.replicate (number value) (0 : UInt8) ++ ending := by
    intro left right same
    have lengths := congrArg List.length same
    simp only [List.length_append, List.length_replicate] at lengths
    exact injective (Nat.add_right_cancel lengths)
  exact ⟨_, Function.partialInv _, Function.partialInv_left separate⟩

end Unf.Lib
