import Unf.Lib.Except

/-!
# Calls that change a state and may fail

A call runs on a state and leaves one behind, whether it returns a result or an error.
The module has the inversion rules for sequences of steps, the rules for calls that leave
the state alone when they fail, and the states that a sequence of calls goes through.
-/

namespace Unf.Lib

universe u

variable {ε σ α β : Type u}

/-! ## Results of a sequence of steps -/

section Results

variable {call : EStateM ε σ α} {next : α → EStateM ε σ β} {state after : σ}

theorem run_bind_eq_ok {result : β} : (call >>= next).run state = .ok result after ↔
      ∃ value middle, call.run state = .ok value middle ∧
        (next value).run middle = .ok result after := by
  change EStateM.bind call next state = _ ↔ _
  rw [EStateM.bind]
  cases ran : call state with
  | ok value middle => simp [EStateM.run, ran]
  | error error middle => simp [EStateM.run, ran]

variable {error : ε} {computation : Except ε α} {value result : α} {change : σ → σ}

theorem run_bind_eq_error : (call >>= next).run state = .error error after ↔
      call.run state = .error error after ∨ ∃ value middle, call.run state = .ok value middle ∧
          (next value).run middle = .error error after := by
  change EStateM.bind call next state = _ ↔ _
  rw [EStateM.bind]
  cases ran : call state with
  | ok value middle => simp [EStateM.run, ran]
  | error failure middle => simp [EStateM.run, ran]

@[simp] theorem run_pure_eq_ok :
    (pure value : EStateM ε σ α).run state = .ok result after ↔ result = value ∧ after = state := by
  simp [eq_comm]

@[simp] theorem run_pure_ne_error :
    (pure value : EStateM ε σ α).run state ≠ .error error after := by
  intro failed
  cases failed

@[simp] theorem run_get_eq_ok {result : σ} :
    (get : EStateM ε σ σ).run state = .ok result after ↔ result = state ∧ after = state := by
  simp [eq_comm]

@[simp] theorem run_get_ne_error : (get : EStateM ε σ σ).run state ≠ .error error after := by
  intro failed
  cases failed

@[simp] theorem run_modify_eq_ok {result : PUnit} :
    (modify change : EStateM ε σ PUnit).run state = .ok result after ↔ after = change state := by
  simp [eq_comm]

@[simp] theorem run_modify_ne_error :
    (modify change : EStateM ε σ PUnit).run state ≠ .error error after := by
  intro failed
  cases failed

@[simp] theorem run_ofExcept_eq_ok :
    (MonadExcept.ofExcept computation : EStateM ε σ α).run state = .ok result after ↔
      computation = .ok result ∧ after = state := by
  cases computation with
  | ok value =>
    change EStateM.Result.ok value state = _ ↔ _
    simp [eq_comm]
  | error error =>
    change EStateM.Result.error error state = _ ↔ _
    simp

@[simp] theorem run_ofExcept_eq_error :
    (MonadExcept.ofExcept computation : EStateM ε σ α).run state = .error error after ↔
      computation = .error error ∧ after = state := by
  cases computation with
  | ok value =>
    change EStateM.Result.ok value state = _ ↔ _
    simp
  | error failure =>
    change EStateM.Result.error failure state = _ ↔ _
    simp [eq_comm]

end Results

/-! ## Failures without effect -/

/-- The call leaves the state as it was when it fails. -/
def Atomic (call : EStateM ε σ α) : Prop :=
  ∀ state error after, call.run state = .error error after → after = state

/-- The call never changes the state. -/
structure ReadOnly (call : EStateM ε σ α) : Prop where
  onSuccess : ∀ state value after, call.run state = .ok value after → after = state
  onFailure : Atomic call

/-- The call never fails. -/
def Total (call : EStateM ε σ α) : Prop :=
  ∀ state error after, call.run state ≠ .error error after

section Rules

variable {call : EStateM ε σ α} {next : α → EStateM ε σ β}

theorem readOnly_get : ReadOnly (get : EStateM ε σ σ) where
  onSuccess _ _ _ returned := (run_get_eq_ok.mp returned).2
  onFailure _ _ _ failed := absurd failed run_get_ne_error

theorem readOnly_ofExcept (computation : Except ε α) :
    ReadOnly (MonadExcept.ofExcept computation : EStateM ε σ α) where
  onSuccess _ _ _ returned := (run_ofExcept_eq_ok.mp returned).2
  onFailure _ _ _ failed := (run_ofExcept_eq_error.mp failed).2

theorem total_pure (value : α) : Total (pure value : EStateM ε σ α) :=
  fun _ _ _ => run_pure_ne_error

theorem total_modify (change : σ → σ) : Total (modify change : EStateM ε σ PUnit) :=
  fun _ _ _ => run_modify_ne_error

theorem Total.bind (first : Total call) (rest : ∀ value, Total (next value)) :
    Total (call >>= next) := by
  intro state error after failed
  rcases run_bind_eq_error.mp failed with firstFailed | ⟨value, middle, -, restFailed⟩
  · exact first state error after firstFailed
  · exact rest value middle error after restFailed

theorem Total.atomic (total : Total call) : Atomic call :=
  fun state error after failed => absurd failed (total state error after)

theorem Atomic.bind_total (first : Atomic call) (rest : ∀ value, Total (next value)) :
    Atomic (call >>= next) := by
  intro state error after failed
  rcases run_bind_eq_error.mp failed with firstFailed | ⟨value, middle, -, restFailed⟩
  · exact first state error after firstFailed
  · exact absurd restFailed (rest value middle error after)

/-- Whatever reads and checks first, and only then goes on to change the state, leaves the
state alone when it fails. -/
theorem ReadOnly.bind_atomic (first : ReadOnly call) (rest : ∀ value, Atomic (next value)) :
    Atomic (call >>= next) := by
  intro state error after failed
  rcases run_bind_eq_error.mp failed with firstFailed | ⟨value, middle, returned, restFailed⟩
  · exact first.onFailure state error after firstFailed
  · rw [rest value middle error after restFailed, first.onSuccess state value middle returned]

end Rules

/-! ## Sequences of calls -/

/-- The state that a result leaves behind. -/
def EStateM.Result.state : EStateM.Result ε σ α → σ
  | .ok _ after => after
  | .error _ after => after

section Calls

variable {ι : Type*} {perform : ι → EStateM ε σ α}

/-- The state after a sequence of calls, each of which may have failed. -/
def runCalls (perform : ι → EStateM ε σ α) (calls : List ι) (initial : σ) : σ :=
  calls.foldl (fun state call => EStateM.Result.state ((perform call).run state)) initial

@[simp] theorem runCalls_nil (initial : σ) : runCalls perform [] initial = initial :=
  rfl

theorem runCalls_append (first rest : List ι) (initial : σ) :
    runCalls perform (first ++ rest) initial =
      runCalls perform rest (runCalls perform first initial) :=
  List.foldl_append

theorem runCalls_singleton (call : ι) (initial : σ) : runCalls perform [call] initial =
      EStateM.Result.state ((perform call).run initial) :=
  rfl

/-- What holds initially and is kept by every call that succeeds holds after every sequence
of calls, when failures have no effect. -/
theorem runCalls_invariant {holds : σ → Prop} {initial : σ} (initially : holds initial)
    (atomic : ∀ call, Atomic (perform call)) (step : ∀ call state value after, holds state →
      (perform call).run state = .ok value after → holds after) (calls : List ι) :
    holds (runCalls perform calls initial) := by
  induction calls using List.reverseRecOn with
  | nil => exact initially
  | append_singleton calls call ih =>
    rw [runCalls_append, runCalls_singleton]
    cases ran : (perform call).run (runCalls perform calls initial) with
    | ok value after => exact step call _ value after ih ran
    | error error after =>
      rw [atomic call _ error after ran]
      exact ih

end Calls

end Unf.Lib
