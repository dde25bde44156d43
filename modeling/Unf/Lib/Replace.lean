import Unf.Lib.Attempt

/-!
# Replacing a file

The usual way to replace a file without ever showing half of it: the new contents are written
under a temporary name and then renamed over the old file, and the temporary file is removed
when a step fails. The module says what is left behind, for all ways in which the steps may go:
the old file or the new one, and the temporary file only when the process was killed while it
was there or could not remove it.
-/

namespace Unf.Lib

open Attempt

variable {σ ε : Type}

/-- How the steps go. The clean-up only runs after a failure. -/
structure ReplaceFates (ε : Type) where
  create : Fate ε
  write : WriteFate ε
  sync : Fate ε
  rename : Fate ε
  cleanup : Fate ε

namespace ReplaceFates

variable (fates : ReplaceFates ε)

/-- The clean-up after a failure removes the temporary file. -/
def cleansUp : Bool :=
  match fates.cleanup with
  | .succeeds | .killedAfter => true
  | .fails _ | .killedBefore => false

/-- A temporary file that is written stays: the process is killed before the rename, or a
failure before the rename is not cleaned up. -/
def abandonsWritten : Bool :=
  match fates.sync, fates.rename with
  | .killedBefore, _ | .killedAfter, _ => true
  | .fails _, _ => !fates.cleansUp
  | .succeeds, .killedBefore => true
  | .succeeds, .fails _ => !fates.cleansUp
  | .succeeds, .succeeds | .succeeds, .killedAfter => false

/-- Steps that start without a temporary file end with one: the process is killed between the
creation of the file and its renaming or removal, or the removal after a failure fails itself. -/
def leavesTemporary : Bool :=
  match fates.create, fates.write with
  | .fails _, _ | .killedBefore, _ => false
  | .killedAfter, _ => true
  | .succeeds, .killed _ => true
  | .succeeds, .fails _ _ => !fates.cleansUp
  | .succeeds, .completes => fates.abandonsWritten

/-- A temporary file that is written is renamed. -/
def renamesWritten : Bool :=
  match fates.sync, fates.rename with
  | .succeeds, .succeeds | .succeeds, .killedAfter => true
  | _, _ => false

/-- The steps pass their rename. -/
def renames : Bool :=
  match fates.create, fates.write with
  | .succeeds, .completes => fates.renamesWritten
  | _, _ => false

theorem leavesTemporary_of_renames {fates : ReplaceFates ε} (renamed : fates.renames = true) :
    fates.leavesTemporary = false := by
  revert renamed
  rw [renames, leavesTemporary, renamesWritten, abandonsWritten]
  cases fates.create <;> cases fates.write <;> cases fates.sync <;> cases fates.rename <;> simp

/-- No step fails or is cut short. -/
structure AllSucceed (fates : ReplaceFates ε) : Prop where
  create : fates.create = .succeeds
  write : fates.write = .completes
  sync : fates.sync = .succeeds
  rename : fates.rename = .succeeds

/-- The fates of steps that all succeed. -/
def good : ReplaceFates ε :=
  ⟨.succeeds, .completes, .succeeds, .succeeds, .succeeds⟩

theorem good_allSucceed : (good : ReplaceFates ε).AllSucceed :=
  ⟨rfl, rfl, rfl, rfl⟩

end ReplaceFates

/-- The effects of the steps. -/
structure Replacement (σ ε : Type) where
  create : σ → Except ε σ
  bytes : List UInt8
  write : List UInt8 → σ → σ
  rename : σ → Except ε σ
  remove : σ → Except ε σ

namespace Replacement

/-- The steps up to the rename, the ones that confirm it, and the clean-up. -/
def perform (replacement : Replacement σ ε) (fates : ReplaceFates ε)
    (confirm : Attempt σ ε Unit) : Attempt σ ε Unit :=
  Attempt.onFailure
    (do
      .step fates.create replacement.create
      .write fates.write replacement.bytes replacement.write
      .step fates.sync .ok
      .step fates.rename replacement.rename
      confirm)
    (.step fates.cleanup replacement.remove)

/-- The stages of a replacement: the old file, the old file with a temporary one beside it, the
same with all bytes written, and the new file. -/
structure Stages (replacement : Replacement σ ε) (old staged written new : σ → Prop) : Prop where
  create : ∀ state, old state → ∃ after, replacement.create state = .ok after ∧ staged after
  write : ∀ bytes state, staged state → staged (replacement.write bytes state)
  complete : ∀ state, staged state → written (replacement.write replacement.bytes state)
  kept : ∀ state, written state → staged state
  rename : ∀ state, written state → ∃ after, replacement.rename state = .ok after ∧ new after
  remove : ∀ state, staged state → ∃ after, replacement.remove state = .ok after ∧ old after
  nothing_old : ∀ state after, old state → replacement.remove state ≠ .ok after
  nothing_new : ∀ state after, new state → replacement.remove state ≠ .ok after

/-- What is left behind, by whether the rename was passed and whether the temporary file
stays. -/
def Leaves (old staged new : σ → Prop) (renamed temporary : Bool) (after : σ) : Prop :=
  match renamed, temporary with
  | true, _ => new after
  | false, true => staged after
  | false, false => old after

section Outcome

variable {replacement : Replacement σ ε} {old staged written new : σ → Prop}
  {fates : ReplaceFates ε} {confirm : Attempt σ ε Unit} {state : σ}
  (stages : replacement.Stages old staged written new)

include stages

/-- After a failure the temporary file stays exactly when the clean-up does not remove it. -/
theorem Stages.cleanup {error : ε} {steps : Attempt σ ε Unit} {reached : σ} (here : staged reached)
    (failed : steps.run state = .failed error reached) :
    Leaves old staged new false (!fates.cleansUp)
      ((steps.onFailure (.step fates.cleanup replacement.remove)).run state).state := by
  obtain ⟨removed, done, gone⟩ := stages.remove reached here
  rw [onFailure_of_failed failed, ReplaceFates.cleansUp]
  cases fates.cleanup with
  | fails => exact here
  | killedBefore => exact here
  | succeeds =>
    rw [step_of_ok done]
    exact gone
  | killedAfter =>
    rw [step_killedAfter_of_ok done]
    exact gone

/-- Once the temporary file is written, the new file is in place after the rename, and the old
one before it. -/
theorem Stages.commit (confirmed : confirm.Preserves new) (here : written state) :
    Leaves old staged new fates.renamesWritten fates.abandonsWritten ((onFailure (do
          .step fates.sync .ok
          .step fates.rename replacement.rename
          confirm)
        (.step fates.cleanup replacement.remove)).run state).state := by
  have stagedHere := stages.kept state here
  obtain ⟨renamed, done, replaced⟩ := stages.rename state here
  have cleaned : (step fates.cleanup replacement.remove).Preserves new := by
    apply preserves_step
    intro reached after held removed
    exact absurd removed (stages.nothing_new reached after held)
  rw [ReplaceFates.abandonsWritten, ReplaceFates.renamesWritten]
  cases fates.sync with
  | fails error =>
    exact stages.cleanup stagedHere (bind_of_failed (step_fails error))
  | killedBefore =>
    exact stagedHere
  | killedAfter =>
    exact stagedHere
  | succeeds =>
    rw [onFailure_congr (bind_of_returned (step_of_ok rfl))]
    cases fates.rename with
    | fails error =>
      exact stages.cleanup stagedHere (bind_of_failed (step_fails error))
    | killedBefore =>
      exact stagedHere
    | killedAfter =>
      rw [onFailure_of_killed (bind_of_killed (step_killedAfter_of_ok done))]
      exact replaced
    | succeeds =>
      rw [onFailure_congr (bind_of_returned (step_of_ok done))]
      exact confirmed.onFailure cleaned renamed replaced

/-- What a replacement leaves, however its steps go. -/
theorem Stages.perform (confirmed : confirm.Preserves new) (here : old state) :
    Leaves old staged new fates.renames fates.leavesTemporary
      ((replacement.perform fates confirm).run state).state := by
  obtain ⟨created, done, stagedCreated⟩ := stages.create state here
  rw [Replacement.perform, ReplaceFates.leavesTemporary, ReplaceFates.renames]
  cases fates.create with
  | fails error =>
    rw [onFailure_of_failed (bind_of_failed (step_fails error))]
    apply preserves_step fates.cleanup ?_ state here
    intro reached after held removed
    exact absurd removed (stages.nothing_old reached after held)
  | killedBefore =>
    exact here
  | killedAfter =>
    rw [onFailure_of_killed (bind_of_killed (step_killedAfter_of_ok done))]
    exact stagedCreated
  | succeeds =>
    rw [onFailure_congr (bind_of_returned (step_of_ok done))]
    cases fates.write with
    | fails count error =>
      exact stages.cleanup (stages.write _ created stagedCreated)
        (bind_of_failed (write_fails count error))
    | killed count =>
      exact stages.write _ created stagedCreated
    | completes =>
      exact stages.commit confirmed (stages.complete created stagedCreated)

/-- A replacement whose steps all succeed passes its rename. -/
theorem Stages.perform_run (all : fates.AllSucceed) (here : old state)
    (confirmed : ∀ reached, new reached → confirm.run reached = .returned () reached) :
    ∃ after, (replacement.perform fates confirm).run state = .returned () after ∧ new after := by
  obtain ⟨created, createdDone, stagedCreated⟩ := stages.create state here
  obtain ⟨renamed, renamedDone, replaced⟩ := stages.rename _ (stages.complete created stagedCreated)
  refine ⟨renamed, ?_, replaced⟩
  apply onFailure_of_returned
  rw [all.create, all.write, all.sync, all.rename, bind_of_returned (step_of_ok createdDone),
    bind_of_returned write_completes, bind_of_returned (step_of_ok rfl),
    bind_of_returned (step_of_ok renamedDone)]
  exact confirmed renamed replaced

omit stages

/-- A replacement that returns has passed its rename. -/
theorem renames_of_returned {after : σ}
    (ran : (replacement.perform fates confirm).run state = .returned () after) :
    fates.renames = true := by
  have steps := onFailure_eq_returned ran
  obtain ⟨⟨⟩, _, created, steps⟩ := bind_eq_returned steps
  obtain ⟨⟨⟩, _, written, steps⟩ := bind_eq_returned steps
  obtain ⟨⟨⟩, _, synced, steps⟩ := bind_eq_returned steps
  obtain ⟨⟨⟩, _, renamed, -⟩ := bind_eq_returned steps
  rw [ReplaceFates.renames, fate_of_returned created, writeFate_of_returned written,
    ReplaceFates.renamesWritten, fate_of_returned synced, fate_of_returned renamed]

end Outcome

end Replacement

end Unf.Lib
