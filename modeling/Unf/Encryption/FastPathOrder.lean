import Unf.Encryption.FastPathSpec
import Mathlib.Data.List.Perm.Basic

/-!
# The order of the input

The compiler gives the same bank for the same epochs and inputs in any order. A pair collects
its inputs in the order they come in; the tables and the sorted witnesses forget that order
again.
-/

namespace Unf.Encryption

open Unf.Lib Unf.Egress List CompiledDecisions GroupOutcome
open Unf.Service (Revision)

variable {digests : EncryptionDigests} {context : FastPathCompileContext}
  {admitted : AdmittedEpochs}

/-! ## One pair -/

variable {inputs inputs' : List FastPathDecisionInput} {outcomes : List GroupOutcome}
  {epochs : List FastPathEpochAdmission}

theorem Replicated.perm {bindings : List RequiredBinding} {revision : Revision} {number : UInt64}
    (replicated : Replicated digests context admitted inputs bindings revision number)
    (perm : inputs.Perm inputs') :
    ∃ bindings', Replicated digests context admitted inputs' bindings' revision number ∧
      bindings.Perm bindings' := by
  obtain ⟨bindings', bound, reordered⟩ := perm_comp_forall₂ perm.symm replicated.bound
  refine ⟨bindings', ?_, reordered.symm⟩
  exact
    { nonempty := fun empty => replicated.nonempty (by rw [empty] at perm; exact perm.eq_nil)
      required := fun input member => replicated.required input (perm.mem_iff.mpr member)
      distinct := (perm.map _).nodup_iff.mp replicated.distinct
      bound
      revision := fun binding member =>
        replicated.revision binding (reordered.mem_iff.mp member)
      epoch := fun input member => replicated.epoch input (perm.mem_iff.mpr member) }

/-- The same contribution, its parts in any order. -/
structure GroupOutcome.Reordered (left right : GroupOutcome) : Prop where
  decision : left.decision = right.decision
  bindings : left.bindings.Perm right.bindings
  paths : left.paths.Perm right.paths

theorem GroupOutcome.Reordered.refl (outcome : GroupOutcome) : outcome.Reordered outcome :=
  ⟨rfl, .refl _, .refl _⟩

theorem GroupCompiles.perm {pair : IdentityId ×ₗ IdentityId} {outcome : GroupOutcome}
    (compiles : GroupCompiles digests context admitted pair inputs outcome)
    (perm : inputs.Perm inputs') :
    ∃ outcome', GroupCompiles digests context admitted pair inputs' outcome' ∧
      outcome.Reordered outcome' := by
  cases compiles with
  | native native decided =>
    obtain rfl := perm_singleton.mp perm.symm
    exact ⟨_, .native native decided, .refl _⟩
  | single required bound =>
    obtain rfl := perm_singleton.mp perm.symm
    exact ⟨_, .single required bound, .refl _⟩
  | @replicated _ bindings revision number several replicated =>
    obtain ⟨bindings', replicated', reordered⟩ := replicated.perm perm
    refine ⟨_, .replicated (perm.length_eq ▸ several) replicated', ?_, reordered,
      reordered.flatMap_right _⟩
    rw [replicatedDecision, replicatedDecision, sort_eq_of_perm (reordered.map _)]

/-! ## All pairs -/

theorem groupInputs_perm (perm : inputs.Perm inputs') :
    List.Forall₂ (fun group group' => group.1 = group'.1 ∧ group.2.Perm group'.2)
      (groupInputs inputs).toList (groupInputs inputs').toList := by
  have reordered (pair : IdentityId ×ₗ IdentityId) :
      (inputsOf inputs pair).Perm (inputsOf inputs' pair) := perm.filter _
  apply forall₂_toList
  · intro pair
    rw [mem_groupInputs, mem_groupInputs, ← length_pos_iff, ← length_pos_iff,
      (reordered pair).length_eq]
  · intro pair first second found found'
    obtain ⟨rfl, -⟩ := getElem?_groupInputs.mp found
    obtain ⟨rfl, -⟩ := getElem?_groupInputs.mp found'
    exact reordered pair

theorem GroupsCompile.perm
    {groups groups' : List ((IdentityId ×ₗ IdentityId) × List FastPathDecisionInput)}
    (compile : GroupsCompile digests context admitted groups outcomes)
    (perm : List.Forall₂ (fun group group' => group.1 = group'.1 ∧ group.2.Perm group'.2)
      groups groups') : ∃ outcomes', GroupsCompile digests context admitted groups' outcomes' ∧
      List.Forall₂ GroupOutcome.Reordered outcomes outcomes' := by
  induction compile generalizing groups' with
  | nil =>
    cases perm
    exact ⟨[], .nil, .nil⟩
  | cons compiles _ ih =>
    cases perm with
    | cons same rest =>
      obtain ⟨outcomes', compileRest, reorderedRest⟩ := ih rest
      obtain ⟨outcome', compiles', reordered⟩ := compiles.perm same.2
      rw [same.1] at compiles'
      exact ⟨outcome' :: outcomes', .cons compiles' compileRest, .cons reordered reorderedRest⟩

theorem map_decision_eq_of_reordered {outcomes' : List GroupOutcome}
    (reordered : List.Forall₂ GroupOutcome.Reordered outcomes outcomes') :
    outcomes.map decision = outcomes'.map decision := by
  induction reordered with
  | nil => rfl
  | cons first _ ih =>
    rw [map_cons, map_cons, first.decision, ih]

/-- No two active epochs are admitted. -/
def OneActive (admitted : AdmittedEpochs) : Prop :=
  ∀ (number number' : UInt64) epoch epoch', admitted[number]? = some epoch →
    admitted[number']? = some epoch' → epoch.state = .active → epoch'.state = .active →
    epoch = epoch'

theorem oneActive_of_valid (valid : ContextValid context epochs inputs)
    (done : admitEpochs digests context epochs = .ok admitted) : OneActive admitted := by
  intro number number' epoch epoch' found found' active active'
  have member := ((getElem?_admitted done number epoch).mp found).1
  have member' := ((getElem?_admitted done number' epoch').mp found').1
  have one := valid.oneActive (ne_nil_of_mem member)
  exact eq_of_countP_eq_one one member member' (by simpa using active) (by simpa using active')

variable (compile : DecisionsCompile digests context admitted inputs outcomes)

include compile

/-- All plans of the inputs are of one epoch, so transports with the same content are the
same. -/
theorem DecisionsCompile.transports_registrable (oneActive : OneActive admitted) :
    Registrable ∅ (transportEntries (outcomes.flatMap GroupOutcome.bindings)) := by
  rw [registrable_empty_iff, transportEntries, pairwise_map]
  apply pairwise_of_forall_mem_list
  intro first firstMember second secondMember sameKey
  obtain ⟨input, firstSound⟩ := compile.groups.bindingSound firstMember
  obtain ⟨input', secondSound⟩ := compile.groups.bindingSound secondMember
  obtain ⟨number, -, found⟩ := firstSound.epoch
  obtain ⟨number', -, found'⟩ := secondSound.epoch
  have sameEpoch : first.epoch = second.epoch :=
    oneActive number number' _ _ found found' firstSound.active secondSound.active
  have sameId : first.transportId = second.transportId := by
    rw [firstSound.transportId, secondSound.transportId]
    exact congrArg (transportId digests) sameKey
  exact Prod.ext sameId sameEpoch

theorem DecisionsCompile.perm (oneActive : OneActive admitted) (perm : inputs.Perm inputs') :
    ∃ outcomes', DecisionsCompile digests context admitted inputs' outcomes' ∧
      addAll ⟨[], ∅, ∅⟩ outcomes' = addAll ⟨[], ∅, ∅⟩ outcomes := by
  obtain ⟨outcomes', groups, reordered⟩ := compile.groups.perm (groupInputs_perm perm)
  have upToOrder : UpToOrder GroupOutcome.Reordered outcomes outcomes' :=
    ⟨outcomes, .refl _, reordered⟩
  have bindings : (outcomes.flatMap GroupOutcome.bindings).Perm
      (outcomes'.flatMap GroupOutcome.bindings) :=
    upToOrder.flatMap_perm fun _ _ same => same.bindings
  have paths : (pathEntries (outcomes.flatMap paths)).Perm
      (pathEntries (outcomes'.flatMap paths)) :=
    (upToOrder.flatMap_perm fun _ _ same => same.paths).map _
  have samePaths := register_eq_of_perm compile.registrable paths
  refine ⟨outcomes', ⟨?_, groups, compile.registrable.perm paths, ?_⟩, ?_⟩
  · intro input member
    exact compile.identities input (perm.mem_iff.mpr member)
  · rw [← samePaths]
    exact compile.capacity
  · have transports : (transportEntries (outcomes.flatMap GroupOutcome.bindings)).Perm
        (transportEntries (outcomes'.flatMap GroupOutcome.bindings)) := bindings.map _
    rw [addAll, addAll, map_decision_eq_of_reordered reordered, samePaths,
      register_eq_of_perm (compile.transports_registrable oneActive) transports]

omit compile

theorem compileDecisions_perm {compiled : CompiledDecisions}
    (done : compileDecisions digests context admitted inputs = .ok compiled)
    (oneActive : OneActive admitted) (perm : inputs.Perm inputs') :
    compileDecisions digests context admitted inputs' = .ok compiled := by
  obtain ⟨outcomes, compile, rfl⟩ := compileDecisions_eq_ok.mp done
  obtain ⟨outcomes', compile', same⟩ := compile.perm oneActive perm
  exact compileDecisions_eq_ok.mpr ⟨outcomes', compile', same.symm⟩

/-! ## The bank -/

variable {epochs' : List FastPathEpochAdmission}

/-- There is at most one draining epoch, whatever the order. -/
theorem filter_draining_eq_of_perm (valid : ContextValid context epochs inputs)
    (perm : epochs.Perm epochs') : epochs.filter (fun epoch => epoch.state == .draining) =
      epochs'.filter fun epoch => epoch.state == .draining := by
  have reordered := perm.filter fun epoch => epoch.state == .draining
  have short : (epochs.filter fun epoch => epoch.state == .draining).length ≤ 1 := by
    by_cases empty : epochs = []
    · rw [empty]
      exact Nat.zero_le _
    · have one := valid.oneActive empty
      have few : epochs.length ≤ 2 := valid.fewEpochs
      have split : epochs.length = _ := length_eq_countP_add_countP
        fun epoch : FastPathEpochAdmission => epoch.state == .active
      have rest : epochs.countP (fun epoch => epoch.state == .draining) ≤
          epochs.countP fun epoch => decide ¬(epoch.state == .active) = true :=
        countP_mono_left fun epoch _ draining => by
          cases state : epoch.state with
          | active => simp [state] at draining
          | draining => rfl
      rw [← countP_eq_length_filter]
      omega
  generalize epochs.filter (fun epoch => epoch.state == .draining) = draining at reordered short ⊢
  cases draining with
  | nil => exact reordered.symm.eq_nil.symm
  | cons epoch rest =>
    obtain rfl : rest = [] := eq_nil_of_length_eq_zero (Nat.le_zero.mp
      (Nat.le_of_succ_le_succ short))
    exact (perm_singleton.mp reordered.symm).symm

/-- The bank does not depend on the order of epochs and inputs. -/
theorem compileEncryptionFastPath_perm {state : EncryptionFastPathState}
    (compiled : compileEncryptionFastPath digests context epochs inputs = .ok state)
    (epochPerm : epochs.Perm epochs') (inputPerm : inputs.Perm inputs') :
    compileEncryptionFastPath digests context epochs' inputs' = .ok state := by
  rw [compileEncryptionFastPath, bind_eq_ok] at compiled
  obtain ⟨⟨⟩, validated, rest⟩ := compiled
  rw [bind_eq_ok] at rest
  obtain ⟨admitted, admittedDone, rest⟩ := rest
  rw [bind_eq_ok] at rest
  obtain ⟨decisions, decisionsDone, rest⟩ := rest
  have valid := validateContext_eq_ok.mp validated
  have validated' : validateContext context epochs' inputs' = .ok () :=
    validateContext_eq_ok.mpr (valid.perm epochPerm inputPerm)
  have decisionsDone' := compileDecisions_perm decisionsDone
    (oneActive_of_valid valid admittedDone) inputPerm
  have sameDraining : addDrainingTransports digests epochs decisions.transports =
      addDrainingTransports digests epochs' decisions.transports := by
    rw [addDrainingTransports, addDrainingTransports, filter_draining_eq_of_perm valid epochPerm]
  rw [compileEncryptionFastPath, validated', admitEpochs_perm admittedDone epochPerm]
  simp only [decisionsDone', ← sameDraining, ← epochPerm.length_eq, bind, Except.bind] at rest ⊢
  exact rest

end Unf.Encryption
