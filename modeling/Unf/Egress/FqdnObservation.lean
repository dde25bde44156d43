import Unf.Egress.FqdnCanonical
import Unf.Egress.FqdnQuorum

/-!
# The observation ledger

Every agent owns its latest batch of observations for each resolver view. A batch is a
complete replacement; nothing is adopted that the owner did not send.
-/

namespace Unf.Egress

open Std (ExtTreeMap ExtTreeSet)
open Unf.Lib List
open Unf.Service (Revision)

def egressFqdnObservationBatchSchemaVersion : UInt16 := 1

def maxEgressFqdnObservationBatches : Nat := 256

def egressAgentServiceAccount : String := "unf-agent"

def egressAgentTokenAudience : String := "unf-controller.unf-system.svc"

/-- The agent that a batch is from. -/
structure AuthenticatedEgressAgent where
  «namespace» : String
  serviceAccount : String
  podName : String
  podUid : String
  nodeName : String
  nodeUid : String
  audience : String
  deriving DecidableEq, Repr

/-- What one node has observed in one view. -/
structure EgressFqdnObservationBatch where
  schemaVersion : UInt16
  observerNodeUid : String
  sourceEpoch : UInt64
  batchRevision : Revision
  view : String
  collectedAtUnixSeconds : UInt64
  observations : List EgressDnsObservation
  deriving DecidableEq

/-- Why a batch is rejected. -/
inductive EgressFqdnObservationError where
  | invalidPrincipal
  | foreignBatch
  | invalidBatch (reason : String)
  | regression
  | sameRevisionMutation
  | capacityExceeded
  | revisionExhausted
  deriving DecidableEq, Repr

/-- The last batch of every node and view. -/
structure EgressFqdnObservationLedger where
  revision : Revision := .initial
  batches : ExtTreeMap (String ×ₗ String) EgressFqdnObservationBatch := ∅

variable (ledger : EgressFqdnObservationLedger) (batch : EgressFqdnObservationBatch)
  (nowUnixSeconds : UInt64)

namespace EgressFqdnObservationLedger

/-- The observations of all agents for a view. -/
def observationsForView (view : String) : List EgressDnsObservation :=
  (ledger.batches.toList.filter fun entry => (ofLex entry.1).2 == view).flatMap
    fun entry => entry.2.observations

end EgressFqdnObservationLedger

/-! ## Batches -/

def validatePrincipal (principal : AuthenticatedEgressAgent) :
    Except EgressFqdnObservationError PUnit :=
  failIf (principal.«namespace» != "unf-system" ||
      principal.serviceAccount != egressAgentServiceAccount ||
      principal.audience != egressAgentTokenAudience || principal.podName.isEmpty ||
      principal.podUid.isEmpty || principal.nodeName.isEmpty || principal.nodeUid.isEmpty)
    .invalidPrincipal

namespace EgressFqdnObservationBatch

def key : String ×ₗ String :=
  toLex (batch.observerNodeUid, batch.view)

/-- Later batches of an agent have a later position. -/
def position : UInt64 ×ₗ Revision :=
  toLex (batch.sourceEpoch, batch.batchRevision)

def headerInvalid : Bool :=
  batch.schemaVersion != egressFqdnObservationBatchSchemaVersion ||
    batch.observerNodeUid.isEmpty || decide (253 < batch.observerNodeUid.utf8ByteSize) ||
    batch.sourceEpoch == 0 || batch.batchRevision == .initial || batch.view.isEmpty ||
    decide (253 < batch.view.utf8ByteSize) ||
    decide (maxEgressFqdnObservations < batch.observations.length) ||
    decide (saturatingAdd nowUnixSeconds maxEgressFqdnFutureSkewSeconds <
      batch.collectedAtUnixSeconds)

/-- The observation is not one of the batch. -/
def foreign (observation : EgressDnsObservation) : Bool :=
  observation.source.observerUid != batch.observerNodeUid ||
    observation.source.sourceEpoch != batch.sourceEpoch ||
    observation.source.view != batch.view ||
    observation.observationRevision != batch.batchRevision ||
    decide (batch.collectedAtUnixSeconds < observation.observedAtUnixSeconds)

/-- The names and the normalized observations so far, with one more observation. -/
def normalizeNext (progress : ExtTreeSet String × List EgressDnsObservation)
    (observation : EgressDnsObservation) :
    Except EgressFqdnObservationError (ExtTreeSet String × List EgressDnsObservation) := do
  failIf (batch.foreign observation)
    (.invalidBatch "observation is not bound to its complete batch")
  let observation ← (normalizeObservation observation maxEgressFqdnTtlSeconds
    nowUnixSeconds).mapError fun _ => .invalidBatch "observation is invalid"
  failIf (progress.1.contains observation.queryName)
    (.invalidBatch "query names must be unique")
  return (progress.1.insert observation.queryName, progress.2 ++ [observation])

end EgressFqdnObservationBatch

def normalizeBatch : Except EgressFqdnObservationError EgressFqdnObservationBatch := do
  failIf (batch.headerInvalid nowUnixSeconds)
    (.invalidBatch "schema, identity, position, view, size, or collection time is invalid")
  let (_, normalized) ← batch.observations.foldlM (batch.normalizeNext nowUnixSeconds)
    (∅, [])
  return { batch with observations := sortByKey EgressDnsObservation.queryName normalized }

/-! ## Adoption -/

namespace EgressFqdnObservationLedger

/-- The number of observations with a batch in place of the one of its key. -/
def totalWith : Nat :=
  (ledger.batches.toList.map fun entry => entry.2.observations.length).sum -
      (ledger.batches[batch.key]?.elim 0 fun previous => previous.observations.length) +
    batch.observations.length

/-- The ledger with a normalized batch, and whether it is new. -/
def adopt : Except EgressFqdnObservationError (EgressFqdnObservationLedger × Bool) := do
  failIf (decide (maxEgressFqdnObservations < ledger.totalWith batch)) .capacityExceeded
  let revision ← (checkedAdd ledger.revision.get 1).elim (.error .revisionExhausted) .ok
  return (⟨⟨revision⟩, ledger.batches.insert batch.key batch⟩, true)

def apply (principal : AuthenticatedEgressAgent) (batch : EgressFqdnObservationBatch)
    (nowUnixSeconds : UInt64) :
    Except EgressFqdnObservationError (EgressFqdnObservationLedger × Bool) := do
  validatePrincipal principal
  failIf (batch.observerNodeUid != principal.nodeUid) .foreignBatch
  let batch ← normalizeBatch batch nowUnixSeconds
  match ledger.batches[batch.key]? with
  | some previous =>
    failIf (decide (batch.position < previous.position)) .regression
    if batch.position = previous.position then
      failIf (previous != batch) .sameRevisionMutation
      return (ledger, false)
    ledger.adopt batch
  | none =>
    failIf (decide (maxEgressFqdnObservationBatches ≤ ledger.batches.size)) .capacityExceeded
    ledger.adopt batch

end EgressFqdnObservationLedger

/-! ## Calls -/

/-- What an agent asks for, and the time at which it does. -/
structure EgressFqdnObservationCall where
  principal : AuthenticatedEgressAgent
  batch : EgressFqdnObservationBatch
  nowUnixSeconds : UInt64

namespace EgressFqdnObservationLedger

/-- The ledger after calls that all succeed. -/
def run (calls : List EgressFqdnObservationCall) :
    Except EgressFqdnObservationError EgressFqdnObservationLedger :=
  calls.foldlM (fun ledger call => do
    let (after, _) ← ledger.apply call.principal call.batch call.nowUnixSeconds
    return after) ledger

end EgressFqdnObservationLedger

/-! ## Normal batches -/

/-- What normalization establishes about the observations of a batch. -/
structure EgressFqdnObservationBatch.Normal (batch : EgressFqdnObservationBatch)
    (nowUnixSeconds : UInt64) : Prop where
  collected : batch.collectedAtUnixSeconds ≤
    saturatingAdd nowUnixSeconds maxEgressFqdnFutureSkewSeconds
  canonical : ∀ observation ∈ batch.observations, observation.Canonical
  own : ∀ observation ∈ batch.observations, batch.foreign observation = false
  distinct : (batch.observations.map EgressDnsObservation.queryName).Nodup

variable {batch : EgressFqdnObservationBatch} {nowUnixSeconds : UInt64} {raw : EgressDnsObservation}
  {progress after : ExtTreeSet String × List EgressDnsObservation}

theorem foreign_normalized {observation : EgressDnsObservation} {maxTtlSeconds : UInt32}
    (normalized : normalizeObservation raw maxTtlSeconds nowUnixSeconds = .ok observation) :
    batch.foreign observation = batch.foreign raw := by
  obtain ⟨-, _, _, -, -, -, -, rfl⟩ := normalizeObservation_eq_ok.mp normalized
  rfl

theorem normalizeNext_eq_ok : batch.normalizeNext nowUnixSeconds progress raw = .ok after ↔
      batch.foreign raw = false ∧ ∃ observation,
        normalizeObservation raw maxEgressFqdnTtlSeconds nowUnixSeconds = .ok observation ∧
        observation.queryName ∉ progress.1 ∧
        after = (progress.1.insert observation.queryName, progress.2 ++ [observation]) := by
  simp only [EgressFqdnObservationBatch.normalizeNext, eq_ok_iffs, contains_eq_false_iff,
    eq_comm (a := after)]

/-- The observations that the loop has let through, with the names it remembers. -/
structure NormalProgress (batch : EgressFqdnObservationBatch)
    (progress : ExtTreeSet String × List EgressDnsObservation) : Prop where
  names : ∀ name, name ∈ progress.1 ↔ name ∈ progress.2.map EgressDnsObservation.queryName
  distinct : (progress.2.map EgressDnsObservation.queryName).Nodup
  canonical : ∀ observation ∈ progress.2, observation.Canonical
  own : ∀ observation ∈ progress.2, batch.foreign observation = false

theorem NormalProgress.next (normal : NormalProgress batch progress)
    (computed : batch.normalizeNext nowUnixSeconds progress raw = .ok after) :
    NormalProgress batch after := by
  obtain ⟨own, observation, normalized, fresh, rfl⟩ := normalizeNext_eq_ok.mp computed
  have unlisted := (not_congr (normal.names observation.queryName)).mp fresh
  exact {
    names := fun name => by
      rw [mem_set_insert, normal.names, or_comm]
      simp [eq_comm]
    distinct := by
      rw [map_append]
      exact nodup_append_comm.mp (nodup_cons.mpr ⟨unlisted, normal.distinct⟩)
    canonical := by
      simp only [forall_mem_append, forall_mem_singleton]
      exact ⟨normal.canonical, canonical_of_normalizeObservation normalized⟩
    own := by
      simp only [forall_mem_append, forall_mem_singleton]
      exact ⟨normal.own, (foreign_normalized normalized).trans own⟩ }

theorem normal_of_normalizeBatch {raw : EgressFqdnObservationBatch}
    (normalized : normalizeBatch raw nowUnixSeconds = .ok batch) : batch.Normal nowUnixSeconds := by
  simp only [normalizeBatch, eq_ok_iffs] at normalized
  obtain ⟨header, ⟨names, observations⟩, loop, rfl⟩ := normalized
  have initially : NormalProgress raw (∅, []) := ⟨by simp, by simp, by simp, by simp⟩
  have normal : NormalProgress raw (names, observations) :=
    foldlM_invariant initially (fun _ _ _ _ holds step => holds.next step) loop
  have perm := sortByKey_perm EgressDnsObservation.queryName observations
  simp only [EgressFqdnObservationBatch.headerInvalid, eq_false_iffs] at header
  exact {
    collected := header.2
    canonical := fun observation member => normal.canonical observation (perm.mem_iff.mp member)
    own := fun observation member => normal.own observation (perm.mem_iff.mp member)
    distinct := (perm.map _).nodup_iff.mpr normal.distinct }

/-! ## The ledger over a run -/

namespace EgressFqdnObservationLedger

variable {after : EgressFqdnObservationLedger} {view : String} {changed : Bool}
  {calls : List EgressFqdnObservationCall}

/-- What a call that succeeds has done: nothing, or a later batch of the agent is in place
of the one it had for the view. -/
theorem apply_eq_ok {ledger : EgressFqdnObservationLedger} {principal : AuthenticatedEgressAgent}
    {raw : EgressFqdnObservationBatch}
    (applied : ledger.apply principal raw nowUnixSeconds = .ok (after, changed)) :
    ∃ batch, normalizeBatch raw nowUnixSeconds = .ok batch ∧
      (after = ledger ∧ changed = false ∧ ledger.batches[batch.key]? = some batch ∨
        after.batches = ledger.batches.insert batch.key batch ∧ changed = true ∧
          ledger.totalWith batch ≤ maxEgressFqdnObservations ∧
          ∀ previous, ledger.batches[batch.key]? = some previous →
            previous.position < batch.position) := by
  have adopted {batch : EgressFqdnObservationBatch}
      (computed : ledger.adopt batch = .ok (after, changed)) :
      after.batches = ledger.batches.insert batch.key batch ∧ changed = true ∧
        ledger.totalWith batch ≤ maxEgressFqdnObservations := by
    simp only [adopt, bind_eq_ok, failIf_eq_ok, exists_const, eq_false_iffs] at computed
    obtain ⟨fits, _, -, rfl, rfl⟩ := computed
    exact ⟨rfl, rfl, fits⟩
  simp only [apply, bind_eq_ok, failIf_eq_ok, exists_const] at applied
  obtain ⟨_, -, -, batch, normalized, placed⟩ := applied
  refine ⟨batch, normalized, ?_⟩
  cases found : ledger.batches[batch.key]? with
  | none =>
    simp only [found, failIf_eq_ok, bind_eq_ok, exists_const] at placed
    obtain ⟨sameBatches, isNew, fits⟩ := adopted placed.2
    exact .inr ⟨sameBatches, isNew, fits, by simp⟩
  | some previous =>
    simp only [found, failIf_bind_eq_ok, eq_false_iffs] at placed
    obtain ⟨later, placed⟩ := placed
    by_cases same : batch.position = previous.position
    · simp only [same, if_true, failIf_bind_eq_ok, eq_false_iffs]
      at placed
      obtain ⟨rfl, rfl, rfl⟩ := placed
      exact .inl ⟨rfl, rfl, rfl⟩
    · simp only [same] at placed
      obtain ⟨sameBatches, isNew, fits⟩ := adopted placed
      refine .inr ⟨sameBatches, isNew, fits, ?_⟩
      rintro _ ⟨rfl⟩
      exact lt_of_le_of_ne later (Ne.symm same)

/-- Every batch stands under its own key, and was normal at the time of a call. -/
def Normal (calls : List EgressFqdnObservationCall) (ledger : EgressFqdnObservationLedger) :
    Prop :=
  ∀ (key : String ×ₗ String) (batch : EgressFqdnObservationBatch),
    ledger.batches[key]? = some batch →
      key = batch.key ∧ ∃ call ∈ calls, batch.Normal call.nowUnixSeconds

theorem Normal.apply {ledger : EgressFqdnObservationLedger}
    {call : EgressFqdnObservationCall} (normal : ledger.Normal calls) (member : call ∈ calls)
    (applied : ledger.apply call.principal call.batch call.nowUnixSeconds = .ok (after, changed)) :
    after.Normal calls := by
  obtain ⟨batch, normalized, ⟨rfl, -⟩ | ⟨inserted, -⟩⟩ := apply_eq_ok applied
  · exact normal
  · rw [Normal, inserted]
    exact forall_getElem?_insert ⟨rfl, call, member, normal_of_normalizeBatch normalized⟩ normal

theorem normal_of_run {ledger : EgressFqdnObservationLedger} (ran : run {} calls = .ok ledger) :
    ledger.Normal calls := by
  have initially : Normal calls {} := fun key batch found => by simp at found
  refine foldlM_invariant initially ?_ ran
  intro call member before after normal step
  obtain ⟨⟨_, _⟩, applied, returned⟩ := bind_eq_ok.mp step
  obtain rfl := Except.ok.inj returned
  exact normal.apply member applied

variable {ledger : EgressFqdnObservationLedger} {calls : List EgressFqdnObservationCall}

variable (normal : ledger.Normal calls)

include normal

/-- The observations for a view are those of the batches for it. -/
theorem mem_observationsForView {observation : EgressDnsObservation}
    (member : observation ∈ ledger.observationsForView view) :
    ∃ batch : EgressFqdnObservationBatch, observation ∈ batch.observations ∧
      ∃ call ∈ calls, batch.Normal call.nowUnixSeconds := by
  obtain ⟨⟨key, batch⟩, entry, listed⟩ := mem_flatMap.mp member
  have found := ExtTreeMap.mem_toList_iff_getElem?_eq_some.mp (mem_of_mem_filter entry)
  exact ⟨batch, listed, (normal key batch found).2⟩

theorem canonical_of_mem_observationsForView :
    ∀ observation ∈ ledger.observationsForView view, observation.Canonical := by
  intro observation member
  obtain ⟨batch, listed, call, -, batchNormal⟩ := mem_observationsForView normal member
  exact batchNormal.canonical observation listed

/-- An observation was not further in the future than the skew at the time of a call. -/
theorem observed_of_mem_observationsForView :
    ∀ observation ∈ ledger.observationsForView view, ∃ call ∈ calls,
      observation.observedAtUnixSeconds ≤
        saturatingAdd call.nowUnixSeconds maxEgressFqdnFutureSkewSeconds := by
  intro observation member
  obtain ⟨batch, listed, call, made, batchNormal⟩ := mem_observationsForView normal member
  have own := batchNormal.own observation listed
  simp only [EgressFqdnObservationBatch.foreign, eq_false_iffs] at own
  exact ⟨call, made, own.2.trans batchNormal.collected⟩

/-- No observer reports a name twice for a view. -/
theorem nodup_keys_observationsForView (view : String) :
    ((ledger.observationsForView view).map EgressDnsObservation.key).Nodup := by
  have stored (entry : (String ×ₗ String) × EgressFqdnObservationBatch)
      (listed : entry ∈ ledger.batches.toList.filter fun entry => (ofLex entry.1).2 == view) :
      entry.1 = toLex (entry.2.observerNodeUid, view) ∧
        ∃ call ∈ calls, entry.2.Normal call.nowUnixSeconds := by
    obtain ⟨listed, sameView⟩ := mem_filter.mp listed
    obtain ⟨sameKey, batchNormal⟩ :=
      normal entry.1 entry.2 (ExtTreeMap.mem_toList_iff_getElem?_eq_some.mp listed)
    refine ⟨?_, batchNormal⟩
    rw [sameKey, beq_iff_eq] at sameView
    rw [sameKey, ← sameView]
    rfl
  have observer {batch : EgressFqdnObservationBatch} {nowUnixSeconds : UInt64}
      (batchNormal : batch.Normal nowUnixSeconds) {key : String ×ₗ String}
      (listed : key ∈ batch.observations.map EgressDnsObservation.key) :
      (ofLex key).1 = batch.observerNodeUid := by
    obtain ⟨observation, member, rfl⟩ := mem_map.mp listed
    have own := batchNormal.own observation member
    simp only [EgressFqdnObservationBatch.foreign, eq_false_iffs] at own
    exact own.1.1.1.1
  rw [observationsForView, map_flatMap, nodup_flatMap]
  constructor
  · intro entry listed
    obtain ⟨-, call, -, batchNormal⟩ := stored entry listed
    refine List.Nodup.of_map (fun key => (ofLex key).2) ?_
    rw [map_map]
    exact batchNormal.distinct
  · have ordered : (ledger.batches.toList.filter fun entry =>
        (ofLex entry.1).2 == view).Pairwise fun left right => left.1 ≠ right.1 :=
      (ExtTreeMap.distinct_keys_toList.imp fun different same =>
        different (compare_eq_iff_eq.mpr same)).filter _
    refine ordered.imp_of_mem fun {left right} leftListed rightListed different key
      leftMember rightMember => ?_
    obtain ⟨leftKey, _, -, leftNormal⟩ := stored left leftListed
    obtain ⟨rightKey, _, -, rightNormal⟩ := stored right rightListed
    rw [leftKey, rightKey, ← observer leftNormal leftMember,
      ← observer rightNormal rightMember] at different
    exact different rfl

end EgressFqdnObservationLedger

end Unf.Egress
