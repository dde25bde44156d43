import Unf.Encryption.FastPathOrder

/-!
# The content of a compiled bank

Every record of a compiled bank traced back to the input, and the lookups of the packet path
in terms of what was compiled for a pair.
-/

namespace Unf.Encryption

open Std (ExtTreeMap)
open Unf.Lib Unf.Egress List GroupOutcome Std.ExtTreeMap UInt32

variable {digests : EncryptionDigests} {context : FastPathCompileContext}
  {epochs : List FastPathEpochAdmission} {inputs : List FastPathDecisionInput}
  {state : EncryptionFastPathState}

/-! ## Compilation -/

/-- The table of the transports that the inputs are bound to. -/
def boundTransports (outcomes : List GroupOutcome) : TransportIndex :=
  register ∅ (transportEntries (outcomes.flatMap GroupOutcome.bindings))

/-- The table of the prefixes of replicated destinations. -/
def boundPaths (outcomes : List GroupOutcome) : PathIndex :=
  register ∅ (pathEntries (outcomes.flatMap GroupOutcome.paths))

/-- How a bank came to be. -/
structure Built (digests : EncryptionDigests) (context : FastPathCompileContext)
    (epochs : List FastPathEpochAdmission) (inputs : List FastPathDecisionInput)
    (state : EncryptionFastPathState) (admitted : AdmittedEpochs) (outcomes : List GroupOutcome)
    (table : TransportIndex) : Prop where
  valid : ContextValid context epochs inputs
  admission : admitEpochs digests context epochs = .ok admitted
  compile : DecisionsCompile digests context admitted inputs outcomes
  drained : addDrainingTransports digests epochs (boundTransports outcomes) = .ok table
  materialized : materializeTransports table = .ok state.transportAuthority
  decisionAuthority : state.decisionAuthority =
    sortByKey FastPathDecisionAuthority.pair (outcomes.map GroupOutcome.decision)
  pathAuthority : state.pathAuthority = tableValues (boundPaths outcomes)
  config : mapConfig context epochs.length state.decisionAuthority state.transportAuthority
    state.pathAuthority = .ok state.config
  decisions : state.decisions = lowerDecisions context state.decisionAuthority
  transports : state.transports = lowerTransports context.bank state.transportAuthority
  ipv4Paths : state.ipv4Paths = lowerIpv4Paths context.bank state.pathAuthority
  ipv6Paths : state.ipv6Paths = lowerIpv6Paths context.bank state.pathAuthority
  verified : state.verifyIntegrity digests = .ok ()

theorem exists_built
    (compiled : compileEncryptionFastPath digests context epochs inputs = .ok state) :
    ∃ admitted outcomes table, Built digests context epochs inputs state admitted outcomes
      table := by
  simp only [compileEncryptionFastPath, eq_ok_iffs, compileDecisions_eq_ok, validateContext_eq_ok]
    at compiled
  obtain ⟨valid, admitted, admittedDone, _, ⟨outcomes, compile, rfl⟩, table, drained,
    transportAuthority, materialized, -, config, configDone, verified, rfl⟩ := compiled
  exact ⟨admitted, outcomes, table, valid, admittedDone, compile, drained, materialized, rfl, rfl,
    configDone, rfl, rfl, rfl, rfl, verified⟩

theorem checks_of_verifyIntegrity (verified : state.verifyIntegrity digests = .ok ()) :
    transportIdsAreValid digests state.transportAuthority = true ∧
      pathsAreValid digests state.pathAuthority state.transportAuthority = true := by
  simp only [EncryptionFastPathState.verifyIntegrity, eq_ok_iffs, eq_false_iffs] at verified
  obtain ⟨-, -, -, ⟨⟨-, transports⟩, -⟩, paths⟩ := verified
  exact ⟨transports, paths⟩

/-- The configuration record of a bank. -/
theorem mapConfig_eq_ok {epochCount : Nat} {decisions : List FastPathDecisionAuthority}
    {transports : List EncryptionTransportAuthority} {paths : List EncryptionPathAuthority}
    {config : EncryptionMapConfig} :
    mapConfig context epochCount decisions transports paths = .ok config ↔
      (decisions.length < 2 ^ 32 ∧ transports.length < 2 ^ 32 ∧ epochCount < 2 ^ 8 ∧
        paths.length < 2 ^ 32) ∧
      config =
        { generation := context.generation.get
          policyRevision := context.policyRevision.get
          serviceRevision := context.serviceRevision.get
          egressRevision := context.egressRevision.get
          decisionCount := ofNat decisions.length
          transportCount := ofNat transports.length
          schemaVersion := encryptionMapAbiVersion
          activeBank := context.bank
          epochCount := UInt8.ofNat epochCount
          pathCount := ofNat paths.length } := by
  simp only [mapConfig, countEntries, eq_ok_iffs, eq_false_iffs, not_le]
  constructor
  · rintro ⟨_, ⟨decisions, rfl⟩, _, ⟨transports, rfl⟩, epochs, _, ⟨paths, rfl⟩, rfl⟩
    exact ⟨⟨decisions, transports, epochs, paths⟩, rfl⟩
  · rintro ⟨⟨decisions, transports, epochs, paths⟩, rfl⟩
    exact ⟨_, ⟨decisions, rfl⟩, _, ⟨transports, rfl⟩, epochs, _, ⟨paths, rfl⟩, rfl⟩

/-! ## Decisions -/

variable {admitted : AdmittedEpochs} {pair : IdentityId ×ₗ IdentityId}

/-- The decision of a pair is for that pair. -/
theorem GroupCompiles.decision_pair {group : List FastPathDecisionInput} {outcome : GroupOutcome}
    (compiles : GroupCompiles digests context admitted pair group outcome)
    (own : ∀ input ∈ group, input.pair = pair) : outcome.decision.pair = pair := by
  cases compiles with
  | native _ decided =>
    obtain ⟨-, rfl⟩ := nativeDecision_eq_ok.mp decided
    exact own _ mem_cons_self
  | single => exact own _ mem_cons_self
  | replicated => rfl

theorem GroupsCompile.map_pair
    {groups : List ((IdentityId ×ₗ IdentityId) × List FastPathDecisionInput)}
    {outcomes : List GroupOutcome}
    (compile : GroupsCompile digests context admitted groups outcomes)
    (own : ∀ group ∈ groups, ∀ input ∈ group.2, input.pair = group.1) :
    (outcomes.map decision).map FastPathDecisionAuthority.pair = groups.map Prod.fst := by
  induction compile with
  | nil => rfl
  | cons compiles _ ih =>
    rw [forall_mem_cons] at own
    rw [map_cons, map_cons, map_cons, compiles.decision_pair own.1, ih own.2]

theorem mem_inputsOf {input : FastPathDecisionInput} :
    input ∈ inputsOf inputs pair ↔ input ∈ inputs ∧ input.pair = pair := by
  rw [inputsOf, mem_filter, decide_eq_true_iff]

theorem materializeTransports_eq {table : TransportIndex}
    {authority : List EncryptionTransportAuthority}
    (materialized : materializeTransports table = .ok authority) :
    authority = sortByKey EncryptionTransportAuthority.transportId
      (table.toList.map fun entry => authorityFromKey entry.2.1 entry.1 entry.2.2) := by
  simp only [materializeTransports, eq_ok_iffs] at materialized
  obtain ⟨listed, collected, rfl⟩ := materialized
  congr 1
  refine eq_map_of_foldlM_append (fun before entry after appended => ?_) collected
  rw [bind_eq_ok] at appended
  obtain ⟨-, -, done⟩ := appended
  exact (Except.ok.inj done).symm

/-- Everything in a table of transports is the tunnel of an epoch to a node, under its id. -/
def TunnelsOf (digests : EncryptionDigests) (epochs : List FastPathEpochAdmission)
    (table : TransportIndex) : Prop :=
  ∀ (key : CoalescingKey) (value : UInt64 × FastPathEpochAdmission), table[key]? = some value →
    value.1 = transportId digests key ∧ value.2 ∈ epochs ∧ ∃ uid, key = value.2.keyTo uid

/-- Nothing of a table is lost or changed. -/
def ExtendedTo (transports table : TransportIndex) : Prop :=
  ∀ (key : CoalescingKey) (value : UInt64 × FastPathEpochAdmission),
    transports[key]? = some value → table[key]? = some value

section Draining

variable {epoch : FastPathEpochAdmission} {transports after table : TransportIndex}
  {planIndex : Nat}

theorem keepTransport_eq_ok : keepTransport digests epoch transports planIndex = .ok after ↔
      ∃ key, transportKey epoch planIndex = .ok key ∧ after = if key ∈ transports then transports
          else transports.insert key (transportId digests key, epoch) := by
  simp only [keepTransport, eq_ok_iffs, ExtTreeMap.contains_iff_mem, eq_comm (a := after)]

theorem extendedTo_keepTransport
    (kept : keepTransport digests epoch transports planIndex = .ok after) :
    ExtendedTo transports after := by
  obtain ⟨added, -, rfl⟩ := keepTransport_eq_ok.mp kept
  intro key value found
  split
  · exact found
  · next absent =>
      rw [getElem?_map_insert, if_neg, found]
      rintro rfl
      exact absent (isSome_getElem?_iff_mem.mp (by rw [found]; rfl))

theorem ExtendedTo.trans (first : ExtendedTo transports after) (second : ExtendedTo after table) :
    ExtendedTo transports table :=
  fun key value found => second key value (first key value found)

theorem TunnelsOf.keepTransport (tunnels : TunnelsOf digests epochs transports)
    (member : epoch ∈ epochs)
    (kept : keepTransport digests epoch transports planIndex = .ok after) :
    TunnelsOf digests epochs after := by
  obtain ⟨added, keyed, rfl⟩ := keepTransport_eq_ok.mp kept
  obtain ⟨plan, -, -, rfl⟩ := exists_plan_of_transportKey keyed
  split
  · exact tunnels
  · exact forall_getElem?_insert ⟨rfl, member, _, rfl⟩ tunnels

variable (drained : addDrainingTransports digests epochs transports = .ok table)

include drained

theorem addDrainingTransports_loop :
    (epochs.filter fun epoch => epoch.state == .draining).foldlM
      (fun transports epoch => (range epoch.contract.plans.length).foldlM
        (keepTransport digests epoch) transports) transports = .ok table := by
  simp only [addDrainingTransports, eq_ok_iffs] at drained
  obtain ⟨_, done, -, rfl⟩ := drained
  exact done

/-- Draining transports come in addition to those in use. -/
theorem extendedTo_addDrainingTransports :
    ExtendedTo transports table := by
  refine foldlM_invariant (fun _ _ found => found) (fun epoch _ before after extended inner => ?_)
    (addDrainingTransports_loop drained)
  exact foldlM_invariant extended (fun planIndex _ before after extended kept =>
    extended.trans (extendedTo_keepTransport kept)) inner

omit drained

theorem TunnelsOf.addDrainingTransports (tunnels : TunnelsOf digests epochs transports)
    (drained : addDrainingTransports digests epochs transports = .ok table) :
    TunnelsOf digests epochs table := by
  refine foldlM_invariant tunnels (fun epoch member before after tunnels inner => ?_)
    (addDrainingTransports_loop drained)
  exact foldlM_invariant tunnels (fun planIndex _ before after tunnels kept =>
    tunnels.keepTransport (mem_filter.mp member).1 kept) inner

end Draining

namespace Built

variable {admitted : AdmittedEpochs} {outcomes : List GroupOutcome} {table : TransportIndex}
  (built : Built digests context epochs inputs state admitted outcomes table)
include built

theorem config_eq : state.config =
    { generation := context.generation.get
      policyRevision := context.policyRevision.get
      serviceRevision := context.serviceRevision.get
      egressRevision := context.egressRevision.get
      decisionCount := ofNat state.decisionAuthority.length
      transportCount := ofNat state.transportAuthority.length
      schemaVersion := encryptionMapAbiVersion
      activeBank := context.bank
      epochCount := UInt8.ofNat epochs.length
      pathCount := ofNat state.pathAuthority.length } :=
  (mapConfig_eq_ok.mp built.config).2

theorem map_pair : (outcomes.map decision).map FastPathDecisionAuthority.pair =
    (groupInputs inputs).toList.map Prod.fst := by
  apply built.compile.groups.map_pair
  intro group member input inputMember
  obtain ⟨same, -⟩ := getElem?_groupInputs.mp (mem_toList_iff_getElem?_eq_some.mp member)
  rw [same] at inputMember
  exact (mem_inputsOf.mp inputMember).2

theorem nodup_pair : (state.decisionAuthority.map FastPathDecisionAuthority.pair).Nodup := by
  rw [built.decisionAuthority, ((sortByKey_perm _ _).map _).nodup_iff, built.map_pair,
    nodup_iff_pairwise_ne, pairwise_map]
  exact distinct_keys_toList.imp fun different same =>
    different (compare_eq_iff_eq.mpr same)

variable {pair : IdentityId ×ₗ IdentityId} {transport : EncryptionTransportAuthority}

/-- A pair that was given has the decision that was compiled for it. -/
theorem find?_pair_of_given (given : inputsOf inputs pair ≠ []) : ∃ outcome ∈ outcomes,
      GroupCompiles digests context admitted pair (inputsOf inputs pair) outcome ∧
      (state.decisionAuthority.find? fun decision => decision.pair == pair) =
        some outcome.decision := by
  obtain ⟨outcome, member, compiles⟩ := built.compile.groups.exists_outcome given
  refine ⟨outcome, member, compiles, ?_⟩
  rw [find?_key_eq_some_iff built.nodup_pair, built.decisionAuthority, mem_sortByKey]
  exact ⟨mem_map_of_mem member,
    compiles.decision_pair fun input inputMember => (mem_inputsOf.mp inputMember).2⟩

/-- A pair that was not given has no decision. -/
theorem find?_pair_of_not_given (missing : inputsOf inputs pair = []) :
    (state.decisionAuthority.find? fun decision => decision.pair == pair) = none := by
  rw [find?_eq_none]
  intro decision member same
  rw [beq_iff_eq] at same
  rw [built.decisionAuthority, mem_sortByKey] at member
  have listed : pair ∈ (groupInputs inputs).toList.map Prod.fst := by
    rw [← built.map_pair, ← same]
    exact mem_map_of_mem member
  obtain ⟨group, groupMember, rfl⟩ := mem_map.mp listed
  obtain ⟨own, nonempty⟩ := getElem?_groupInputs.mp (mem_toList_iff_getElem?_eq_some.mp groupMember)
  exact nonempty (own.trans missing)

/-! ## Transports -/

theorem mem_transportAuthority : transport ∈ state.transportAuthority ↔
      ∃ (key : CoalescingKey) (value : UInt64 × FastPathEpochAdmission),
        table[key]? = some value ∧ transport = authorityFromKey value.1 key value.2 := by
  rw [materializeTransports_eq built.materialized, mem_sortByKey, mem_map]
  constructor
  · rintro ⟨entry, member, rfl⟩
    exact ⟨entry.1, entry.2, mem_toList_iff_getElem?_eq_some.mp member, rfl⟩
  · rintro ⟨key, value, found, rfl⟩
    exact ⟨(key, value), mem_toList_iff_getElem?_eq_some.mpr found, rfl⟩

theorem nodup_transportId :
    (state.transportAuthority.map EncryptionTransportAuthority.transportId).Nodup := by
  have valid := (checks_of_verifyIntegrity built.verified).1
  rw [transportIdsAreValid, Bool.and_eq_true, decide_eq_true_iff] at valid
  exact valid.2

/-- The transport that a plan of the inputs is bound to is in the bank. -/
theorem find?_binding {binding : RequiredBinding} (member : binding ∈ outcomes.flatMap bindings) :
    (state.transportAuthority.find? fun transport => transport.transportId == binding.transportId) =
      some (authorityFromKey binding.transportId binding.key binding.epoch) := by
  rw [find?_key_eq_some_iff built.nodup_transportId, built.mem_transportAuthority]
  refine ⟨⟨binding.key, (binding.transportId, binding.epoch), ?_, rfl⟩, rfl⟩
  apply extendedTo_addDrainingTransports built.drained
  rw [boundTransports, getElem?_register
    (built.compile.transports_registrable (oneActive_of_valid built.valid built.admission))]
  exact .inl (mem_map_of_mem member)

theorem tunnelsOf : TunnelsOf digests epochs table := by
  refine TunnelsOf.addDrainingTransports ?_ built.drained
  intro key value found
  rw [boundTransports, getElem?_register
    (built.compile.transports_registrable (oneActive_of_valid built.valid built.admission)),
    transportEntries, mem_map] at found
  rcases found with ⟨binding, member, same⟩ | absent
  · cases same
    obtain ⟨input, sound⟩ := built.compile.groups.bindingSound member
    obtain ⟨number, -, admitted⟩ := sound.epoch
    exact ⟨sound.transportId,
      ((getElem?_admitted built.admission number binding.epoch).mp admitted).1, _, sound.key⟩
  · simp at absent

/-- A bank with a transport has an epoch. -/
theorem epochs_ne_nil_of_transport (member : transport ∈ state.transportAuthority) :
    epochs ≠ [] := by
  obtain ⟨key, value, found, rfl⟩ := built.mem_transportAuthority.mp member
  obtain ⟨-, epochMember, -⟩ := built.tunnelsOf key value found
  exact ne_nil_of_mem epochMember

/-! ## Paths -/

theorem mem_pathAuthority {path : EncryptionPathAuthority} :
    path ∈ state.pathAuthority ↔ path ∈ outcomes.flatMap paths := by
  rw [built.pathAuthority, mem_tableValues]
  simp only [boundPaths, getElem?_register built.compile.registrable]
  simp only [pathEntries, mem_map, Prod.mk.injEq, getElem?_empty, reduceCtorEq, or_false]
  constructor
  · rintro ⟨_, _, member, rfl, rfl⟩
    exact member
  · intro member
    exact ⟨_, path, member, rfl, rfl⟩

end Built

end Unf.Encryption
