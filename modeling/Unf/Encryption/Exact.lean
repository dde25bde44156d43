import Unf.Encryption.MirrorSpec

/-!
# Authority of a pair

A new flow of a pair is encrypted towards a node that a plan of the pair names, native exactly
for a pair that was given as native, and dropped for a pair that was not given. All pairs with
several plans share one table of paths, so for them this holds only as far as they agree on the
prefixes in it.
-/

namespace Unf.Encryption

open Unf.Lib Unf.Egress List RequiredBinding
open Unf.Service (Revision)

variable {digests : EncryptionDigests} {context : FastPathCompileContext}
  {epochs : List FastPathEpochAdmission} {inputs : List FastPathDecisionInput}
  {state : EncryptionFastPathState} {admitted : AdmittedEpochs} {outcomes : List GroupOutcome}
  {table : TransportIndex}

/-! ## Authority -/

/-- The plan that an input names. -/
structure NamesPlan (epochs : List FastPathEpochAdmission) (input : FastPathDecisionInput)
    (epoch : FastPathEpochAdmission) (plan : AttestedEncryptionPathPlan) : Prop where
  admitted : epoch ∈ epochs
  numbered : input.contractEpoch = some epoch.contract.epoch
  listed : ∃ index : Nat, input.planIndex = some index ∧ epoch.contract.plans[index]? = some plan

/-- A plan of the pair, of the only active epoch, leads to the node of the transport. Of several
plans it is one whose prefixes contain the destination. -/
def AuthorizedBy (epochs : List FastPathEpochAdmission) (inputs : List FastPathDecisionInput)
    (packet : FastPathPacketContext) (transport : EncryptionTransportAuthority) : Prop :=
  ∃ input ∈ inputsOf inputs packet.pair, ∃ epoch plan, NamesPlan epochs input epoch plan ∧
    (epoch.state = .active ∧ ∀ other ∈ epochs, other.state = .active → other = epoch) ∧
    (plan.source.identity = packet.sourceIdentity ∧
      plan.destination.identity = packet.destinationIdentity) ∧
    transport.destinationNodeUid = plan.destination.node.uid ∧
    transport.keyEpoch = plan.transport.forward.epoch ∧
    (1 < (inputsOf inputs packet.pair).length → ∃ ipPrefix ∈ plan.transport.forward.allowedIps,
        ipPrefix.contains packet.destinationAddress = true)

/-- The bank decides every pair as it was given. -/
structure Exact (digests : EncryptionDigests) (context : FastPathCompileContext)
    (epochs : List FastPathEpochAdmission) (inputs : List FastPathDecisionInput)
    (state : EncryptionFastPathState) : Prop where
  order : ∀ epochs' inputs', epochs.Perm epochs' → inputs.Perm inputs' →
    compileEncryptionFastPath digests context epochs' inputs' = .ok state
  integrity : state.verifyIntegrity digests = .ok ()
  encrypted : ∀ packet outerFwmark routeMark routeMarkMask routeTable interfaceIndex mtu lease,
    selectEncryptionTransport state packet none = .encrypt outerFwmark routeMark routeMarkMask
      routeTable interfaceIndex mtu lease →
    ∃ transport ∈ state.transportAuthority, transport.transportId = lease.transportId ∧
      AuthorizedBy epochs inputs packet transport
  native : ∀ packet, AtBank context packet →
    (selectEncryptionTransport state packet none = .native ↔
      ∃ input ∈ inputsOf inputs packet.pair, input.disposition = .native)
  missing : ∀ packet, inputsOf inputs packet.pair = [] →
    ∃ reason, selectEncryptionTransport state packet none = .drop reason

/-- A prefix of the plans that a pair names. -/
def PlanPrefix (epochs : List FastPathEpochAdmission) (inputs : List FastPathDecisionInput)
    (pair : IdentityId ×ₗ IdentityId) (ipPrefix : IpPrefix) : Prop :=
  ∃ input ∈ inputsOf inputs pair, ∃ epoch plan, NamesPlan epochs input epoch plan ∧
    ipPrefix ∈ plan.transport.forward.allowedIps

/-- As long as the active epoch carries new flows, all pairs with several plans have the same
prefixes. -/
def SharesPrefixes (epochs : List FastPathEpochAdmission) (inputs : List FastPathDecisionInput) :
    Prop :=
  ∀ epoch ∈ epochs, epoch.state = .active → epoch.contract.contractRevision.get ≠ 0 →
    epoch.readinessDigest.leading ≠ 0 → ∀ pair other,
      1 < (inputsOf inputs pair).length → 1 < (inputsOf inputs other).length →
        ∀ ipPrefix, PlanPrefix epochs inputs pair ipPrefix → PlanPrefix epochs inputs other ipPrefix

/-- No hash of a compiled state is the zero that stands for a missing one. -/
structure EncryptionFastPathState.NeverZero (state : EncryptionFastPathState) : Prop where
  decisions : ∀ decision ∈ state.decisionAuthority, decision.transportId = none →
    decision.decisionWitness ≠ 0
  paths : ∀ path ∈ state.pathAuthority, path.bindingWitness ≠ 0
  configurations : ∀ transport ∈ state.transportAuthority,
    transport.kernelConfigurationDigest.leading ≠ 0

instance (state : EncryptionFastPathState) : Decidable state.NeverZero :=
  decidable_of_iff ((∀ decision ∈ state.decisionAuthority, decision.transportId = none →
    decision.decisionWitness ≠ 0) ∧ (∀ path ∈ state.pathAuthority, path.bindingWitness ≠ 0) ∧
    ∀ transport ∈ state.transportAuthority, transport.kernelConfigurationDigest.leading ≠ 0)
    ⟨fun never => ⟨never.1, never.2.1, never.2.2⟩,
      fun never => ⟨never.decisions, never.paths, never.configurations⟩⟩

/-! ## Bindings -/

/-- The path of a prefix to the transport of a plan. -/
def RequiredBinding.pathTo (digests : EncryptionDigests) (binding : RequiredBinding)
    (ipPrefix : IpPrefix) : EncryptionPathAuthority :=
  pathAuthority digests binding.transportId binding.epoch.contract.contractRevision
    binding.epoch.contract.epoch ipPrefix

/-- Every input of a pair with several plans is bound. -/
theorem GroupCompiles.exists_binding {pair : IdentityId ×ₗ IdentityId}
    {group : List FastPathDecisionInput} {outcome : GroupOutcome}
    (compiles : GroupCompiles digests context admitted pair group outcome)
    (several : 1 < group.length) {input : FastPathDecisionInput} (member : input ∈ group) :
    ∃ binding ∈ outcome.bindings, BindingSound digests context admitted input binding := by
  cases compiles with
  | native => simp at several
  | single => simp at several
  | replicated _ replicated =>
    obtain ⟨binding, bindingMember, bound⟩ :=
      exists_mem_mapM_of_mem (mapM_eq_ok_iff.mpr replicated.bound) member
    exact ⟨binding, bindingMember, bindingSound_of_requiredBinding bound⟩

/-! ## The shared table of paths -/

theorem contains_address_of_isCanonical {ipPrefix : IpPrefix}
    (canonical : ipPrefix.isCanonical = true) : ipPrefix.contains ipPrefix.address = true := by
  obtain ⟨address, prefixLen⟩ := ipPrefix
  cases address <;> exact Cidr.Canonical.contains_network (of_decide_eq_true canonical)

section Built

variable (built : Built digests context epochs inputs state admitted outcomes table)
include built

variable {input : FastPathDecisionInput} {epoch : FastPathEpochAdmission}
  {binding : RequiredBinding} {pair : IdentityId ×ₗ IdentityId} {group : List FastPathDecisionInput}

theorem Built.namesPlan (sound : BindingSound digests context admitted input binding) :
    NamesPlan epochs input binding.epoch binding.plan := by
  obtain ⟨number, numbered, found⟩ := sound.epoch
  obtain ⟨member, rfl⟩ := (getElem?_admitted built.admission number binding.epoch).mp found
  exact ⟨member, numbered, sound.plan⟩

/-- An input names one plan. -/
theorem Built.eq_of_namesPlan {epoch' : FastPathEpochAdmission}
    {plan plan' : AttestedEncryptionPathPlan} (names : NamesPlan epochs input epoch plan)
    (names' : NamesPlan epochs input epoch' plan') : epoch = epoch' ∧ plan = plan' := by
  have numbers : epoch.contract.epoch = epoch'.contract.epoch :=
    Option.some.inj (names.numbered.symm.trans names'.numbered)
  have distinct := (admitEpochs_eq_ok.mp built.admission).2.1
  obtain rfl := inj_on_of_nodup_map distinct names.admitted names'.admitted numbers
  obtain ⟨index, indexed, listed⟩ := names.listed
  obtain ⟨index', indexed', listed'⟩ := names'.listed
  obtain rfl : index = index' := Option.some.inj (indexed.symm.trans indexed')
  exact ⟨rfl, Option.some.inj (listed.symm.trans listed')⟩

theorem Built.epochSound (member : epoch ∈ epochs) : EpochSound epoch :=
  epochSound_of_validateEpoch ((admitEpochs_eq_ok.mp built.admission).1 epoch member)

theorem Built.eq_of_active {other : FastPathEpochAdmission} (member : epoch ∈ epochs)
    (otherMember : other ∈ epochs) (active : epoch.state = .active)
    (otherActive : other.state = .active) : other = epoch :=
  eq_of_countP_eq_one (built.valid.oneActive (ne_nil_of_mem member)) otherMember member
    (by simpa using otherActive) (by simpa using active)

/-- The transport of a plan of the pair is authorized by the plan. -/
theorem Built.authorizedBy {packet : FastPathPacketContext}
    (given : input ∈ inputsOf inputs packet.pair)
    (sound : BindingSound digests context admitted input binding)
    (contained : 1 < (inputsOf inputs packet.pair).length →
      ∃ ipPrefix ∈ binding.plan.transport.forward.allowedIps,
        ipPrefix.contains packet.destinationAddress = true) : AuthorizedBy epochs inputs packet
      (authorityFromKey binding.transportId binding.key binding.epoch) := by
  have names := built.namesPlan sound
  have pair : input.pair = packet.pair := (mem_inputsOf.mp given).2
  have source : input.sourceIdentity = packet.sourceIdentity :=
    congrArg (fun pair => (ofLex pair).1) pair
  have destination : input.destinationIdentity = packet.destinationIdentity :=
    congrArg (fun pair => (ofLex pair).2) pair
  refine ⟨input, given, binding.epoch, binding.plan, names, ⟨sound.active, ?_⟩,
    ⟨sound.source.trans source, sound.destination.trans destination⟩, ?_, ?_, contained⟩
  · intro other otherMember otherActive
    exact built.eq_of_active names.admitted otherMember sound.active otherActive
  · rw [sound.key]
    rfl
  · rw [sound.key, sound.pathEpoch]
    rfl

/-- The path of a prefix of a plan. -/
theorem Built.mem_paths_iff
    {outcome : GroupOutcome} (compiles : GroupCompiles digests context admitted pair group outcome)
    {path : EncryptionPathAuthority} :
    path ∈ outcome.paths ↔ group.length ≠ 1 ∧ ∃ binding ∈ outcome.bindings,
      ∃ ipPrefix ∈ binding.plan.transport.forward.allowedIps,
        path = binding.pathTo digests ipPrefix := by
  cases compiles with
  | native => simp
  | single => simp
  | @replicated _ bindings revision number several replicated =>
    have same (binding : RequiredBinding) (member : binding ∈ bindings) :
        binding.epoch.contract.contractRevision = revision ∧
          binding.epoch.contract.epoch = number := by
      refine ⟨replicated.revision binding member, ?_⟩
      obtain ⟨input, inputMember, sound⟩ := replicated.bound.sound binding member
      have numbered := (built.namesPlan sound).numbered
      exact Option.some.inj (numbered.symm.trans (replicated.epoch input inputMember))
    simp only [mem_flatMap, paths, mem_map, ne_eq, several, not_false_eq_true, true_and]
    constructor
    · rintro ⟨binding, member, ipPrefix, listed, rfl⟩
      refine ⟨binding, member, ipPrefix, listed, ?_⟩
      rw [pathTo, (same binding member).1, (same binding member).2]
    · rintro ⟨binding, member, ipPrefix, listed, rfl⟩
      refine ⟨binding, member, ipPrefix, listed, ?_⟩
      rw [pathTo, (same binding member).1, (same binding member).2]

variable {path : EncryptionPathAuthority} {packet : FastPathPacketContext}

/-- A path of the bank comes from a plan of a pair with several plans. -/
theorem Built.exists_of_mem_pathAuthority (member : path ∈ state.pathAuthority) :
    ∃ pair, 1 < (inputsOf inputs pair).length ∧ PlanPrefix epochs inputs pair path.ipPrefix ∧
      ∃ binding ∈ outcomes.flatMap GroupOutcome.bindings,
        binding.epoch ∈ epochs ∧ binding.epoch.state = .active ∧
        binding.key = binding.epoch.keyTo binding.plan.destination.node.uid ∧
        path = binding.pathTo digests path.ipPrefix := by
  rw [built.mem_pathAuthority, mem_flatMap] at member
  obtain ⟨outcome, outcomeMember, pathMember⟩ := member
  obtain ⟨pair, given, compiles⟩ := built.compile.groups.exists_pair outcomeMember
  obtain ⟨notOne, binding, bindingMember, ipPrefix, listed, rfl⟩ :=
    (built.mem_paths_iff compiles).mp pathMember
  obtain ⟨input, inputMember, sound⟩ := compiles.sound binding bindingMember
  have names := built.namesPlan sound
  have several : 1 < (inputsOf inputs pair).length := by
    have positive := length_pos_iff.mpr given
    omega
  exact ⟨pair, several, ⟨input, inputMember, binding.epoch, binding.plan, names, listed⟩, binding,
    mem_flatMap.mpr ⟨outcome, outcomeMember, bindingMember⟩, names.admitted, sound.active,
    sound.key, rfl⟩

/-- A prefix of a pair with several plans is in the table, bound to the transport of the plan. -/
theorem Built.exists_path_of_planPrefix {ipPrefix : IpPrefix}
    (several : 1 < (inputsOf inputs pair).length)
    (planned : PlanPrefix epochs inputs pair ipPrefix) :
    ∃ input ∈ inputsOf inputs pair, ∃ binding ∈ outcomes.flatMap GroupOutcome.bindings,
      BindingSound digests context admitted input binding ∧
      ipPrefix ∈ binding.plan.transport.forward.allowedIps ∧
      binding.pathTo digests ipPrefix ∈ state.pathAuthority := by
  obtain ⟨input, inputMember, epoch, plan, names, listed⟩ := planned
  obtain ⟨outcome, outcomeMember, compiles⟩ :=
    built.compile.groups.exists_outcome (ne_nil_of_mem inputMember)
  obtain ⟨binding, bindingMember, sound⟩ := compiles.exists_binding several inputMember
  obtain ⟨rfl, rfl⟩ := built.eq_of_namesPlan names (built.namesPlan sound)
  refine ⟨input, inputMember, binding,
    mem_flatMap.mpr ⟨outcome, outcomeMember, bindingMember⟩, sound, listed, ?_⟩
  rw [built.mem_pathAuthority, mem_flatMap]
  exact ⟨outcome, outcomeMember, (built.mem_paths_iff compiles).mpr
    ⟨by omega, binding, bindingMember, ipPrefix, listed, rfl⟩⟩

/-- The transport of a bound plan is in the bank. -/
theorem Built.mem_authority {binding : RequiredBinding}
    (member : binding ∈ outcomes.flatMap GroupOutcome.bindings) :
    authorityFromKey binding.transportId binding.key binding.epoch ∈ state.transportAuthority :=
  mem_of_find?_eq_some (built.find?_binding member)

/-- Pairs that agree on the prefixes encrypt only towards nodes of their own plans. -/
theorem Built.encrypted_authorized (shares : SharesPrefixes epochs inputs)
    {outerFwmark routeMark routeMarkMask : Mark} {routeTable interfaceIndex mtu : UInt32}
    {lease : CausalEpochLease}
    (selected : selectNewTransport state packet = .encrypt outerFwmark routeMark routeMarkMask
      routeTable interfaceIndex mtu lease) :
    ∃ transport ∈ state.transportAuthority, transport.transportId = lease.transportId ∧
      AuthorizedBy epochs inputs packet transport := by
  obtain ⟨decision, transportId, transport, new, granted⟩ :=
    exists_of_selectNewTransport_eq_encrypt selected
  obtain rfl : transportId = lease.transportId := by
    obtain ⟨routeMark, marked⟩ := exists_routeMark_of_usable new.usable
    rw [encrypted_eq marked] at granted
    cases granted
    rfl
  have resolved := new.resolved
  have required := new.required
  have foundTransport := (built.transportOf_eq _).symm.trans new.present
  obtain ⟨outcome, member, compiles, rfl⟩ := built.exists_outcome_of_found new.found
  have bindings (binding : RequiredBinding) (bindingMember : binding ∈ outcome.bindings) :
      binding ∈ outcomes.flatMap GroupOutcome.bindings :=
    mem_flatMap.mpr ⟨outcome, member, bindingMember⟩
  generalize group : inputsOf inputs packet.pair = inputsHere at compiles
  cases compiles with
  | native native decided =>
    obtain ⟨-, rfl⟩ := nativeDecision_eq_ok.mp decided
    rw [native] at required
    cases required
  | @single input binding _ bound =>
    have sound := bindingSound_of_requiredBinding bound
    have own : binding.transportId = lease.transportId := by
      rw [resolveNewTransportId_of_some rfl
        (sound.transportId ▸ transportId_ne_zero digests binding.key)] at resolved
      exact Except.ok.inj resolved
    refine ⟨_, built.mem_authority (bindings binding mem_cons_self), own,
      built.authorizedBy (group ▸ mem_cons_self) sound fun several => ?_⟩
    rw [group] at several
    exact absurd several (lt_irrefl 1)
  | @replicated _ plans revision number several replicated =>
    obtain ⟨path, pathMember, contained, -, -, -, pathId⟩ :=
      (built.resolveNewTransportId_of_none rfl rfl _).mp resolved
    obtain ⟨other, otherSeveral, planned, carrier, carrierMember, epochMember, active, keyed,
      pathEq⟩ := built.exists_of_mem_pathAuthority pathMember
    have carrierId : carrier.transportId = lease.transportId := by
      rw [← pathId, pathEq]
      rfl
    -- the transport that was found is the one of the plan that the path comes from
    rw [← carrierId, built.find?_binding carrierMember, keyed] at foundTransport
    obtain rfl := Option.some.inj foundTransport
    obtain ⟨revisionNonzero, -, readiness⟩ :=
      (usable_lowerTransport_active (built.epochSound epochMember) active _ _ _ _).mp new.usable
    have severalHere : 1 < (inputsOf inputs packet.pair).length := by
      have positive := length_pos_iff.mpr replicated.nonempty
      rw [group]
      omega
    obtain ⟨input, inputMember, binding, bindingMember, sound, listed, ownMember⟩ :=
      built.exists_path_of_planPrefix severalHere (shares carrier.epoch epochMember active
        revisionNonzero readiness other packet.pair otherSeveral severalHere _ planned)
    have samePath := built.path_unique pathMember ownMember contained contained
    have own : binding.transportId = lease.transportId := by
      rw [← pathId, samePath]
      rfl
    exact ⟨_, built.mem_authority bindingMember, own, built.authorizedBy inputMember sound
      fun _ => ⟨path.ipPrefix, listed, contained⟩⟩

/-- A new flow is native exactly for a pair that was given as native. -/
theorem Built.native_iff (nonzero : state.NeverZero) (atBank : AtBank context packet) :
    selectNewTransport state packet = .native ↔
      ∃ input ∈ inputsOf inputs packet.pair, input.disposition = .native := by
  rw [built.selectNewTransport_eq_native_iff atBank]
  apply and_iff_left_of_imp
  rintro ⟨input, member, native⟩
  exact nonzero.decisions _ (mem_of_find?_eq_some (built.find?_pair_of_native member native)) rfl

theorem Built.canonical_of_mem_pathAuthority (member : path ∈ state.pathAuthority) :
    path.ipPrefix.isCanonical = true := by
  have valid := (checks_of_verifyIntegrity built.verified).2
  rw [pathsAreValid, Bool.and_eq_true, all_eq_true] at valid
  have own := valid.1 path member
  rw [Bool.and_eq_true, Bool.and_eq_true] at own
  exact own.1.1

/-- The contract of a pair with several plans is the one of the active epoch. -/
theorem Built.replicated_active {plans : List RequiredBinding}
    {revision : Revision} {number : UInt64}
    (replicated : Replicated digests context admitted group plans revision number)
    (member : epoch ∈ epochs) (active : epoch.state = .active) :
    revision = epoch.contract.contractRevision ∧ number = epoch.contract.epoch := by
  obtain ⟨input, inputMember⟩ := exists_mem_of_ne_nil group replicated.nonempty
  obtain ⟨binding, bindingMember, bound⟩ :=
    exists_mem_mapM_of_mem (mapM_eq_ok_iff.mpr replicated.bound) inputMember
  have sound := bindingSound_of_requiredBinding bound
  have names := built.namesPlan sound
  obtain rfl := built.eq_of_active member names.admitted active sound.active
  exact ⟨(replicated.revision binding bindingMember).symm,
    Option.some.inj ((replicated.epoch input inputMember).symm.trans names.numbered)⟩

/-- A packet of a pair with several plans is encrypted with the path of its destination,
whichever pair the path comes from. -/
theorem Built.exists_encrypted (nonzero : state.NeverZero) (epochMember : epoch ∈ epochs)
    (active : epoch.state = .active) (revision : epoch.contract.contractRevision.get ≠ 0)
    (readiness : epoch.readinessDigest.leading ≠ 0) (atBank : AtBank context packet)
    (several : 1 < (inputsOf inputs packet.pair).length) (member : path ∈ state.pathAuthority)
    (contained : path.ipPrefix.contains packet.destinationAddress = true) :
    ∃ outerFwmark routeMark routeMarkMask routeTable interfaceIndex mtu lease,
      selectEncryptionTransport state packet none = .encrypt outerFwmark routeMark routeMarkMask
        routeTable interfaceIndex mtu lease := by
  have epochSound := built.epochSound epochMember
  obtain ⟨outcome, -, compiles, found⟩ :=
    built.find?_pair_of_given (length_pos_iff.mp (Nat.zero_lt_of_lt several))
  obtain ⟨-, -, -, carrier, carrierMember, carrierAdmitted, carrierActive, keyed, pathEq⟩ :=
    built.exists_of_mem_pathAuthority member
  have sameEpoch := built.eq_of_active epochMember carrierAdmitted active carrierActive
  generalize inputsOf inputs packet.pair = group at compiles several
  cases compiles with
  | native => exact absurd several (lt_irrefl 1)
  | single => exact absurd several (lt_irrefl 1)
  | @replicated _ plans _ _ _ replicated =>
    obtain ⟨rfl, rfl⟩ := built.replicated_active replicated epochMember active
    have carrierId : carrier.transportId = path.transportId := by
      rw [pathEq]
      rfl
    have new : NewTransport state packet
        (lowerDecision context (replicatedDecision digests context packet.pair plans
          epoch.contract.contractRevision epoch.contract.epoch)).2 path.transportId
        (lowerTransport context.bank (authorityFromKey carrier.transportId
          (epoch.keyTo carrier.plan.destination.node.uid) epoch)).2 :=
      { found := by
          apply (built.decisionFor_eq packet).trans
          rw [found]
          rfl
        matching := by
          rw [decisionMatches_lowerDecision atBank, bne_iff_ne]
          exact nonzero.decisions _ (mem_of_find?_eq_some found) rfl
        required := disposition_lowerDecision_eq_required.mpr rfl
        contractRevision := revision
        keyEpoch := epochSound.kernelEpoch ▸ epochSound.epochNonzero
        resolved := by
          refine (built.resolveNewTransportId_of_none rfl rfl _).mpr
            ⟨path, member, contained, ?_, ?_, ?_, rfl⟩
          · rw [pathEq, pathTo, sameEpoch]
            rfl
          · rw [pathEq, pathTo, sameEpoch]
            rfl
          · exact nonzero.paths path member
        present := by
          apply (built.transportOf_eq path.transportId).trans
          rw [← carrierId, built.find?_binding carrierMember, keyed, sameEpoch]
          rfl
        sameEpoch := epochSound.kernelEpoch.symm
        sameRevision := rfl
        usable := by
          rw [usable_lowerTransport_active epochSound active]
          refine ⟨revision, ?_, readiness⟩
          have configured := nonzero.configurations _ (built.mem_authority carrierMember)
          rwa [keyed, sameEpoch] at configured }
    obtain ⟨routeMark, marked⟩ := exists_routeMark_of_usable new.usable
    rw [built.selectEncryptionTransport_eq atBank]
    exact ⟨_, _, _, _, _, _, _, new.selectNewTransport_eq.trans (encrypted_eq marked _)⟩

/-- An exact bank has all its paths for every pair with several plans. -/
theorem Built.sharesPrefixes_of_exact (nonzero : state.NeverZero)
    (isExact : Exact digests context epochs inputs state) : SharesPrefixes epochs inputs := by
  intro epoch epochMember active revision readiness pair other several otherSeveral ipPrefix
    planned
  obtain ⟨-, -, binding, -, -, -, member⟩ := built.exists_path_of_planPrefix several planned
  have canonical : ipPrefix.isCanonical = true := built.canonical_of_mem_pathAuthority member
  let packet : FastPathPacketContext :=
    { sourceIdentity := (ofLex other).1
      destinationIdentity := (ofLex other).2
      destinationAddress := ipPrefix.address
      policyAuthorized := true
      policyRevision := context.policyRevision
      serviceRevision := context.serviceRevision
      egressRevision := context.egressRevision
      nowMonotonicNs := 0 }
  have atBank : AtBank context packet := ⟨rfl, rfl, rfl, rfl⟩
  have contained : ipPrefix.contains packet.destinationAddress = true :=
    contains_address_of_isCanonical canonical
  obtain ⟨_, _, _, _, _, _, lease, selected⟩ := built.exists_encrypted nonzero epochMember
    active revision readiness atBank otherSeveral member contained
  obtain ⟨transport, -, -, input, inputMember, _, plan, names, -, -, -, -, around⟩ :=
    isExact.encrypted _ _ _ _ _ _ _ _ selected
  obtain ⟨own, listed, ownContained⟩ := around otherSeveral
  obtain ⟨-, -, ownBinding, -, -, -, ownMember⟩ := built.exists_path_of_planPrefix otherSeveral
    ⟨input, inputMember, _, plan, names, listed⟩
  have samePath := built.path_unique member ownMember contained ownContained
  obtain rfl : ipPrefix = own := congrArg EncryptionPathAuthority.ipPrefix samePath
  exact ⟨input, inputMember, _, plan, names, listed⟩

end Built

/-- Without a lease a packet is dropped or looked up as a new flow. -/
theorem selectEncryptionTransport_none (state : EncryptionFastPathState)
    (packet : FastPathPacketContext) :
    selectEncryptionTransport state packet none = selectNewTransport state packet ∨
      ∃ reason, selectEncryptionTransport state packet none = .drop reason := by
  unfold selectEncryptionTransport
  split
  · exact .inr ⟨_, rfl⟩
  split
  · exact .inr ⟨_, rfl⟩
  · exact .inl rfl

/-- The bank decides every pair as it was given exactly when the pairs with several plans agree
on the prefixes in the table they share. -/
theorem exact_iff_sharesPrefixes
    (compiled : compileEncryptionFastPath digests context epochs inputs = .ok state)
    (nonzero : state.NeverZero) :
    Exact digests context epochs inputs state ↔ SharesPrefixes epochs inputs := by
  obtain ⟨admitted, outcomes, table, built⟩ := exists_built compiled
  constructor
  · exact built.sharesPrefixes_of_exact nonzero
  · intro shares
    refine ⟨?_, built.verified, ?_, ?_, ?_⟩
    · intro epochs' inputs' epochPerm inputPerm
      exact compileEncryptionFastPath_perm compiled epochPerm inputPerm
    · intro packet _ _ _ _ _ _ lease selected
      rcases selectEncryptionTransport_none state packet with same | ⟨reason, dropped⟩
      · exact built.encrypted_authorized shares (same.symm.trans selected)
      · rw [dropped] at selected
        cases selected
    · intro packet atBank
      rw [built.selectEncryptionTransport_eq atBank]
      exact built.native_iff nonzero atBank
    · intro packet missing
      rcases selectEncryptionTransport_none state packet with same | dropped
      · exact ⟨_, same.trans (built.selectNewTransport_of_not_given missing)⟩
      · exact dropped

/-! ## Two pairs with several plans -/

/-- Hash functions that tell the nodes of the example apart. -/
def exampleDigests : EncryptionDigests where
  contracts := ⟨fun _ => 1, fun _ => 1, fun _ _ => 1⟩
  kernel := ⟨fun _ => 1, fun _ => BitVec.allOnes 256, fun _ _ => 1, fun _ => 1⟩
  fastPath :=
    { transport := fun key =>
        if key.destinationNodeUid = "b" then 2 else if key.destinationNodeUid = "c" then 3 else 4
      pathBinding := fun _ _ _ _ => 1
      aggregateDecision := fun _ _ _ _ => 1
      nativeDecision := fun _ _ _ => 1
      state := fun _ => 1 }

def exampleNetwork (node : BitVec 32) : IpPrefix :=
  ⟨.v4 (0x0a000000 + (node <<< 8)), 24⟩

def exampleNode (uid : String) (node : BitVec 32) : EncryptionNode where
  clusterId := "cluster"
  name := uid
  uid := uid
  podCidrs := [exampleNetwork node]
  underlayAddresses := [.v4 (0xc0a80000 + node)]
  capabilities := ∅

def exampleKey (uid : String) (node : BitVec 32) : EncryptionKeyBinding where
  nodeUid := uid
  epoch := 1
  publicKey := node.setWidth 256
  publicKeyDigest := 1
  phase := .active

def examplePath (source uid : String) (node : BitVec 32) : EncryptionPathFact where
  sourceNodeUid := source
  destinationNodeUid := uid
  epoch := 1
  pathClass := .managedPod
  peerEndpoint := ⟨.v4 (0xc0a80000 + node), 51820⟩
  allowedIps := [exampleNetwork node]
  interfaceName := "unfwg1"
  routeTable := 100
  fwmark := 0x10000
  mtu := 1440

/-- A plan from the local node, where the source is, to another node. -/
def examplePlan (destination : IdentityId) (uid : String) (node : BitVec 32) :
    AttestedEncryptionPathPlan where
  source := ⟨⟨7⟩, "w", exampleNode "a" 1⟩
  destination := ⟨destination, "w" ++ uid, exampleNode uid node⟩
  disposition := .required
  intentUids := ["intent"]
  policy := ⟨[], .explicitRule, ⟨1⟩, none⟩
  sourceKey := exampleKey "a" 1
  destinationKey := exampleKey uid node
  transport := ⟨examplePath "a" uid node, examplePath uid "a" 1⟩
  revisions := ⟨⟨1⟩, ⟨1⟩, ⟨1⟩, ⟨1⟩, ⟨1⟩⟩

/-- The nodes that the local one has tunnels to. -/
def examplePeers : List (String × BitVec 32) :=
  [("b", 2), ("c", 3), ("d", 4)]

def exampleContract : AttestedEncryptionPathContract where
  schemaVersion := 1
  contractRevision := ⟨1⟩
  localNode := exampleNode "a" 1
  validFromUnixMs := 1
  validUntilUnixMs := 1000
  plans := [examplePlan ⟨8⟩ "b" 2, examplePlan ⟨8⟩ "c" 3, examplePlan ⟨9⟩ "b" 2,
    examplePlan ⟨9⟩ "d" 4]
  verifiedInvariants := []
  failureEnvelope := ⟨[], 0, false⟩
  contractDigest := 1

def exampleKernelPlan : WireGuardKernelPlan where
  schemaVersion := wireguardKernelProviderSchemaVersion
  clusterId := "cluster"
  localNodeUid := "a"
  epoch := 1
  revision := ⟨1⟩
  interfaceName := "unfwg1"
  ownerAlias := "unf:encryption:v2:cluster:a:1"
  localPublicKey := 1
  listenPort := 51820
  fwmark := 0x10000
  routeTable := 100
  mtuEnvelope :=
    { interfaceMtu := 1440
      limitingPeerNodeUid := "b"
      limitingFamily := .ipv4
      limitingUnderlayMtu := 1500
      encapsulationOverhead := 60
      observations := examplePeers.map fun peer => ⟨peer.1, .ipv4, 1500⟩ }
  localPodCidrs := [exampleNetwork 1]
  proofAddresses := [⟨.v4 0x0a0001fe, 32⟩]
  activation := .active
  peers := examplePeers.map fun peer =>
    ⟨peer.1, peer.2.setWidth 256, ⟨.v4 (0xc0a80000 + peer.2), 51820⟩, 25, [exampleNetwork peer.2]⟩
  planDigest := 1

def exampleReadback : WireGuardKernelSnapshot where
  schemaVersion := wireguardKernelSnapshotSchemaVersion
  interfaceName := "unfwg1"
  interfaceIndex := 9
  ownerAlias := "unf:encryption:v2:cluster:a:1"
  isUp := true
  mtu := 1440
  publicKey := 1
  listenPort := 51820
  fwmark := 0x10000
  proofAddresses := [⟨.v4 0x0a0001fe, 32⟩]
  peers := examplePeers.map fun peer =>
    ⟨peer.2.setWidth 256, ⟨.v4 (0xc0a80000 + peer.2), 51820⟩, 25, [exampleNetwork peer.2], 0, 0, 0⟩
  routes := examplePeers.map fun peer =>
    ⟨exampleNetwork peer.2, 9, 100, unfWireguardRouteProtocol, .link⟩
  configurationDigest := BitVec.allOnes 256
  observationDigest := 1

/-- The active epoch, read back from the kernel. -/
def exampleEpoch : FastPathEpochAdmission where
  contract := exampleContract
  transaction :=
    { schemaVersion := proofCarryingKernelTransactionSchemaVersion
      transactionRevision := ⟨1⟩
      plan := exampleKernelPlan
      beforeConfigurationDigest := none
      phase := .committed
      readbackConfigurationDigest := some (BitVec.allOnes 256)
      transactionDigest := 1 }
  readback := exampleReadback
  readinessDigest := BitVec.allOnes 256
  state := .active
  drainUntilMonotonicNs := 0

def exampleContext : FastPathCompileContext :=
  ⟨⟨1⟩, ⟨1⟩, ⟨1⟩, ⟨1⟩, 0, 10, 10⟩

def requiredInput (destination : IdentityId) (planIndex : Nat) : FastPathDecisionInput :=
  ⟨⟨7⟩, destination, .required, some 1, some planIndex⟩

/-- Two pairs with several plans. Only the first one has a plan to the node `c`, and only the
second one a plan to the node `d`. -/
def crossedInputs : List FastPathDecisionInput :=
  [requiredInput ⟨8⟩ 0, requiredInput ⟨8⟩ 1, requiredInput ⟨9⟩ 2, requiredInput ⟨9⟩ 3]

/-- One pair with several plans and one that is not encrypted. -/
def separateInputs : List FastPathDecisionInput :=
  [requiredInput ⟨8⟩ 0, requiredInput ⟨8⟩ 1, ⟨⟨7⟩, ⟨5⟩, .native, none, none⟩]

theorem crossedInputs_compile : ∃ state, compileEncryptionFastPath exampleDigests exampleContext
    [exampleEpoch] crossedInputs = .ok state ∧ state.NeverZero :=
  exists_ok_of_any (by decide +kernel)

theorem separateInputs_compile : ∃ state, compileEncryptionFastPath exampleDigests exampleContext
    [exampleEpoch] separateInputs = .ok state ∧ state.NeverZero :=
  exists_ok_of_any (by decide +kernel)

/-- The second pair sends a packet for the node `c` into the tunnel to that node, which none of
its plans names. -/
theorem crossedInputs_not_exact :
    ∃ state, compileEncryptionFastPath exampleDigests exampleContext [exampleEpoch]
        crossedInputs = .ok state ∧
      ¬Exact exampleDigests exampleContext [exampleEpoch] crossedInputs state := by
  obtain ⟨state, compiled, nonzero⟩ := crossedInputs_compile
  obtain ⟨admitted, outcomes, table, built⟩ := exists_built compiled
  refine ⟨state, compiled, fun isExact => ?_⟩
  have planned : PlanPrefix [exampleEpoch] crossedInputs (toLex (⟨7⟩, ⟨8⟩)) (exampleNetwork 3) :=
    ⟨requiredInput ⟨8⟩ 1, by decide +kernel, exampleEpoch, examplePlan ⟨8⟩ "c" 3,
      ⟨mem_cons_self, rfl, 1, rfl, rfl⟩, mem_cons_self⟩
  obtain ⟨input, given, epoch, plan, names, listed⟩ :=
    built.sharesPrefixes_of_exact nonzero isExact exampleEpoch
      mem_cons_self rfl (by decide) (by decide) _ (toLex (⟨7⟩, ⟨9⟩)) (by decide +kernel)
      (by decide +kernel) _ planned
  have own : inputsOf crossedInputs (toLex (⟨7⟩, ⟨9⟩)) =
      [requiredInput ⟨9⟩ 2, requiredInput ⟨9⟩ 3] := by decide +kernel
  rw [own, mem_pair] at given
  obtain rfl := mem_singleton.mp names.admitted
  obtain ⟨index, indexed, found⟩ := names.listed
  rcases given with rfl | rfl
  · cases indexed
    cases found
    exact absurd listed (by decide)
  · cases indexed
    cases found
    exact absurd listed (by decide)

theorem separateInputs_several (pair : IdentityId ×ₗ IdentityId)
    (several : 1 < (inputsOf separateInputs pair).length) : pair = toLex (⟨7⟩, ⟨8⟩) := by
  by_contra different
  have apart (planIndex : Nat) : ¬decide ((requiredInput ⟨8⟩ planIndex).pair = pair) = true := by
    rw [decide_eq_true_iff]
    exact fun same => different same.symm
  rw [inputsOf, separateInputs, filter_cons_of_neg (by exact apart 0),
    filter_cons_of_neg (by exact apart 1)] at several
  exact absurd several (not_lt.mpr (length_filter_le _ _))

/-- With one pair in the table of paths, every decision is exact. -/
theorem separateInputs_exact :
    ∃ state, compileEncryptionFastPath exampleDigests exampleContext [exampleEpoch]
        separateInputs = .ok state ∧
      Exact exampleDigests exampleContext [exampleEpoch] separateInputs state := by
  obtain ⟨state, compiled, nonzero⟩ := separateInputs_compile
  refine ⟨state, compiled, (exact_iff_sharesPrefixes compiled nonzero).mpr ?_⟩
  intro epoch _ _ _ _ pair other several otherSeveral ipPrefix planned
  rw [separateInputs_several other otherSeveral, ← separateInputs_several pair several]
  exact planned

end Unf.Encryption
