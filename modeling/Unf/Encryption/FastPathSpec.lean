import Unf.Encryption.FastPath

/-!
# What the fast path compiler accepts

The checks of the compiler as conditions on its input, and its tables as what they contain.
The accumulators of the loops are gone here: the table of transports has what the inputs are
bound to and the plans of the draining epoch, the table of paths the prefixes of the pairs with
several plans.
-/

namespace Unf.Encryption

open Std (ExtTreeMap)
open Unf.Lib Unf.Egress List FastPathDecisionInput
open Unf.Service (Revision)

variable {digests : EncryptionDigests} {context : FastPathCompileContext}

/-! ## Context and epochs -/

structure ContextValid (context : FastPathCompileContext) (epochs : List FastPathEpochAdmission)
    (inputs : List FastPathDecisionInput) : Prop where
  bank : context.bank < encryptionBankCount
  generation : context.generation ≠ .initial
  policyRevision : context.policyRevision ≠ .initial
  serviceRevision : context.serviceRevision ≠ .initial
  egressRevision : context.egressRevision ≠ .initial
  nowUnixMs : context.nowUnixMs ≠ 0
  nowMonotonicNs : context.nowMonotonicNs ≠ 0
  fewEpochs : epochs.length ≤ maxFastPathEpochs
  nativeOnly : epochs = [] → ∀ input ∈ inputs, input.disposition = .native
  oneActive : epochs ≠ [] → epochs.countP (fun epoch => epoch.state == .active) = 1
  fewInputs : inputs.length ≤ maxFastPathDecisions

variable {epochs : List FastPathEpochAdmission} {inputs : List FastPathDecisionInput}
  {admitted : AdmittedEpochs} {input : FastPathDecisionInput} {binding : RequiredBinding}
  {transports : TransportIndex} {bindings : List RequiredBinding} {pair : IdentityId ×ₗ IdentityId}
  {compiled : CompiledDecisions} {result : Unit} {epochs' : List FastPathEpochAdmission}
  {epoch : FastPathEpochAdmission} {last : FastPathDecisionInput} {after : PathIndex}

theorem validateContext_eq_ok :
    validateContext context epochs inputs = .ok result ↔ ContextValid context epochs inputs := by
  simp only [validateContext, eq_ok_iffs, eq_false_iffs, Bool.and_eq_false_iff, not_le,
    List.any_eq_false, bne_iff_ne, not_not, List.isEmpty_iff]
  constructor
  · rintro ⟨⟨⟨⟨⟨⟨⟨bank, generation⟩, policy⟩, service⟩, egress⟩, unix⟩, monotonic⟩,
      ⟨⟨fewEpochs, native⟩, active⟩, fewInputs⟩
    exact ⟨bank, generation, policy, service, egress, unix, monotonic, fewEpochs,
      fun empty => native.resolve_left (not_not.mpr empty),
      fun nonempty => active.resolve_left nonempty, fewInputs⟩
  · intro valid
    exact ⟨⟨⟨⟨⟨⟨⟨valid.bank, valid.generation⟩, valid.policyRevision⟩, valid.serviceRevision⟩,
      valid.egressRevision⟩, valid.nowUnixMs⟩, valid.nowMonotonicNs⟩,
      ⟨⟨valid.fewEpochs, or_iff_not_imp_left.mpr fun empty => valid.nativeOnly (not_not.mp empty)⟩,
        or_iff_not_imp_left.mpr valid.oneActive⟩, valid.fewInputs⟩

theorem ContextValid.perm {inputs' : List FastPathDecisionInput}
    (valid : ContextValid context epochs inputs) (epochPerm : epochs.Perm epochs')
    (inputPerm : inputs.Perm inputs') :
    ContextValid context epochs' inputs' where
  bank := valid.bank
  generation := valid.generation
  policyRevision := valid.policyRevision
  serviceRevision := valid.serviceRevision
  egressRevision := valid.egressRevision
  nowUnixMs := valid.nowUnixMs
  nowMonotonicNs := valid.nowMonotonicNs
  fewEpochs := epochPerm.length_eq ▸ valid.fewEpochs
  nativeOnly empty input member := by
    refine valid.nativeOnly ?_ input (inputPerm.mem_iff.mpr member)
    rw [empty] at epochPerm
    exact epochPerm.eq_nil
  oneActive nonempty := by
    rw [← epochPerm.countP_eq]
    refine valid.oneActive fun empty => nonempty ?_
    rw [empty] at epochPerm
    exact epochPerm.symm.eq_nil
  fewInputs := inputPerm.length_eq ▸ valid.fewInputs

/-- A verified plan has an epoch, a route table and room for packets. -/
theorem WireGuardKernelPlan.sound_of_verify {kernel : KernelDigests} {plan : WireGuardKernelPlan}
    (verified : plan.verify kernel = .ok result) :
    plan.epoch ≠ 0 ∧ plan.routeTable ≠ 0 ∧ minWireguardMtu ≤ plan.mtuEnvelope.interfaceMtu := by
  simp only [WireGuardKernelPlan.verify, WireGuardKernelPlan.validateShape, eq_ok_iffs,
    eq_false_iffs] at verified
  obtain ⟨⟨envelope, -, shape, -⟩, -⟩ := verified
  have epoch : plan.epoch ≠ 0 := by tauto
  have routeTable : plan.routeTable ≠ 0 := by tauto
  refine ⟨epoch, routeTable, ?_⟩
  simp only [WireGuardMtuEnvelope.verify, WireGuardMtuEnvelope.derive, eq_ok_iffs, eq_false_iffs]
    at envelope
  obtain ⟨_, ⟨-, -, _, -, limiting, -, range, rfl⟩, derived⟩ := envelope
  rw [← derived]
  exact range.1

/-- What the compiler relies on in an admitted epoch. -/
structure EpochSound (epoch : FastPathEpochAdmission) : Prop where
  kernelEpoch : epoch.transaction.plan.epoch = epoch.contract.epoch
  epochNonzero : epoch.transaction.plan.epoch ≠ 0
  routeTable : epoch.transaction.plan.routeTable ≠ 0
  fwmark : (encryptionRouteMark epoch.transaction.plan.fwmark).isSome = true
  interfaceIndex : epoch.readback.interfaceIndex ≠ 0
  mtu : epoch.transaction.plan.mtuEnvelope.interfaceMtu ≠ 0

theorem epochSound_of_validateEpoch (validated : validateEpoch digests context epoch = .ok result) :
    EpochSound epoch := by
  simp only [validateEpoch, eq_ok_iffs, WireGuardKernelSnapshot.verifyAgainst, eq_false_iffs,
    Option.isNone_eq_false_iff, Bool.and_eq_false_iff, not_le] at validated
  obtain ⟨-, -, ⟨planVerified, -, readback, -⟩, admission⟩ := validated
  obtain ⟨epochNonzero, routeTable, mtu⟩ := WireGuardKernelPlan.sound_of_verify planVerified
  obtain ⟨⟨⟨⟨-, kernelEpoch⟩, fwmark⟩, -⟩, -⟩ := admission
  exact
    { kernelEpoch
      epochNonzero
      routeTable
      fwmark
      interfaceIndex := by tauto
      mtu := by
        intro zero
        rw [zero] at mtu
        exact absurd mtu (by decide) }

theorem admitEpochs_eq_ok : admitEpochs digests context epochs = .ok admitted ↔
      (∀ epoch ∈ epochs, validateEpoch digests context epoch = .ok ()) ∧
      (epochs.map fun epoch => epoch.contract.epoch).Nodup ∧ admitted = epochs.foldl
        (fun admitted epoch => admitted.insert epoch.contract.epoch epoch) ∅ := by
  have step (table : AdmittedEpochs) (epoch : FastPathEpochAdmission) (after : AdmittedEpochs) : (do
        validateEpoch digests context epoch
        failIf (table.contains epoch.contract.epoch) .invalidEpochSet
        pure (table.insert epoch.contract.epoch epoch) : Except FastPathError AdmittedEpochs) =
          .ok after ↔
        (validateEpoch digests context epoch = .ok () ∧ epoch.contract.epoch ∉ table) ∧
          after = table.insert epoch.contract.epoch epoch := by
    simp only [eq_ok_iffs, map_contains_eq_false_iff, and_assoc, eq_comm (a := after)]
  rw [admitEpochs, foldlM_eq_ok_iff step]
  have split : (∀ before epoch rest, epochs = before ++ epoch :: rest →
      validateEpoch digests context epoch = .ok () ∧ ∀ earlier ∈ before,
        earlier.contract.epoch ≠ epoch.contract.epoch) ↔ _ := forall_split_iff
  rw [nodup_iff_pairwise_ne, pairwise_map, ← and_assoc, ← split]
  simp only [mem_foldl_insert_values, ExtTreeMap.not_mem_empty, false_or, not_exists, not_and]

variable (done : admitEpochs digests context epochs = .ok admitted)

include done

/-- The table of the admitted epochs has each of them under its number. -/
theorem getElem?_admitted (number : UInt64) (epoch : FastPathEpochAdmission) :
    admitted[number]? = some epoch ↔ epoch ∈ epochs ∧ epoch.contract.epoch = number := by
  obtain ⟨-, distinct, rfl⟩ := admitEpochs_eq_ok.mp done
  exact getElem?_foldl_insert_empty distinct number epoch

theorem admitEpochs_perm
    (perm : epochs.Perm epochs') : admitEpochs digests context epochs' = .ok admitted := by
  obtain ⟨valid, distinct, rfl⟩ := admitEpochs_eq_ok.mp done
  rw [admitEpochs_eq_ok]
  have distinct' : (epochs'.map fun epoch => epoch.contract.epoch).Nodup :=
    (perm.map _).nodup_iff.mp distinct
  refine ⟨fun epoch member => valid epoch (perm.mem_iff.mpr member), distinct', ?_⟩
  apply ExtTreeMap.ext_getElem?
  intro number
  apply Option.ext
  intro epoch
  rw [getElem?_foldl_insert_empty distinct, getElem?_foldl_insert_empty distinct', perm.mem_iff]

/-! ## Transports -/

omit done

/-- The content of the transport from an epoch to a node. -/
def FastPathEpochAdmission.keyTo (epoch : FastPathEpochAdmission) (destinationNodeUid : String) :
    CoalescingKey where
  trustDomain := epoch.transaction.plan.clusterId
  localNodeUid := epoch.transaction.plan.localNodeUid
  destinationNodeUid := destinationNodeUid
  keyEpoch := epoch.transaction.plan.epoch
  pathClass := .managedPod
  interfaceName := epoch.transaction.plan.interfaceName
  interfaceIndex := epoch.readback.interfaceIndex
  routeTable := epoch.transaction.plan.routeTable
  fwmark := epoch.transaction.plan.fwmark
  mtu := epoch.transaction.plan.mtuEnvelope.interfaceMtu
  kernelConfigurationDigest := epoch.readback.configurationDigest
  readinessDigest := epoch.readinessDigest
  contractRevision := epoch.contract.contractRevision

/-- A plan decides the content of its transport by the node of its destination. -/
theorem exists_plan_of_transportKey {planIndex : Nat} {key : CoalescingKey}
    (found : transportKey epoch planIndex = .ok key) :
    ∃ plan, epoch.contract.plans[planIndex]? = some plan ∧
      plan.transport.forward.epoch = epoch.transaction.plan.epoch ∧
      key = epoch.keyTo plan.destination.node.uid := by
  simp only [transportKey, eq_ok_iffs, eq_false_iffs] at found
  obtain ⟨plan, listed, peer, isPeer, agreement, rfl⟩ := found
  have uid : peer.nodeUid = plan.destination.node.uid := by simpa using find?_some isPeer
  have epochs : plan.transport.forward.epoch = epoch.transaction.plan.epoch := by tauto
  exact ⟨plan, listed, epochs, by rw [FastPathEpochAdmission.keyTo, uid]⟩

theorem transportId_ne_zero (digests : EncryptionDigests) (key : CoalescingKey) :
    transportId digests key ≠ 0 := by
  rw [transportId]
  split
  · decide
  · next nonzero => exact nonzero

/-- Every id is the one of its content. -/
def Derived (digests : EncryptionDigests) (transports : TransportIndex) : Prop :=
  ∀ (key : CoalescingKey) (value : UInt64 × FastPathEpochAdmission),
    transports[key]? = some value → value.1 = transportId digests key

/-- A required input with the plan that it names. -/
structure BindingSound (digests : EncryptionDigests) (context : FastPathCompileContext)
    (admitted : AdmittedEpochs) (input : FastPathDecisionInput) (binding : RequiredBinding) :
    Prop where
  epoch : ∃ number, input.contractEpoch = some number ∧ admitted[number]? = some binding.epoch
  plan : ∃ index : Nat, input.planIndex = some index ∧
    binding.epoch.contract.plans[index]? = some binding.plan
  active : binding.epoch.state = .active
  source : binding.plan.source.identity = input.sourceIdentity
  destination : binding.plan.destination.identity = input.destinationIdentity
  pathEpoch : binding.plan.transport.forward.epoch = binding.epoch.transaction.plan.epoch
  key : binding.key = binding.epoch.keyTo binding.plan.destination.node.uid
  transportId : binding.transportId = transportId digests binding.key

theorem bindingSound_of_requiredBinding
    (bound : requiredBinding digests context admitted input = .ok binding) :
    BindingSound digests context admitted input binding := by
  simp only [requiredBinding, eq_ok_iffs, eq_false_iffs] at bound
  obtain ⟨number, numbered, epoch, admittedEpoch, index, indexed, plan, listed,
    ⟨⟨⟨⟨active, source⟩, destination⟩, -⟩, -⟩, key, keyed, witness, -, rfl⟩ := bound
  obtain ⟨plan', listed', pathEpoch, rfl⟩ := exists_plan_of_transportKey keyed
  obtain rfl : plan = plan' := Option.some.inj (listed.symm.trans listed')
  exact ⟨⟨number, numbered, admittedEpoch⟩, ⟨index, indexed, listed⟩, active, source, destination,
    pathEpoch, rfl, rfl⟩

/-- The entries of the inputs in the table of transports. -/
def transportEntries (bindings : List RequiredBinding) :
    List (CoalescingKey × (UInt64 × FastPathEpochAdmission)) :=
  bindings.map fun binding => (binding.key, (binding.transportId, binding.epoch))

theorem transportEntries_append (left right : List RequiredBinding) :
    transportEntries (left ++ right) = transportEntries left ++ transportEntries right :=
  map_append

theorem Derived.register (derived : Derived digests transports)
    (sound : ∀ binding ∈ bindings, binding.transportId = transportId digests binding.key) :
    Derived digests (register transports (transportEntries bindings)) := by
  induction bindings generalizing transports with
  | nil => exact derived
  | cons first bindings ih =>
    rw [forall_mem_cons] at sound
    exact ih (forall_getElem?_insert sound.1 derived) sound.2

/-- No id collides as long as all of them are derived. -/
theorem requiredDecision_eq_ok {after : TransportIndex} (derived : Derived digests transports) :
    requiredDecision digests context admitted transports input = .ok (binding, after) ↔
      requiredBinding digests context admitted input = .ok binding ∧
        after = register transports (transportEntries [binding]) := by
  simp only [requiredDecision, eq_ok_iffs, Prod.mk.injEq]
  constructor
  · rintro ⟨binding, bound, -, rfl, rfl⟩
    exact ⟨bound, rfl⟩
  · rintro ⟨bound, rfl⟩
    refine ⟨binding, bound, ?_, rfl, rfl⟩
    cases existing : transports[binding.key]? with
    | none => rfl
    | some value =>
      rw [Option.any_some, bne_eq_false_iff_eq, derived _ _ existing,
        (bindingSound_of_requiredBinding bound).transportId]

/-! ## Pairs with several plans -/

/-- What an input refers to. -/
def FastPathDecisionInput.reference (input : FastPathDecisionInput) :
    Option UInt64 × Option Nat :=
  (input.contractEpoch, input.planIndex)

/-- The inputs of a pair and the plans that they name. -/
def Bound (digests : EncryptionDigests) (context : FastPathCompileContext)
    (admitted : AdmittedEpochs) : List FastPathDecisionInput → List RequiredBinding → Prop :=
  List.Forall₂ fun input binding =>
    requiredBinding digests context admitted input = .ok binding

variable (bound : Bound digests context admitted inputs bindings)

include bound

theorem Bound.sound : ∀ binding ∈ bindings, ∃ input ∈ inputs,
      BindingSound digests context admitted input binding := by
  intro binding member
  obtain ⟨input, inputMember, found⟩ := exists_mem_of_mem_mapM (mapM_eq_ok_iff.mpr bound) member
  exact ⟨input, inputMember, bindingSound_of_requiredBinding found⟩

theorem Bound.derived :
    ∀ binding ∈ bindings, binding.transportId = transportId digests binding.key := by
  intro binding member
  obtain ⟨input, -, sound⟩ := bound.sound binding member
  exact sound.transportId

theorem Bound.length_eq : inputs.length = bindings.length :=
  List.Forall₂.length_eq bound

theorem Bound.append (boundLast : requiredBinding digests context admitted last = .ok binding) :
    Bound digests context admitted (inputs ++ [last]) (bindings ++ [binding]) :=
  rel_append bound (.cons boundLast .nil)

omit bound

theorem Bound.of_append {all : List RequiredBinding}
    (bound : Bound digests context admitted (inputs ++ [last]) all) :
    ∃ bindings binding, Bound digests context admitted inputs bindings ∧
      requiredBinding digests context admitted last = .ok binding ∧
      all = bindings ++ [binding] := by
  have atEnd := forall₂_reverse_iff.mpr bound
  rw [reverse_append, reverse_singleton, singleton_append, forall₂_cons_left_iff] at atEnd
  obtain ⟨binding, reversed, boundLast, boundRest, same⟩ := atEnd
  refine ⟨reversed.reverse, binding, ?_, boundLast, ?_⟩
  · rw [Bound, ← forall₂_reverse_iff, reverse_reverse]
    exact boundRest
  · rw [← reverse_reverse all, same, reverse_cons]

theorem bindInput_eq_ok
    {bound result : List (FastPathDecisionInput × RequiredBinding) × TransportIndex}
    (derived : Derived digests bound.2) :
    bindInput digests context admitted bound input = .ok result ↔
      input.reference ∉ (bound.1.map Prod.fst).map reference ∧
      ∃ binding, requiredBinding digests context admitted input = .ok binding ∧
        result = (bound.1 ++ [(input, binding)],
          register bound.2 (transportEntries [binding])) := by
  have fresh : (bound.1.any fun earlier => earlier.1.contractEpoch == input.contractEpoch &&
      earlier.1.planIndex == input.planIndex) = false ↔
      input.reference ∉ (bound.1.map Prod.fst).map reference := by
    simp [reference]
  simp only [bindInput, eq_ok_iffs, fresh, Prod.exists, requiredDecision_eq_ok derived]
  constructor
  · rintro ⟨new, binding, _, ⟨required, rfl⟩, rfl⟩
    exact ⟨new, binding, required, rfl⟩
  · rintro ⟨new, binding, required, rfl⟩
    exact ⟨new, binding, _, ⟨required, rfl⟩, rfl⟩

theorem bindInputs_eq_ok {result : List (FastPathDecisionInput × RequiredBinding) × TransportIndex}
    (derived : Derived digests transports) :
    inputs.foldlM (bindInput digests context admitted) ([], transports) = .ok result ↔
      (inputs.map reference).Nodup ∧
      ∃ bindings, Bound digests context admitted inputs bindings ∧
        result = (inputs.zip bindings, register transports (transportEntries bindings)) := by
  induction inputs using reverseRecOn generalizing result with
  | nil =>
    simp [Bound, pure, Except.pure, register, transportEntries, eq_comm]
  | append_singleton inputs last ih =>
    simp only [foldlM_append, foldlM_cons, foldlM_nil, eq_ok_iffs, ih, exists_eq_right]
    rw [map_append, map_singleton, nodup_append_comm, singleton_append, nodup_cons]
    constructor
    · rintro ⟨_, ⟨distinct, bindings, bound, rfl⟩, done⟩
      have derivedHere : Derived digests (register transports (transportEntries bindings)) :=
        derived.register bound.derived
      rw [bindInput_eq_ok derivedHere] at done
      obtain ⟨fresh, binding, boundLast, rfl⟩ := done
      rw [map_fst_zip (le_of_eq bound.length_eq)] at fresh
      refine ⟨⟨fresh, distinct⟩, bindings ++ [binding], bound.append boundLast, ?_⟩
      rw [transportEntries_append, register_append, zip_append bound.length_eq]
      rfl
    · rintro ⟨⟨fresh, distinct⟩, _, bound, rfl⟩
      obtain ⟨bindings, binding, boundInputs, boundLast, rfl⟩ := bound.of_append
      refine ⟨_, ⟨distinct, bindings, boundInputs, rfl⟩, ?_⟩
      rw [bindInput_eq_ok (derived.register boundInputs.derived)]
      refine ⟨?_, binding, boundLast, ?_⟩
      · rwa [map_fst_zip (le_of_eq boundInputs.length_eq)]
      · rw [transportEntries_append, register_append, zip_append boundInputs.length_eq]
        rfl

def pathEntries (paths : List EncryptionPathAuthority) :
    List (IpPrefix × EncryptionPathAuthority) :=
  paths.map fun path => (path.ipPrefix, path)

theorem insertPathBinding_eq_ok {paths : PathIndex} {candidate : EncryptionPathAuthority} :
    insertPathBinding paths candidate = .ok after ↔
      (∀ existing, paths[candidate.ipPrefix]? = some existing → existing = candidate) ∧
        after = paths.insert candidate.ipPrefix candidate := by
  simp only [insertPathBinding, eq_ok_iffs, Option.any_eq_false, eq_false_iffs,
    eq_comm (a := after)]

theorem foldlM_insertPathBinding {paths : PathIndex} {candidates : List EncryptionPathAuthority} :
    candidates.foldlM insertPathBinding paths = .ok after ↔
      Registrable paths (pathEntries candidates) ∧
        after = register paths (pathEntries candidates) := by
  induction candidates generalizing paths with
  | nil => simp [Registrable, register, pathEntries, pure, Except.pure, eq_comm]
  | cons first candidates ih =>
    simp only [foldlM_cons, bind_eq_ok, insertPathBinding_eq_ok, ih, Registrable, pathEntries,
      map_cons, agrees_cons]
    constructor
    · rintro ⟨_, ⟨agrees, rfl⟩, registrable, rfl⟩
      exact ⟨⟨agrees, registrable⟩, rfl⟩
    · rintro ⟨⟨agrees, registrable⟩, rfl⟩
      exact ⟨_, ⟨agrees, rfl⟩, registrable, rfl⟩

/-- A pair with several plans, all of them of one epoch and contract. -/
structure Replicated (digests : EncryptionDigests) (context : FastPathCompileContext)
    (admitted : AdmittedEpochs) (inputs : List FastPathDecisionInput)
    (bindings : List RequiredBinding) (revision : Revision) (number : UInt64) : Prop where
  nonempty : inputs ≠ []
  required : ∀ input ∈ inputs, input.disposition = .required
  distinct : (inputs.map FastPathDecisionInput.reference).Nodup
  bound : Bound digests context admitted inputs bindings
  revision : ∀ binding ∈ bindings, binding.epoch.contract.contractRevision = revision
  epoch : ∀ input ∈ inputs, input.contractEpoch = some number

/-- The decision of a pair with several plans. -/
def replicatedDecision (digests : EncryptionDigests) (context : FastPathCompileContext)
    (pair : IdentityId ×ₗ IdentityId) (bindings : List RequiredBinding) (revision : Revision)
    (number : UInt64) : FastPathDecisionAuthority where
  sourceIdentity := (ofLex pair).1
  destinationIdentity := (ofLex pair).2
  disposition := .required
  transportId := none
  contractRevision := some revision
  keyEpoch := some number
  decisionWitness := digests.fastPath.aggregateDecision context.generation (ofLex pair).1
    (ofLex pair).2 (sort (bindings.map RequiredBinding.decisionWitness))

/-- The prefixes that are bound to the transport of a plan. -/
def RequiredBinding.paths (digests : EncryptionDigests) (revision : Revision) (number : UInt64)
    (binding : RequiredBinding) : List EncryptionPathAuthority :=
  binding.plan.transport.forward.allowedIps.map
    (pathAuthority digests binding.transportId revision number)

theorem foldlM_bindPaths {revision : Revision} {number : UInt64}
    {bound : List (FastPathDecisionInput × RequiredBinding)} {paths : PathIndex} :
    bound.foldlM (fun paths bound => (bound.2.plan.transport.forward.allowedIps.map
        (pathAuthority digests bound.2.transportId revision number)).foldlM
          insertPathBinding paths) paths = .ok after ↔
      Registrable paths (pathEntries ((bound.map Prod.snd).flatMap
          (RequiredBinding.paths digests revision number))) ∧
        after = register paths (pathEntries ((bound.map Prod.snd).flatMap
          (RequiredBinding.paths digests revision number))) := by
  have expand : bound.foldlM (fun paths bound => (bound.2.plan.transport.forward.allowedIps.map
        (pathAuthority digests bound.2.transportId revision number)).foldlM
          insertPathBinding paths) paths = .ok after ↔ _ :=
    foldlM_flatMap_eq_ok (fun state item after => (true_and _).symm.to_iff)
  rw [expand]
  simp only [implies_true, true_and, flatMap_map, ← foldlM_insertPathBinding]
  rfl

/-- The check that all plans of a pair are of one epoch and contract. -/
theorem any_zip_eq_false (length : inputs.length = bindings.length) {revision : Revision}
    {number : UInt64} :
    ((inputs.zip bindings).any fun bound => bound.2.epoch.contract.contractRevision != revision ||
        bound.1.contractEpoch != some number) = false ↔
      (∀ binding ∈ bindings, binding.epoch.contract.contractRevision = revision) ∧
        ∀ input ∈ inputs, input.contractEpoch = some number := by
  induction inputs generalizing bindings with
  | nil =>
    obtain rfl := eq_nil_of_length_eq_zero length.symm
    simp
  | cons first inputs ih =>
    cases bindings with
    | nil => simp at length
    | cons binding bindings =>
      have shorter : inputs.length = bindings.length := by simpa using length
      rw [zip_cons_cons, any_cons, Bool.or_eq_false_iff,
        ih shorter, Bool.or_eq_false_iff, bne_eq_false_iff_eq,
        bne_eq_false_iff_eq, forall_mem_cons, forall_mem_cons, and_and_and_comm]

theorem map_witness_zip (length : inputs.length = bindings.length) :
    (inputs.zip bindings).map (fun bound => bound.2.decisionWitness) =
      bindings.map RequiredBinding.decisionWitness := by
  rw [← map_snd_zip (le_of_eq length.symm), map_map, map_snd_zip (le_of_eq length.symm)]
  rfl

theorem compileReplicatedDecision_eq_ok {paths : PathIndex}
    {result : FastPathDecisionAuthority × TransportIndex × PathIndex}
    (derived : Derived digests transports) :
    compileReplicatedDecision digests context admitted (ofLex pair).1 (ofLex pair).2 inputs
        transports paths = .ok result ↔ ∃ bindings revision number,
        Replicated digests context admitted inputs bindings revision number ∧ Registrable paths
          (pathEntries (bindings.flatMap (RequiredBinding.paths digests revision number))) ∧
        result = (replicatedDecision digests context pair bindings revision number,
          register transports (transportEntries bindings), register paths
            (pathEntries (bindings.flatMap (RequiredBinding.paths digests revision number)))) := by
  simp only [compileReplicatedDecision, eq_ok_iffs, bindInputs_eq_ok derived, foldlM_bindPaths]
  constructor
  · rintro ⟨required, _, ⟨distinct, bindings, bound, rfl⟩, first, isFirst, number, numbered,
      uniform, _, ⟨registrable, rfl⟩, rfl⟩
    obtain ⟨revisions, epochs⟩ := (any_zip_eq_false bound.length_eq).mp uniform
    have bindingsBack : (inputs.zip bindings).map Prod.snd = bindings :=
      map_snd_zip (le_of_eq bound.length_eq.symm)
    have nonempty : inputs ≠ [] := by
      rintro rfl
      simp at isFirst
    refine ⟨bindings, first.2.epoch.contract.contractRevision, number,
      ⟨nonempty, by simpa using required, distinct, bound, revisions, epochs⟩, ?_, ?_⟩
    · simpa only [bindingsBack] using registrable
    · simp only [bindingsBack, replicatedDecision, map_witness_zip bound.length_eq]
  · rintro ⟨bindings, revision, number, replicated, registrable, rfl⟩
    have bindingsBack : (inputs.zip bindings).map Prod.snd = bindings :=
      map_snd_zip (le_of_eq replicated.bound.length_eq.symm)
    have nonempty : inputs.zip bindings ≠ [] := by
      intro empty
      apply replicated.nonempty
      rw [← map_fst_zip (le_of_eq replicated.bound.length_eq), empty, map_nil]
    obtain ⟨first, isFirst⟩ : ∃ first, (inputs.zip bindings).head? = some first :=
      ⟨_, head?_eq_some_head nonempty⟩
    have firstMember : first ∈ inputs.zip bindings := mem_of_head? isFirst
    have firstRevision : first.2.epoch.contract.contractRevision = revision :=
      replicated.revision first.2 (of_mem_zip firstMember).2
    refine ⟨by simpa using replicated.required, _,
      ⟨replicated.distinct, bindings, replicated.bound, rfl⟩, first, isFirst, number,
      replicated.epoch first.1 (of_mem_zip firstMember).1, ?_, _, ⟨?_, rfl⟩, ?_⟩
    · rw [firstRevision]
      exact (any_zip_eq_false replicated.bound.length_eq).mpr
        ⟨replicated.revision, replicated.epoch⟩
    · simpa only [firstRevision, bindingsBack] using registrable
    · simp only [firstRevision, bindingsBack, replicatedDecision,
        map_witness_zip replicated.bound.length_eq]

/-! ## Groups -/

theorem nativeDecision_eq_ok {decision : FastPathDecisionAuthority} :
    nativeDecision digests context input = .ok decision ↔
      (input.contractEpoch = none ∧ input.planIndex = none) ∧
      decision =
        { sourceIdentity := input.sourceIdentity
          destinationIdentity := input.destinationIdentity
          disposition := input.disposition
          transportId := none
          contractRevision := none
          keyEpoch := none
          decisionWitness := digests.fastPath.nativeDecision context.generation
            input.sourceIdentity input.destinationIdentity } := by
  simp only [nativeDecision, eq_ok_iffs, eq_false_iffs, Option.isSome_eq_false_iff,
    Option.isNone_iff_eq_none, eq_comm (a := decision)]

/-- What the inputs of a pair contribute. -/
structure GroupOutcome where
  decision : FastPathDecisionAuthority
  bindings : List RequiredBinding
  paths : List EncryptionPathAuthority

variable {outcome : GroupOutcome} {outcomes : List GroupOutcome}

/-- The inputs of a pair are one native input, one required input, or the plans of a replicated
destination. -/
inductive GroupCompiles (digests : EncryptionDigests) (context : FastPathCompileContext)
    (admitted : AdmittedEpochs) (pair : IdentityId ×ₗ IdentityId) :
    List FastPathDecisionInput → GroupOutcome → Prop
  | native {input : FastPathDecisionInput} {decision : FastPathDecisionAuthority}
      (native : input.disposition = .native)
      (decided : nativeDecision digests context input = .ok decision) :
      GroupCompiles digests context admitted pair [input] ⟨decision, [], []⟩
  | single {input : FastPathDecisionInput} {binding : RequiredBinding}
      (required : input.disposition = .required)
      (bound : requiredBinding digests context admitted input = .ok binding) :
      GroupCompiles digests context admitted pair [input]
        ⟨binding.decision input, [binding], []⟩
  | replicated {inputs : List FastPathDecisionInput} {bindings : List RequiredBinding}
      {revision : Revision} {number : UInt64} (several : inputs.length ≠ 1)
      (replicated : Replicated digests context admitted inputs bindings revision number) :
      GroupCompiles digests context admitted pair inputs
        ⟨replicatedDecision digests context pair bindings revision number, bindings,
          bindings.flatMap (RequiredBinding.paths digests revision number)⟩

/-- The tables with the contribution of a pair. -/
def CompiledDecisions.add (compiled : CompiledDecisions) (outcome : GroupOutcome) :
    CompiledDecisions where
  decisions := compiled.decisions ++ [outcome.decision]
  transports := register compiled.transports (transportEntries outcome.bindings)
  paths := register compiled.paths (pathEntries outcome.paths)

theorem compileGroup_eq_ok {after : CompiledDecisions}
    {group : (IdentityId ×ₗ IdentityId) × List FastPathDecisionInput}
    (derived : Derived digests compiled.transports) :
    compileGroup digests context admitted compiled group = .ok after ↔
      ∃ outcome, GroupCompiles digests context admitted group.1 group.2 outcome ∧
        Registrable compiled.paths (pathEntries outcome.paths) ∧ after = compiled.add outcome := by
  obtain ⟨pair, inputs⟩ := group
  rw [compileGroup]
  split
  next input single =>
    cases single
    cases disposition : input.disposition with
    | native =>
      simp only [eq_ok_iffs]
      constructor
      · rintro ⟨decision, decided, rfl⟩
        exact ⟨_, .native disposition decided, agrees_nil, rfl⟩
      · rintro ⟨_, compiles, -, rfl⟩
        cases compiles with
        | native _ decided => exact ⟨_, decided, rfl⟩
        | single required => rw [disposition] at required; cases required
        | replicated several => exact absurd rfl several
    | required =>
      simp only [eq_ok_iffs, Prod.exists, requiredDecision_eq_ok derived]
      constructor
      · rintro ⟨binding, _, ⟨bound, rfl⟩, rfl⟩
        exact ⟨_, .single disposition bound, agrees_nil, rfl⟩
      · rintro ⟨_, compiles, -, rfl⟩
        cases compiles with
        | native native => rw [disposition] at native; cases native
        | single _ bound => exact ⟨_, _, ⟨bound, rfl⟩, rfl⟩
        | replicated several => exact absurd rfl several
  next several =>
    simp only [eq_ok_iffs, compileReplicatedDecision_eq_ok derived]
    constructor
    · rintro ⟨_, ⟨bindings, revision, number, replicated, registrable, rfl⟩, rfl⟩
      have notOne : inputs.length ≠ 1 := by
        intro one
        obtain ⟨input, rfl⟩ := length_eq_one_iff.mp one
        exact several input rfl
      exact ⟨_, .replicated notOne replicated, registrable, rfl⟩
    · rintro ⟨_, compiles, registrable, rfl⟩
      cases compiles with
      | native => exact absurd rfl (several _)
      | single => exact absurd rfl (several _)
      | replicated _ replicated =>
        exact ⟨_, ⟨_, _, _, replicated, registrable, rfl⟩, rfl⟩

variable (compiles : GroupCompiles digests context admitted pair inputs outcome)

include compiles

/-- The plans that a pair is bound to are those its inputs name. -/
theorem GroupCompiles.sound :
    ∀ binding ∈ outcome.bindings, ∃ input ∈ inputs,
      BindingSound digests context admitted input binding := by
  cases compiles with
  | native => simp
  | single _ bound => simpa using bindingSound_of_requiredBinding bound
  | replicated _ replicated => exact replicated.bound.sound

theorem GroupCompiles.derived :
    ∀ binding ∈ outcome.bindings, binding.transportId = transportId digests binding.key := by
  intro binding member
  obtain ⟨input, -, sound⟩ := compiles.sound binding member
  exact sound.transportId

omit compiles

/-- The tables with the contributions of several pairs. -/
def CompiledDecisions.addAll (compiled : CompiledDecisions) (outcomes : List GroupOutcome) :
    CompiledDecisions where
  decisions := compiled.decisions ++ outcomes.map GroupOutcome.decision
  transports := register compiled.transports
    (transportEntries (outcomes.flatMap GroupOutcome.bindings))
  paths := register compiled.paths (pathEntries (outcomes.flatMap GroupOutcome.paths))

theorem pathEntries_append (left right : List EncryptionPathAuthority) :
    pathEntries (left ++ right) = pathEntries left ++ pathEntries right :=
  map_append

theorem CompiledDecisions.addAll_cons (compiled : CompiledDecisions) (first : GroupOutcome)
    (outcomes : List GroupOutcome) :
    compiled.addAll (first :: outcomes) = (compiled.add first).addAll outcomes := by
  simp only [addAll, add, map_cons, flatMap_cons, transportEntries_append,
    pathEntries_append, register_append, append_assoc, singleton_append]

/-- The pairs and what they contribute. -/
def GroupsCompile (digests : EncryptionDigests) (context : FastPathCompileContext)
    (admitted : AdmittedEpochs) :
    List ((IdentityId ×ₗ IdentityId) × List FastPathDecisionInput) → List GroupOutcome → Prop :=
  List.Forall₂ fun group outcome => GroupCompiles digests context admitted group.1 group.2 outcome

theorem foldlM_compileGroup {after : CompiledDecisions}
    {groups : List ((IdentityId ×ₗ IdentityId) × List FastPathDecisionInput)}
    (derived : Derived digests compiled.transports) :
    groups.foldlM (compileGroup digests context admitted) compiled = .ok after ↔
      ∃ outcomes, GroupsCompile digests context admitted groups outcomes ∧
        Registrable compiled.paths (pathEntries (outcomes.flatMap GroupOutcome.paths)) ∧
        after = compiled.addAll outcomes := by
  induction groups generalizing compiled with
  | nil =>
    simp [GroupsCompile, pure, Except.pure, CompiledDecisions.addAll, register,
      transportEntries, pathEntries, Registrable, eq_comm (a := after)]
  | cons first groups ih =>
    simp only [foldlM_cons, bind_eq_ok, compileGroup_eq_ok derived]
    constructor
    · rintro ⟨_, ⟨outcome, compiles, registrable, rfl⟩, done⟩
      obtain ⟨outcomes, compileRest, registrableRest, rfl⟩ :=
        (ih (derived.register compiles.derived)).mp done
      refine ⟨outcome :: outcomes, .cons compiles compileRest, ?_,
        (compiled.addAll_cons outcome outcomes).symm⟩
      rw [flatMap_cons, pathEntries_append, registrable_append]
      exact ⟨registrable, registrableRest⟩
    · rintro ⟨_, all, registrable, rfl⟩
      cases all with
      | @cons _ outcome _ outcomes compiles compileRest =>
        rw [flatMap_cons, pathEntries_append, registrable_append] at registrable
        refine ⟨_, ⟨outcome, compiles, registrable.1, rfl⟩, ?_⟩
        exact (ih (derived.register compiles.derived)).mpr
          ⟨outcomes, compileRest, registrable.2, compiled.addAll_cons outcome outcomes⟩

/-- The inputs of a pair, in the order they come in. -/
def inputsOf (inputs : List FastPathDecisionInput) (pair : IdentityId ×ₗ IdentityId) :
    List FastPathDecisionInput :=
  inputs.filter fun input => input.pair = pair

theorem getElem?_groupInputs {group : List FastPathDecisionInput} :
    (groupInputs inputs)[pair]? = some group ↔ group = inputsOf inputs pair ∧ group ≠ [] := by
  have values : valuesAt (inputs.map fun input => (input.pair, input)) pair =
      inputsOf inputs pair := by
    rw [valuesAt, filter_map, map_map]
    refine (map_id _).trans (filter_congr fun input _ => ?_)
    exact decide_eq_decide.mpr Iff.rfl
  rw [groupInputs, getElem?_groupEntries_eq_some_iff, values]

theorem mem_groupInputs : pair ∈ groupInputs inputs ↔ inputsOf inputs pair ≠ [] := by
  rw [← ExtTreeMap.isSome_getElem?_iff_mem, Option.isSome_iff_exists]
  simp only [getElem?_groupInputs]
  constructor
  · rintro ⟨_, rfl, nonempty⟩
    exact nonempty
  · intro nonempty
    exact ⟨_, rfl, nonempty⟩

variable (compile : GroupsCompile digests context admitted (groupInputs inputs).toList outcomes)

include compile

/-- What a pair contributes, among the contributions of all pairs. -/
theorem GroupsCompile.exists_outcome (given : inputsOf inputs pair ≠ []) : ∃ outcome ∈ outcomes,
      GroupCompiles digests context admitted pair (inputsOf inputs pair) outcome := by
  have listed : (pair, inputsOf inputs pair) ∈ (groupInputs inputs).toList :=
    ExtTreeMap.mem_toList_iff_getElem?_eq_some.mpr (getElem?_groupInputs.mpr ⟨rfl, given⟩)
  obtain ⟨index, bound, found⟩ := getElem_of_mem listed
  have outcomeBound : index < outcomes.length := List.Forall₂.length_eq compile ▸ bound
  refine ⟨outcomes[index], getElem_mem outcomeBound, ?_⟩
  have compiles := List.Forall₂.get compile bound outcomeBound
  rw [get_eq_getElem, found] at compiles
  exact compiles

theorem GroupsCompile.exists_pair (member : outcome ∈ outcomes) :
    ∃ pair, inputsOf inputs pair ≠ [] ∧
      GroupCompiles digests context admitted pair (inputsOf inputs pair) outcome := by
  obtain ⟨index, bound, rfl⟩ := getElem_of_mem member
  have groupBound : index < (groupInputs inputs).toList.length :=
    (List.Forall₂.length_eq compile).symm ▸ bound
  have listed := getElem_mem groupBound
  obtain ⟨same, nonempty⟩ :=
    getElem?_groupInputs.mp (ExtTreeMap.mem_toList_iff_getElem?_eq_some.mp listed)
  have compiles := List.Forall₂.get compile groupBound bound
  rw [same] at compiles
  exact ⟨_, same ▸ nonempty, compiles⟩

theorem GroupsCompile.bindingSound (member : binding ∈ outcomes.flatMap GroupOutcome.bindings) :
    ∃ input, BindingSound digests context admitted input binding := by
  obtain ⟨outcome, outcomeMember, bindingMember⟩ := mem_flatMap.mp member
  obtain ⟨pair, -, compiles⟩ := compile.exists_pair outcomeMember
  obtain ⟨input, -, sound⟩ := compiles.sound binding bindingMember
  exact ⟨input, sound⟩

omit compile

theorem derived_empty : Derived digests ∅ := by
  intro key value found
  simp at found

/-- The tables of the inputs. -/
structure DecisionsCompile (digests : EncryptionDigests) (context : FastPathCompileContext)
    (admitted : AdmittedEpochs) (inputs : List FastPathDecisionInput)
    (outcomes : List GroupOutcome) : Prop where
  identities : ∀ input ∈ inputs, input.sourceIdentity.get ≠ 0 ∧ input.destinationIdentity.get ≠ 0
  groups : GroupsCompile digests context admitted (groupInputs inputs).toList outcomes
  registrable : Registrable ∅ (pathEntries (outcomes.flatMap GroupOutcome.paths))
  capacity : (register ∅ (pathEntries (outcomes.flatMap GroupOutcome.paths))).size ≤
    maxFastPathPaths

theorem compileDecisions_eq_ok : compileDecisions digests context admitted inputs = .ok compiled ↔
      ∃ outcomes, DecisionsCompile digests context admitted inputs outcomes ∧
        compiled = CompiledDecisions.addAll ⟨[], ∅, ∅⟩ outcomes := by
  have loop (after : CompiledDecisions) : (groupInputs inputs).toList.foldlM
      (compileGroup digests context admitted) ⟨[], ∅, ∅⟩ = .ok after ↔ _ :=
    foldlM_compileGroup derived_empty
  simp only [compileDecisions, eq_ok_iffs, loop, eq_false_iffs, List.any_eq_false, Bool.or_eq_true,
    beq_iff_eq, not_or]
  constructor
  · rintro ⟨identities, _, ⟨outcomes, groups, registrable, rfl⟩, capacity, rfl⟩
    exact ⟨outcomes, ⟨identities, groups, registrable, capacity⟩, rfl⟩
  · rintro ⟨outcomes, compile, rfl⟩
    exact ⟨compile.identities, _, ⟨outcomes, compile.groups, compile.registrable, rfl⟩,
      compile.capacity, rfl⟩

end Unf.Encryption
