import Unf.Encryption.Bank
import Unf.Encryption.Mirror

/-!
# The mirror on a compiled bank

What the mirror looks up in a bank, in terms of what was compiled for the pair of a packet.
-/

namespace Unf.Encryption

open Unf.Lib Unf.Egress List Option EncryptionFastPathState

variable {digests : EncryptionDigests} {context : FastPathCompileContext}
  {epochs : List FastPathEpochAdmission} {inputs : List FastPathDecisionInput}
  {state : EncryptionFastPathState} {admitted : AdmittedEpochs} {outcomes : List GroupOutcome}
  {table : TransportIndex}
  (built : Built digests context epochs inputs state admitted outcomes table)

/-! ## Lookups -/

/-- An authorized packet at the revisions of a bank. -/
structure AtBank (context : FastPathCompileContext) (packet : FastPathPacketContext) : Prop where
  policyAuthorized : packet.policyAuthorized = true
  policyRevision : packet.policyRevision = context.policyRevision
  serviceRevision : packet.serviceRevision = context.serviceRevision
  egressRevision : packet.egressRevision = context.egressRevision

/-- The pair of a packet. -/
def FastPathPacketContext.pair (packet : FastPathPacketContext) : IdentityId ×ₗ IdentityId :=
  toLex (packet.sourceIdentity, packet.destinationIdentity)

namespace EncryptionFastPathState

/-- The decision of the active bank for the pair of a packet. -/
def decisionFor (state : EncryptionFastPathState) (packet : FastPathPacketContext) :
    Option EncryptionDecisionValue :=
  (state.decisions.find? fun entry => entry.1.bank == state.config.activeBank &&
    entry.1.sourceIdentity == packet.sourceIdentity &&
    entry.1.destinationIdentity == packet.destinationIdentity).map Prod.snd

/-- The transport of the active bank with an id. -/
def transportOf (state : EncryptionFastPathState) (transportId : UInt64) :
    Option EncryptionTransportValue :=
  (state.transports.find? fun entry =>
    entry.1.bank == state.config.activeBank && entry.1.transportId == transportId).map Prod.snd

/-- The longest prefix around an address. -/
def pathTo (state : EncryptionFastPathState) (address : IpAddr) : Option EncryptionPathAuthority :=
  maxByKey (fun path => path.ipPrefix.prefixLen)
    (state.pathAuthority.filter fun path => path.ipPrefix.contains address)

end EncryptionFastPathState

include built in
theorem Built.epochCount_le : (UInt8.ofNat epochs.length).toNat ≤ maxFastPathEpochs := by
  have few := built.valid.fewEpochs
  have small : epochs.length % 256 ≤ epochs.length := Nat.mod_le _ _
  rw [UInt8.toNat_ofNat']
  exact small.trans few

variable {packet : FastPathPacketContext} {transport : EncryptionTransportValue}
  {decision : FastPathDecisionAuthority} {routeMark : Mark}

include built

/-- At the revisions of the bank only the lease decides which way a packet is looked up. -/
theorem Built.selectEncryptionTransport_eq (atBank : AtBank context packet)
    (established : Option CausalEpochLease) : selectEncryptionTransport state packet established =
      established.elim (selectNewTransport state packet)
        (selectEstablishedTransport state packet) := by
  have bank : ¬encryptionBankCount ≤ context.bank := not_le.mpr built.valid.bank
  have epochCount := not_lt.mpr built.epochCount_le
  unfold selectEncryptionTransport
  rw [built.config_eq]
  simp only [atBank.policyAuthorized, atBank.policyRevision, atBank.serviceRevision,
    atBank.egressRevision, bank, epochCount, bne_self_eq_false]
  cases established <;> rfl

theorem Built.decisionFor_eq (packet : FastPathPacketContext) : state.decisionFor packet =
      (state.decisionAuthority.find? fun decision => decision.pair == packet.pair).map
        fun decision => (lowerDecision context decision).2 := by
  rw [decisionFor, built.decisions, built.config_eq, lowerDecisions, find?_map, Option.map_map]
  congr 1
  apply congrArg (fun search => find? search state.decisionAuthority)
  funext decision
  rw [Bool.eq_iff_iff]
  simp [lowerDecision, FastPathDecisionAuthority.pair, FastPathPacketContext.pair]

theorem Built.transportOf_eq (transportId : UInt64) : state.transportOf transportId =
      (state.transportAuthority.find? fun transport => transport.transportId == transportId).map
        fun transport => (lowerTransport context.bank transport).2 := by
  rw [transportOf, built.transports, built.config_eq, lowerTransports, find?_map, Option.map_map]
  congr 1
  apply congrArg (fun search => find? search state.transportAuthority)
  funext transport
  simp [lowerTransport]

/-- A pair that was not given is dropped. -/
theorem Built.selectNewTransport_of_not_given (missing : inputsOf inputs packet.pair = []) :
    selectNewTransport state packet = .drop .authorityMissing := by
  have absent := built.decisionFor_eq packet
  rw [built.find?_pair_of_not_given missing] at absent
  rw [selectNewTransport, map_eq_none_iff.mp absent]

omit built

theorem encrypted_eq
    (marked : encryptionRouteMark transport.fwmark = some routeMark) (lease : CausalEpochLease) :
    encrypted transport lease = .encrypt transport.fwmark routeMark encryptionRouteMarkMask
      transport.routeTable transport.interfaceIndex transport.mtu lease := by
  rw [encrypted, marked]

/-- The lease of a new flow. -/
def newLease (packet : FastPathPacketContext) (decision : EncryptionDecisionValue)
    (transportId : UInt64) (transport : EncryptionTransportValue) : CausalEpochLease where
  sourceIdentity := packet.sourceIdentity
  destinationIdentity := packet.destinationIdentity
  transportId := transportId
  keyEpoch := decision.keyEpoch
  contractRevision := decision.contractRevision
  decisionWitness := decision.decisionWitness
  lastSeenMonotonicNs := packet.nowMonotonicNs
  drainUntilMonotonicNs := transport.drainUntilMonotonicNs

/-- The lookups that a new flow is encrypted by. -/
structure NewTransport (state : EncryptionFastPathState) (packet : FastPathPacketContext)
    (decision : EncryptionDecisionValue) (transportId : UInt64)
    (transport : EncryptionTransportValue) : Prop where
  found : state.decisionFor packet = some decision
  matching : decisionMatches decision packet = true
  required : decision.disposition = encryptionDispositionRequired
  contractRevision : decision.contractRevision ≠ 0
  keyEpoch : decision.keyEpoch ≠ 0
  resolved : resolveNewTransportId state packet decision = .ok transportId
  present : state.transportOf transportId = some transport
  sameEpoch : decision.keyEpoch = transport.keyEpoch
  sameRevision : decision.contractRevision = transport.contractRevision
  usable : encryptionTransportIsUsable transport false packet.nowMonotonicNs = true

/-- The lookups that a new flow is passed natively by. -/
structure NewNative (state : EncryptionFastPathState) (packet : FastPathPacketContext)
    (decision : EncryptionDecisionValue) : Prop where
  found : state.decisionFor packet = some decision
  matching : decisionMatches decision packet = true
  native : decision.disposition = encryptionDispositionNative
  unbound : (!decision.addressBound && decision.transportId == 0 &&
    decision.contractRevision == 0 && decision.keyEpoch == 0) = true

variable {lease : CausalEpochLease} {transportId : UInt64} {address : IpAddr}

/-- A new flow is dropped unless the lookups of one or the other succeed. -/
theorem selectNewTransport_cases (state : EncryptionFastPathState)
    (packet : FastPathPacketContext) :
    (∃ reason, selectNewTransport state packet = .drop reason) ∨
      (∃ decision, NewNative state packet decision) ∨
      ∃ decision transportId transport,
        NewTransport state packet decision transportId transport := by
  unfold selectNewTransport
  split
  · exact .inl ⟨_, rfl⟩
  next key decision found =>
  have listed : state.decisionFor packet = some decision := map_eq_some_iff.mpr ⟨_, found, rfl⟩
  split
  · exact .inl ⟨_, rfl⟩
  next matching =>
  rw [Bool.not_eq_false] at matching
  split
  · next native =>
      split
      · next unbound => exact .inr (.inl ⟨decision, listed, matching, native, unbound⟩)
      · exact .inl ⟨_, rfl⟩
  split
  · exact .inl ⟨_, rfl⟩
  next required =>
  split
  · exact .inl ⟨_, rfl⟩
  next transportId resolved =>
  split
  · exact .inl ⟨_, rfl⟩
  next transportKey transport foundTransport =>
  split
  · exact .inl ⟨_, rfl⟩
  next usable =>
  rw [not_or, not_or, not_not] at required
  rw [Bool.not_eq_true] at usable
  simp only [eq_false_iffs] at usable
  refine .inr (.inr ⟨decision, transportId, transport, ?_⟩)
  exact
    { found := listed
      matching
      required := required.1
      contractRevision := required.2.1
      keyEpoch := required.2.2
      resolved
      present := map_eq_some_iff.mpr ⟨_, foundTransport, rfl⟩
      sameEpoch := usable.1.1
      sameRevision := usable.1.2
      usable := usable.2 }

/-- A new flow is encrypted when every lookup succeeds. -/
theorem NewTransport.selectNewTransport_eq {decision : EncryptionDecisionValue}
    (new : NewTransport state packet decision transportId transport) :
    selectNewTransport state packet =
      encrypted transport (newLease packet decision transportId transport) := by
  have notNative : ¬decision.disposition = encryptionDispositionNative := by
    rw [new.required]
    decide
  have bound : ¬(decision.disposition ≠ encryptionDispositionRequired ∨
      decision.contractRevision = 0 ∨ decision.keyEpoch = 0) :=
    not_or.mpr ⟨not_not.mpr new.required, not_or.mpr ⟨new.contractRevision, new.keyEpoch⟩⟩
  have accepted : (decision.keyEpoch != transport.keyEpoch ||
      decision.contractRevision != transport.contractRevision ||
      !encryptionTransportIsUsable transport false packet.nowMonotonicNs) = false := by
    simp [new.sameEpoch, new.sameRevision, new.usable]
  obtain ⟨⟨key, _⟩, found, rfl⟩ := map_eq_some_iff.mp new.found
  obtain ⟨⟨transportKey, _⟩, present, rfl⟩ := map_eq_some_iff.mp new.present
  rw [selectNewTransport, found]
  simp only [new.matching, if_neg notNative, if_neg bound, new.resolved, present, accepted]
  rfl

theorem NewNative.selectNewTransport_eq {decision : EncryptionDecisionValue}
    (new : NewNative state packet decision) : selectNewTransport state packet = .native := by
  obtain ⟨⟨key, _⟩, listed, rfl⟩ := map_eq_some_iff.mp new.found
  rw [selectNewTransport, listed]
  simp only [new.matching, Bool.true_eq_false, if_false, if_pos new.native, if_pos new.unbound]

theorem exists_of_selectNewTransport_eq_encrypt {outerFwmark routeMarkMask : Mark}
    {routeTable interfaceIndex mtu : UInt32}
    (selected : selectNewTransport state packet = .encrypt outerFwmark routeMark routeMarkMask
      routeTable interfaceIndex mtu lease) :
    ∃ decision transportId transport, NewTransport state packet decision transportId transport ∧
      encrypted transport (newLease packet decision transportId transport) =
        .encrypt outerFwmark routeMark routeMarkMask routeTable interfaceIndex mtu lease := by
  rcases selectNewTransport_cases state packet with
    ⟨reason, dropped⟩ | ⟨_, new⟩ | ⟨decision, transportId, transport, new⟩
  · rw [dropped] at selected
    cases selected
  · rw [new.selectNewTransport_eq] at selected
    cases selected
  · exact ⟨decision, transportId, transport, new, new.selectNewTransport_eq.symm.trans selected⟩

theorem exists_newNative_iff :
    (∃ decision, NewNative state packet decision) ↔ selectNewTransport state packet = .native := by
  refine ⟨fun ⟨_, new⟩ => new.selectNewTransport_eq, fun selected => ?_⟩
  rcases selectNewTransport_cases state packet with ⟨_, dropped⟩ | native | ⟨_, _, _, new⟩
  · rw [dropped] at selected
    cases selected
  · exact native
  · rw [new.selectNewTransport_eq, encrypted] at selected
    split at selected <;> cases selected

/-! ## Decisions -/

theorem disposition_lowerDecision_eq_required :
    (lowerDecision context decision).2.disposition = encryptionDispositionRequired ↔
      decision.disposition = .required := by
  cases given : decision.disposition <;> simp only [lowerDecision, given]
  decide

theorem disposition_lowerDecision_eq_native :
    (lowerDecision context decision).2.disposition = encryptionDispositionNative ↔
      decision.disposition = .native := by
  cases given : decision.disposition <;> simp only [lowerDecision, given]
  decide

theorem addressBound_lowerDecision (decision : FastPathDecisionAuthority) :
    (lowerDecision context decision).2.addressBound =
      decide (decision.disposition = .required ∧ decision.transportId = none) := by
  unfold EncryptionDecisionValue.addressBound lowerDecision
  by_cases bound : decision.disposition = .required ∧ decision.transportId = none
  · simp only [bound]
    decide
  · simp only [bound]
    decide

/-- A lowered decision matches a packet at its revisions unless its witness is zero. -/
theorem decisionMatches_lowerDecision (atBank : AtBank context packet)
    (decision : FastPathDecisionAuthority) :
    decisionMatches (lowerDecision context decision).2 packet =
      (decision.decisionWitness != 0) := by
  have flags : ((lowerDecision context decision).2.flags == encryptionDecisionBaseFlags ||
      (lowerDecision context decision).2.addressBound) = true := by
    rw [addressBound_lowerDecision]
    unfold lowerDecision
    by_cases bound : decision.disposition = .required ∧ decision.transportId = none
    · rw [decide_eq_true bound, Bool.or_true]
    · simp only [bound]
      decide
  rw [decisionMatches, flags]
  simp [lowerDecision, atBank.policyRevision, atBank.serviceRevision, atBank.egressRevision]

include built in
/-- The decision that a packet finds is the one compiled for its pair. -/
theorem Built.exists_outcome_of_found {decision : EncryptionDecisionValue}
    (found : state.decisionFor packet = some decision) : ∃ outcome ∈ outcomes,
      GroupCompiles digests context admitted packet.pair (inputsOf inputs packet.pair) outcome ∧
      decision = (lowerDecision context outcome.decision).2 := by
  rw [built.decisionFor_eq] at found
  by_cases given : inputsOf inputs packet.pair = []
  · rw [built.find?_pair_of_not_given given] at found
    cases found
  · obtain ⟨outcome, member, compiles, decided⟩ := built.find?_pair_of_given given
    rw [decided] at found
    exact ⟨outcome, member, compiles, (Option.some.inj found).symm⟩

variable {input : FastPathDecisionInput}

theorem identities_of_mem_inputsOf (given : input ∈ inputsOf inputs packet.pair) :
    input.sourceIdentity = packet.sourceIdentity ∧
      input.destinationIdentity = packet.destinationIdentity := by
  have pair := (mem_inputsOf.mp given).2
  exact ⟨congrArg (fun pair => (ofLex pair).1) pair, congrArg (fun pair => (ofLex pair).2) pair⟩

include built in
/-- The decision of a pair that was given as native. -/
theorem Built.find?_pair_of_native (member : input ∈ inputsOf inputs packet.pair)
    (native : input.disposition = .native) :
    (state.decisionAuthority.find? fun decision => decision.pair == packet.pair) =
      some
        { sourceIdentity := packet.sourceIdentity
          destinationIdentity := packet.destinationIdentity
          disposition := .native
          transportId := none
          contractRevision := none
          keyEpoch := none
          decisionWitness := digests.fastPath.nativeDecision context.generation
            packet.sourceIdentity packet.destinationIdentity } := by
  obtain ⟨source, destination⟩ := identities_of_mem_inputsOf member
  obtain ⟨outcome, -, compiles, found⟩ := built.find?_pair_of_given (ne_nil_of_mem member)
  generalize inputsOf inputs packet.pair = group at compiles member
  cases compiles with
  | native given decided =>
    obtain rfl := mem_singleton.mp member
    obtain ⟨-, rfl⟩ := nativeDecision_eq_ok.mp decided
    rw [found, source, destination, native]
  | single required =>
    rw [mem_singleton.mp member, required] at native
    cases native
  | replicated _ replicated =>
    rw [replicated.required input member] at native
    cases native

include built in
/-- A new flow is native exactly for a pair that was given as native, unless the hash of its
decision is zero. -/
theorem Built.selectNewTransport_eq_native_iff (atBank : AtBank context packet) :
    selectNewTransport state packet = .native ↔
      (∃ input ∈ inputsOf inputs packet.pair, input.disposition = .native) ∧
        digests.fastPath.nativeDecision context.generation packet.sourceIdentity
          packet.destinationIdentity ≠ 0 := by
  constructor
  · intro selected
    obtain ⟨decision, found, matching, native, -⟩ := exists_newNative_iff.mpr selected
    obtain ⟨outcome, -, compiles, rfl⟩ := built.exists_outcome_of_found found
    rw [decisionMatches_lowerDecision atBank, bne_iff_ne] at matching
    rw [disposition_lowerDecision_eq_native] at native
    have own (input : FastPathDecisionInput) := @identities_of_mem_inputsOf inputs packet input
    generalize inputsOf inputs packet.pair = group at compiles own ⊢
    cases compiles with
    | @native input _ given decided =>
      obtain ⟨-, rfl⟩ := nativeDecision_eq_ok.mp decided
      obtain ⟨source, destination⟩ := own input mem_cons_self
      rw [← source, ← destination]
      exact ⟨⟨input, mem_cons_self, given⟩, matching⟩
    | single required =>
      rw [RequiredBinding.decision, required] at native
      cases native
    | replicated => cases native
  · rintro ⟨⟨input, member, native⟩, nonzero⟩
    have lowered := built.decisionFor_eq packet
    rw [built.find?_pair_of_native member native] at lowered
    refine exists_newNative_iff.mp
      ⟨_, lowered, ?_, disposition_lowerDecision_eq_native.mpr rfl, ?_⟩
    · rw [decisionMatches_lowerDecision atBank, bne_iff_ne]
      exact nonzero
    · rw [addressBound_lowerDecision]
      rfl

/-! ## Paths -/

/-- Prefixes around a common address contain each other's networks one way or the other. -/
theorem contains_network_or {width : Nat} {left right : Cidr width} {address : BitVec width}
    (inLeft : left.contains address = true) (inRight : right.contains address = true) :
    (left.contains right.network || right.contains left.network) = true := by
  rw [Bool.or_eq_true]
  rcases le_total left.prefixLen right.prefixLen with shorter | shorter
  · exact .inl (Cidr.contains_of_nested inLeft inRight shorter
      (Cidr.canonical_of_contains inRight).contains_network)
  · exact .inr (Cidr.contains_of_nested inRight inLeft shorter
      (Cidr.canonical_of_contains inLeft).contains_network)

theorem overlapping_of_contains {left right : IpPrefix}
    (inLeft : left.contains address = true) (inRight : right.contains address = true) :
    overlapping left right = true := by
  obtain ⟨leftAddress, leftLen⟩ := left
  obtain ⟨rightAddress, rightLen⟩ := right
  cases leftAddress <;> cases rightAddress <;> cases address <;>
    first
      | exact contains_network_or inLeft inRight
      | cases inLeft
      | cases inRight

include built in
/-- At most one path is around an address. -/
theorem Built.path_unique {path other : EncryptionPathAuthority}
    (member : path ∈ state.pathAuthority) (otherMember : other ∈ state.pathAuthority)
    (inPath : path.ipPrefix.contains address = true)
    (inOther : other.ipPrefix.contains address = true) : path = other := by
  have valid := (checks_of_verifyIntegrity built.verified).2
  rw [pathsAreValid, Bool.and_eq_true, decide_eq_true_iff] at valid
  by_contra different
  have symmetric : Std.Symm fun earlier later : EncryptionPathAuthority =>
      earlier.ipPrefix ≠ later.ipPrefix ∧ overlapping earlier.ipPrefix later.ipPrefix = false := by
    refine ⟨fun earlier later apart => ⟨apart.1.symm, ?_⟩⟩
    rw [overlapping, Bool.or_comm]
    exact apart.2
  have apart := valid.2.forall member otherMember different
  rw [overlapping_of_contains inPath inOther] at apart
  exact absurd apart.2 (by decide)

include built in
/-- The path of a destination. -/
theorem Built.pathTo_eq_some_iff (address : IpAddr) (path : EncryptionPathAuthority) :
    state.pathTo address = some path ↔
      path ∈ state.pathAuthority ∧ path.ipPrefix.contains address = true := by
  constructor
  · intro found
    simpa using (maxByKey_spec found).1
  · rintro ⟨member, contained⟩
    cases best : state.pathTo address with
    | none =>
      have empty := maxByKey_eq_none_iff.mp best
      have listed : path ∈ state.pathAuthority.filter fun path =>
          path.ipPrefix.contains address := mem_filter.mpr ⟨member, contained⟩
      rw [empty] at listed
      exact absurd listed not_mem_nil
    | some other =>
      have listed := mem_filter.mp (maxByKey_spec best).1
      rw [built.path_unique member listed.1 contained listed.2]

/-- A decision with a transport of its own. -/
theorem resolveNewTransportId_of_some
    (own : decision.transportId = some transportId) (nonzero : transportId ≠ 0) :
    resolveNewTransportId state packet (lowerDecision context decision).2 = .ok transportId := by
  have unbound : (lowerDecision context decision).2.addressBound = false := by
    rw [addressBound_lowerDecision, own]
    simp
  have lowered : (lowerDecision context decision).2.transportId = transportId := by
    simp only [lowerDecision, own, getD_some]
  rw [resolveNewTransportId, if_pos unbound, lowered, if_neg nonzero]

include built in
/-- A decision without a transport takes the one of the path of the destination. -/
theorem Built.resolveNewTransportId_of_none (required : decision.disposition = .required)
    (unbound : decision.transportId = none) (transportId : UInt64) :
    resolveNewTransportId state packet (lowerDecision context decision).2 = .ok transportId ↔
      ∃ path ∈ state.pathAuthority, path.ipPrefix.contains packet.destinationAddress = true ∧
        path.contractRevision.get = (lowerDecision context decision).2.contractRevision ∧
        path.keyEpoch = (lowerDecision context decision).2.keyEpoch ∧
        path.bindingWitness ≠ 0 ∧ path.transportId = transportId := by
  have bound : ¬(lowerDecision context decision).2.addressBound = false := by
    rw [addressBound_lowerDecision, required, unbound]
    simp
  have lowered : ¬(lowerDecision context decision).2.transportId ≠ 0 := by
    simp only [lowerDecision, unbound, Option.getD_none, ne_eq, not_not]
  rw [resolveNewTransportId, if_neg bound, if_neg lowered, ← pathTo]
  cases best : state.pathTo packet.destinationAddress with
  | none =>
    simp only [reduceCtorEq, false_iff, not_exists, not_and]
    intro path member contained
    have found := (built.pathTo_eq_some_iff packet.destinationAddress path).mpr ⟨member, contained⟩
    rw [best] at found
    cases found
  | some path =>
    obtain ⟨member, contained⟩ := (built.pathTo_eq_some_iff packet.destinationAddress path).mp best
    have checks : (path.contractRevision.get != (lowerDecision context decision).2.contractRevision
        || path.keyEpoch != (lowerDecision context decision).2.keyEpoch ||
          path.bindingWitness == 0) = false ↔
        path.contractRevision.get = (lowerDecision context decision).2.contractRevision ∧
          path.keyEpoch = (lowerDecision context decision).2.keyEpoch ∧
          path.bindingWitness ≠ 0 := by
      simp only [eq_false_iffs, and_assoc]
    dsimp only
    constructor
    · intro resolved
      split at resolved
      · cases resolved
      next passed =>
        obtain ⟨revision, keyEpoch, witness⟩ := checks.mp (Bool.not_eq_true _ ▸ passed)
        exact ⟨path, member, contained, revision, keyEpoch, witness, Except.ok.inj resolved⟩
    · rintro ⟨other, otherMember, otherContained, revision, keyEpoch, witness, rfl⟩
      obtain rfl := built.path_unique member otherMember contained otherContained
      rw [if_neg]
      rw [Bool.not_eq_true]
      exact checks.mpr ⟨revision, keyEpoch, witness⟩

/-! ## Transports -/

/-- The transports of an active epoch carry new flows exactly when its contract has a revision
and neither digest begins with zeros. -/
theorem usable_lowerTransport_active {epoch : FastPathEpochAdmission}
    (sound : EpochSound epoch) (active : epoch.state = .active)
    (transportId : UInt64) (uid : String) (established : Bool) (nowMonotonicNs : UInt64) :
    encryptionTransportIsUsable
        (lowerTransport context.bank (authorityFromKey transportId (epoch.keyTo uid) epoch)).2
        established nowMonotonicNs = true ↔ epoch.contract.contractRevision.get ≠ 0 ∧
        epoch.readback.configurationDigest.leading ≠ 0 ∧ epoch.readinessDigest.leading ≠ 0 := by
  have marked : (encryptionRouteMark epoch.transaction.plan.fwmark).isNone = false := by
    rw [isNone_eq_false_iff]
    exact sound.fwmark
  simp [encryptionTransportIsUsable, lowerTransport, authorityFromKey,
    FastPathEpochAdmission.keyTo, sound.epochNonzero, marked, sound.routeTable,
    sound.interfaceIndex, sound.mtu, active, encryptionTransportFlagKernelReadback, and_assoc]

/-! ## Leases -/

/-- The lease was granted for the identities of the packet. -/
def LeaseOf (packet : FastPathPacketContext) (lease : CausalEpochLease) : Prop :=
  lease.sourceIdentity = packet.sourceIdentity ∧
    lease.destinationIdentity = packet.destinationIdentity

/-- The transport of the bank that keeps a lease. -/
structure LeaseTransport (state : EncryptionFastPathState) (nowMonotonicNs : UInt64)
    (lease : CausalEpochLease) (transport : EncryptionTransportValue) : Prop where
  present : ((state.transports.find? fun entry =>
    entry.1.transportId == lease.transportId).map Prod.snd) = some transport
  keyEpoch : lease.keyEpoch = transport.keyEpoch
  contractRevision : lease.contractRevision = transport.contractRevision
  usable : encryptionTransportIsUsable transport true nowMonotonicNs = true

/-- The lease after one more packet. -/
def CausalEpochLease.renew (lease : CausalEpochLease) (transport : EncryptionTransportValue)
    (nowMonotonicNs : UInt64) : CausalEpochLease :=
  { lease with
    lastSeenMonotonicNs := nowMonotonicNs
    drainUntilMonotonicNs := transport.drainUntilMonotonicNs }

theorem LeaseTransport.selectEstablishedTransport_eq
    (kept : LeaseTransport state packet.nowMonotonicNs lease transport)
    (own : LeaseOf packet lease) : selectEstablishedTransport state packet lease =
      encrypted transport (lease.renew transport packet.nowMonotonicNs) := by
  have identities : ¬(lease.sourceIdentity ≠ packet.sourceIdentity ∨
      lease.destinationIdentity ≠ packet.destinationIdentity) :=
    not_or.mpr ⟨not_not.mpr own.1, not_not.mpr own.2⟩
  have accepted : (lease.keyEpoch != transport.keyEpoch ||
      lease.contractRevision != transport.contractRevision ||
      !encryptionTransportIsUsable transport true packet.nowMonotonicNs) = false := by
    simp [kept.keyEpoch, kept.contractRevision, kept.usable]
  obtain ⟨⟨key, _⟩, present, rfl⟩ := map_eq_some_iff.mp kept.present
  rw [selectEstablishedTransport, if_neg identities, present]
  simp only [accepted]
  rfl

/-- A lease is kept by its transport or its packet is dropped. -/
theorem selectEstablishedTransport_cases (state : EncryptionFastPathState)
    (packet : FastPathPacketContext) (lease : CausalEpochLease) :
    selectEstablishedTransport state packet lease = .drop .leaseExpiredOrRevoked ∨
      LeaseOf packet lease ∧
        ∃ transport, LeaseTransport state packet.nowMonotonicNs lease transport := by
  unfold selectEstablishedTransport
  split
  · exact .inl rfl
  next identities =>
  split
  · exact .inl rfl
  next key transport found =>
  split
  · exact .inl rfl
  next checks =>
  have checked : (lease.keyEpoch = transport.keyEpoch ∧
      lease.contractRevision = transport.contractRevision) ∧
      encryptionTransportIsUsable transport true packet.nowMonotonicNs = true := by
    simpa using checks
  rw [not_or, not_not, not_not] at identities
  exact .inr ⟨identities, transport, by rw [found]; rfl, checked.1.1, checked.1.2, checked.2⟩

end Unf.Encryption
