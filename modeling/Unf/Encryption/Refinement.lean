import Unf.Encryption.Exact
import Unf.Encryption.Installed

/-!
# The packet program and its mirror

For a bank that is installed as the active one, the packet program and the mirror agree on
almost every packet: what the one passes the other passes, with the same mark and lease, and
what the program drops in addition it drops for a reason that the mirror does not look at. The
exceptions are stated exactly. The program refuses a bank as a whole whose counters it does not
accept, it checks parts of a lease that the mirror does not, and it does not know the identities
that a lease was granted for.
-/

namespace Unf.Encryption

open Std (ExtTreeMap)
open Unf.Lib Unf.Egress Option

variable {digests : EncryptionDigests} {context : FastPathCompileContext}
  {epochs : List FastPathEpochAdmission} {inputs : List FastPathDecisionInput}
  {state : EncryptionFastPathState} {admitted : AdmittedEpochs} {outcomes : List GroupOutcome}
  {table : TransportIndex} {maps : EncryptionMaps} {packet : TcPacket}

/-! ## Refinement -/

/-- The packet as the mirror sees it, after the policy at the revisions of the bank. -/
def mirrorPacket (context : FastPathCompileContext) (packet : TcPacket) :
    FastPathPacketContext where
  sourceIdentity := packet.observation.sourceIdentity
  destinationIdentity := packet.observation.destinationIdentity
  destinationAddress := packet.observation.destinationAddress
  policyAuthorized := true
  policyRevision := context.policyRevision
  serviceRevision := context.serviceRevision
  egressRevision := context.egressRevision
  nowMonotonicNs := packet.nowNs

theorem atBank_mirrorPacket (context : FastPathCompileContext) (packet : TcPacket) :
    AtBank context (mirrorPacket context packet) :=
  ⟨rfl, rfl, rfl, rfl⟩

/-- The maps of policy and Service are at the revisions of the bank. -/
structure AtRevisions (context : FastPathCompileContext) (packet : TcPacket) : Prop where
  policyRevision : packet.policyRevision = context.policyRevision.get
  serviceRevision : packet.serviceRevision = some context.serviceRevision.get

/-- The tuple was idle for longer than its protocol allows. -/
def IdleTimeout (packet : TcPacket) (lease : CausalEpochLease) : Prop :=
  ∃ timeoutNs, connectionTimeoutNs packet.observation.protocol = some timeoutNs ∧
    timeoutNs.toNat < packet.nowNs.toNat - lease.lastSeenMonotonicNs.toNat

/-- Why the program may drop a packet that the mirror encrypts. -/
def Excused (packet : TcPacket) (established : Option CausalEpochLease) (mtu : UInt32) : Prop :=
  established.elim
      (packetStartsEncryptionLease packet.observation.protocol packet.observation.tcpFlags = false)
      (IdleTimeout packet) ∨
    packetExceedsEncryptionMtu packet mtu = true ∨ packet.insertSucceeds = false

/-- A passed packet has the mark and the lease that the mirror decides. -/
structure PassedAs (decision : FastPathPacketDecision) (packet : TcPacket)
    (selection : Selection) : Prop where
  marked : decision.applyToMark packet.mark = some selection.mark
  stored : ∀ outerFwmark routeMark routeMarkMask routeTable interfaceIndex mtu lease,
    decision = .encrypt outerFwmark routeMark routeMarkMask routeTable interfaceIndex mtu lease →
    ∃ flow, selection.connections[packet.flowKey]? = some flow ∧
      flow.transportId = lease.transportId ∧ flow.keyEpoch = lease.keyEpoch ∧
      flow.contractRevision = lease.contractRevision ∧
      flow.decisionWitness = lease.decisionWitness

/-- A dropped packet is dropped by the mirror, or would be encrypted and is excused. -/
structure DroppedAs (decision : FastPathPacketDecision) (packet : TcPacket)
    (established : Option CausalEpochLease) : Prop where
  native : decision ≠ .native
  encrypted : ∀ outerFwmark routeMark routeMarkMask routeTable interfaceIndex mtu lease,
    decision = .encrypt outerFwmark routeMark routeMarkMask routeTable interfaceIndex mtu lease →
    Excused packet established mtu

/-- The program does with the packet what the mirror decides. -/
structure Refines (maps : EncryptionMaps) (state : EncryptionFastPathState)
    (context : FastPathCompileContext) (packet : TcPacket)
    (established : Option CausalEpochLease) : Prop where
  passed : (applyEncryptionSelection maps packet).action = .pipe →
    PassedAs (selectEncryptionTransport state (mirrorPacket context packet) established) packet
      (applyEncryptionSelection maps packet)
  dropped : (applyEncryptionSelection maps packet).action = .shot →
    DroppedAs (selectEncryptionTransport state (mirrorPacket context packet) established) packet
      established

/-- The transport of a lease carries the packet, and neither an idle tuple nor the map of leases
stands in its way. -/
def LeaseCarried (state : EncryptionFastPathState) (packet : TcPacket)
    (lease : CausalEpochLease) : Prop :=
  (∃ transport, LeaseTransport state packet.nowNs lease transport ∧
      packetExceedsEncryptionMtu packet transport.mtu = false) ∧
    packet.insertSucceeds = true ∧ ¬IdleTimeout packet lease

/-- What the program checks of a lease and the mirror does not. -/
def LeaseComplete (packet : TcPacket) (lease : CausalEpochLease) : Prop :=
  lease.lastSeenMonotonicNs ≠ 0 ∧ lease.decisionWitness ≠ 0 ∧
    (connectionTimeoutNs packet.observation.protocol).isSome = true

/-- Where the two agree. A pair that was given as native needs a bank that the program accepts.
A lease that its transport carries has to be one that the program accepts exactly if it is of
the packet's own identities. -/
def InStep (digests : EncryptionDigests) (context : FastPathCompileContext)
    (inputs : List FastPathDecisionInput) (state : EncryptionFastPathState) (packet : TcPacket) :
    Option CausalEpochLease → Prop
  | none =>
    (∃ input ∈ inputsOf inputs (mirrorPacket context packet).pair, input.disposition = .native) →
    digests.fastPath.nativeDecision context.generation packet.observation.sourceIdentity
      packet.observation.destinationIdentity ≠ 0 →
    encryptionConfigIsActive state.config = true
  | some lease => LeaseCarried state packet lease →
      (LeaseOf (mirrorPacket context packet) lease ↔
        encryptionConfigIsActive state.config = true ∧ LeaseComplete packet lease)

variable {transport : EncryptionTransportValue} {decision : EncryptionDecisionValue}
  {lease : CausalEpochLease} {flow : EncryptionFlowValue} {mark : Mark}
  {transportId : UInt64} {established : Bool}

/-- An encrypted packet is stored with the lease of the mirror. -/
theorem passedAs_encrypted {connections : ExtTreeMap ConnectionKey EncryptionFlowValue}
    (usable : encryptionTransportIsUsable transport established packet.nowNs = true)
    (applied : applyPacketEncryptionMark packet.mark transport.fwmark = some mark)
    (same : flow.transportId = lease.transportId ∧ flow.keyEpoch = lease.keyEpoch ∧
      flow.contractRevision = lease.contractRevision ∧
      flow.decisionWitness = lease.decisionWitness) : PassedAs (encrypted transport lease) packet
      ⟨.pipe, mark, connections.insert packet.flowKey flow⟩ := by
  obtain ⟨routeMark, selector⟩ := exists_routeMark_of_usable usable
  rw [encrypted_eq selector]
  refine ⟨?_, ?_⟩
  · rw [applyPacketEncryptionMark, selector] at applied
    exact applied
  · intro _ _ _ _ _ _ granted decided
    cases decided
    exact ⟨flow, by rw [getElem?_map_insert, if_pos rfl], same⟩

theorem TcAction.eq_shot_of_ne_pipe {action : TcAction} (stopped : action ≠ .pipe) :
    action = .shot := by
  cases action with
  | pipe => exact absurd rfl stopped
  | shot => rfl

/-! ## Runs of the program -/

theorem startFlow_of_native (decided : NativeDecision maps packet decision) :
    startFlow maps packet = ⟨.pipe, clearEncryptionRouteMark packet.mark, maps.connections⟩ := by
  rw [startFlow, decided.installed]
  simp only [decided.usable, Bool.true_eq_false, if_false, if_pos decided.native]

/-- A packet that may start a lease on a transport that carries it does. -/
theorem startFlow_of_required
    (decided : RequiredDecision maps packet decision transportId transport)
    (carries : Carries maps packet false transportId transport)
    (starts : packetStartsEncryptionLease packet.observation.protocol
      packet.observation.tcpFlags = true) (inserts : packet.insertSucceeds = true)
    (applied : applyPacketEncryptionMark packet.mark transport.fwmark = some mark) :
    startFlow maps packet = ⟨.pipe, mark, maps.connections.insert packet.flowKey
        (newFlow decision transportId transport packet.nowNs)⟩ := by
  have notNative : ¬encryptionDispositionRequired = encryptionDispositionNative := by decide
  have accepted : (decision.keyEpoch != transport.keyEpoch ||
      decision.contractRevision != transport.contractRevision ||
      !encryptionTransportIsUsable transport false packet.nowNs ||
      packetExceedsEncryptionMtu packet transport.mtu) = false := by
    simp [decided.keyEpoch, decided.contractRevision, carries.usable, carries.fits]
  rw [startFlow, decided.installed]
  simp only [decided.usable, Bool.true_eq_false, if_false, if_neg notNative, decided.required,
    ne_eq, not_true_eq_false, starts, decided.bound, carries.installed, accepted,
    Bool.false_eq_true, inserts, applied]

theorem resumeLease_of_carries
    (fresh : encryptionFlowIsUsable flow packet.observation.protocol packet.nowNs = true)
    (carries : Carries maps packet true flow.transportId transport)
    (keyEpoch : flow.keyEpoch = transport.keyEpoch)
    (contractRevision : flow.contractRevision = transport.contractRevision)
    (inserts : packet.insertSucceeds = true)
    (applied : applyPacketEncryptionMark packet.mark transport.fwmark = some mark) :
    resumeLease maps packet flow = ⟨.pipe, mark, maps.connections.insert packet.flowKey { flow with
          lastSeenMonotonicNs := packet.nowNs
          drainUntilMonotonicNs := transport.drainUntilMonotonicNs }⟩ := by
  have accepted : (flow.keyEpoch != transport.keyEpoch ||
      flow.contractRevision != transport.contractRevision ||
      !encryptionTransportIsUsable transport true packet.nowNs ||
      packetExceedsEncryptionMtu packet transport.mtu) = false := by
    simp [keyEpoch, contractRevision, carries.usable, carries.fits]
  rw [resumeLease, carries.installed]
  simp only [fresh, Bool.true_eq_false, if_false, accepted, Bool.false_eq_true, inserts, applied]

theorem inserts_of_resumeLease (passed : (resumeLease maps packet flow).action = .pipe) :
    packet.insertSucceeds = true := by
  by_contra failed
  rw [Bool.not_eq_true] at failed
  unfold resumeLease at passed
  split at passed
  · cases passed
  split at passed
  · cases passed
  split at passed <;> cases passed

/-- A managed packet at the revisions of the bank is looked up unless the program refuses the
bank. -/
theorem applyEncryptionSelection_eq (installed : Installed maps state)
    (built : Built digests context epochs inputs state admitted outcomes table)
    (managed : packet.Managed) (atRevisions : AtRevisions context packet) :
    applyEncryptionSelection maps packet = if encryptionConfigIsActive state.config = true then
        maps.connections[packet.flowKey]?.elim (startFlow maps packet) (resumeLease maps packet)
      else .drop packet maps.connections := by
  have revisions : (packet.policyRevision != state.config.policyRevision ||
      packet.serviceRevision != some state.config.serviceRevision) = false := by
    rw [built.config_eq, atRevisions.policyRevision, atRevisions.serviceRevision]
    simp
  rw [applyEncryptionSelection, if_neg (not_or.mpr managed), installed.config, Bool.or_assoc,
    revisions]
  cases encryptionConfigIsActive state.config with
  | false => rfl
  | true =>
    cases maps.connections[packet.flowKey]? <;> rfl

/-! ## New flows -/

theorem addressBound_of_resolved {packet : FastPathPacketContext}
    (resolved : resolveNewTransportId state packet decision = .ok transportId) :
    decision.addressBound = (decision.transportId == 0) := by
  unfold resolveNewTransportId at resolved
  split at resolved
  · next unbound =>
      split at resolved
      · cases resolved
      · next own => rw [unbound, beq_eq_false_iff_ne.mpr own]
  · next bound =>
      split at resolved
      · cases resolved
      · next none => rw [Bool.not_eq_false] at bound; rw [bound, not_not.mp none]; rfl

theorem flags_of_decisionMatches {packet : FastPathPacketContext}
    (matching : decisionMatches decision packet = true) :
    decision.flags = encryptionDecisionBaseFlags ∨ decision.addressBound = true := by
  simp only [decisionMatches, Bool.and_eq_true, Bool.or_eq_true, beq_iff_eq] at matching
  exact matching.1.1.1.2

/-- A bank that encrypts new flows is accepted. -/
theorem Built.active_of_newTransport
    (built : Built digests context epochs inputs state admitted outcomes table)
    {packet : FastPathPacketContext}
    (new : NewTransport state packet decision transportId transport) :
    encryptionConfigIsActive state.config = true := by
  rw [built.encryptionConfigIsActive_iff]
  have found := (built.decisionFor_eq _).symm.trans new.found
  have present := (built.transportOf_eq _).symm.trans new.present
  have decisions : state.decisionAuthority ≠ [] := by
    intro empty
    rw [empty] at found
    cases found
  have transports : state.transportAuthority ≠ [] := by
    intro empty
    rw [empty] at present
    cases present
  refine ⟨decisions, iff_of_true ?_ transports⟩
  obtain ⟨authority, member⟩ := List.exists_mem_of_ne_nil _ transports
  exact built.epochs_ne_nil_of_transport member

/-- The revision and epoch of a transport in use. -/
theorem nonzero_of_usable {nowMonotonicNs : UInt64}
    (usable : encryptionTransportIsUsable transport established nowMonotonicNs = true) :
    transport.keyEpoch ≠ 0 ∧ transport.contractRevision ≠ 0 := by
  unfold encryptionTransportIsUsable at usable
  split at usable
  · cases usable
  · next sound =>
      simp only [Bool.or_eq_true, not_or, beq_iff_eq] at sound
      tauto

/-- What the program asks of an entry that comes from a lease. -/
theorem encryptionFlowIsUsable_lower_iff :
    encryptionFlowIsUsable lease.lower packet.observation.protocol packet.nowNs = true ↔
      LeaseComplete packet lease ∧ ¬IdleTimeout packet lease ∧ lease.transportId ≠ 0 ∧
        lease.keyEpoch ≠ 0 ∧ lease.contractRevision ≠ 0 := by
  unfold encryptionFlowIsUsable LeaseComplete IdleTimeout CausalEpochLease.lower
  cases connectionTimeoutNs packet.observation.protocol with
  | none => simp
  | some timeoutNs =>
    simp only [Bool.and_eq_true, bne_iff_ne, decide_eq_true_eq, some.injEq, exists_eq_left', not_lt]
    tauto

section Installed

variable (installed : Installed maps state)
  (built : Built digests context epochs inputs state admitted outcomes table)
include installed built

theorem Installed.usable_native_iff (native : decision.disposition = encryptionDispositionNative) :
    encryptionDecisionIsUsable decision maps.config = true ↔
      decisionMatches decision (mirrorPacket context packet) = true ∧
      (!decision.addressBound && decision.transportId == 0 &&
        decision.contractRevision == 0 && decision.keyEpoch == 0) = true := by
  rw [installed.config, built.encryptionDecisionIsUsable_eq (atBank_mirrorPacket context packet),
    if_pos native, Bool.and_eq_true]

theorem Installed.usable_required_iff
    (required : decision.disposition = encryptionDispositionRequired) :
    encryptionDecisionIsUsable decision maps.config = true ↔
      decisionMatches decision (mirrorPacket context packet) = true ∧
      decision.contractRevision ≠ 0 ∧ decision.keyEpoch ≠ 0 ∧
      decision.addressBound = (decision.transportId == 0) := by
  have notNative : ¬decision.disposition = encryptionDispositionNative := by
    rw [required]
    decide
  rw [installed.config, built.encryptionDecisionIsUsable_eq (atBank_mirrorPacket context packet),
    if_neg notNative, if_pos required, Bool.and_eq_true, Bool.and_eq_true, Bool.and_eq_true,
    bne_iff_ne, bne_iff_ne, beq_iff_eq, and_assoc]

/-- Both sides find a native decision, or neither does. -/
theorem Installed.native_iff : selectNewTransport state (mirrorPacket context packet) = .native ↔
      ∃ decision, NativeDecision maps packet decision := by
  rw [← exists_newNative_iff]
  apply exists_congr
  intro decision
  constructor
  · rintro ⟨found, matching, native, unbound⟩
    rw [← installed.decision_found built] at found
    exact ⟨found, (installed.usable_native_iff built native).mpr ⟨matching, unbound⟩, native⟩
  · rintro ⟨found, usable, native⟩
    obtain ⟨matching, unbound⟩ := (installed.usable_native_iff built native).mp usable
    exact ⟨(installed.decision_found built _).symm.trans found, matching, native, unbound⟩

/-- Both sides find a transport for a new flow, the same one, or neither does. -/
theorem Installed.newTransport_iff {transportId : UInt64} :
    NewTransport state (mirrorPacket context packet) decision transportId transport ↔
      RequiredDecision maps packet decision transportId transport ∧
      maps.transport transportId = some transport ∧
      encryptionTransportIsUsable transport false packet.nowNs = true := by
  constructor
  · intro new
    have bound := addressBound_of_resolved new.resolved
    have found := (installed.decision_found built _).trans new.found
    have present := (installed.transport_found built _).trans new.present
    refine ⟨⟨found, ?_, new.required, ?_, new.sameEpoch, new.sameRevision⟩, present, new.usable⟩
    · exact (installed.usable_required_iff built new.required).mpr
        ⟨new.matching, new.contractRevision, new.keyEpoch, bound⟩
    · have same := installed.boundTransportId_eq built (mirrorPacket context packet)
        (flags_of_decisionMatches new.matching) bound
      rw [new.resolved] at same
      exact same
  · rintro ⟨decided, present, usable⟩
    obtain ⟨matching, contractRevision, keyEpoch, bound⟩ :=
      (installed.usable_required_iff built decided.required).mp decided.usable
    have same := installed.boundTransportId_eq built (mirrorPacket context packet)
      (flags_of_decisionMatches matching) bound
    have resolved : resolveNewTransportId state (mirrorPacket context packet) decision =
        .ok transportId := by
      have granted := same.symm.trans decided.bound
      cases result : resolveNewTransportId state (mirrorPacket context packet) decision with
      | error reason =>
        rw [result] at granted
        cases granted
      | ok found =>
        rw [result] at granted
        cases granted
        rfl
    exact
      { found := (installed.decision_found built _).symm.trans decided.installed
        matching
        required := decided.required
        contractRevision
        keyEpoch
        resolved
        present := (installed.transport_found built _).symm.trans present
        sameEpoch := decided.keyEpoch
        sameRevision := decided.contractRevision
        usable }

theorem Installed.passedAs_of_startFlow (free : maps.connections[packet.flowKey]? = none)
    (passed : (startFlow maps packet).action = .pipe) :
    PassedAs (selectNewTransport state (mirrorPacket context packet)) packet
      (startFlow maps packet) := by
  have outcome := startFlow_outcome free
  generalize startFlow maps packet = selection at outcome passed ⊢
  cases outcome with
  | native decision _ decided =>
    rw [(installed.native_iff built).mpr ⟨decision, decided⟩]
    exact ⟨rfl, fun _ _ _ _ _ _ _ granted => by cases granted⟩
  | resumed _ _ _ lease =>
    rw [lease.held] at free
    cases free
  | started decision transportId transport mark _ _ decided carries applied =>
    have new := (installed.newTransport_iff built).mpr ⟨decided, carries.installed, carries.usable⟩
    rw [new.selectNewTransport_eq]
    exact passedAs_encrypted carries.usable applied ⟨rfl, rfl, rfl, rfl⟩
  | dropped => cases passed
  | revoked => cases passed

theorem Installed.droppedAs_of_startFlow (dropped : (startFlow maps packet).action = .shot) :
    DroppedAs (selectNewTransport state (mirrorPacket context packet)) packet none := by
  refine ⟨?_, ?_⟩
  · intro native
    obtain ⟨decision, decided⟩ := (installed.native_iff built).mp native
    rw [startFlow_of_native decided] at dropped
    cases dropped
  · intro _ _ _ _ _ _ lease granted
    obtain ⟨decision, transportId, transport, new, same⟩ :=
      exists_of_selectNewTransport_eq_encrypt granted
    obtain ⟨decided, present, usable⟩ := (installed.newTransport_iff built).mp new
    obtain ⟨mark, applied, -⟩ := exists_applyPacketEncryptionMark usable packet.mark
    obtain ⟨routeMark, selector⟩ := exists_routeMark_of_usable usable
    rw [encrypted_eq selector] at same
    cases same
    by_contra unexcused
    simp only [Excused, elim_none, not_or, Bool.not_eq_false, Bool.not_eq_true]
      at unexcused
    rw [startFlow_of_required decided ⟨present, usable, unexcused.2.1⟩ unexcused.1 unexcused.2.2
      applied] at dropped
    cases dropped

/-- A packet without a lease. -/
theorem Installed.refines_none_iff (managed : packet.Managed)
    (atRevisions : AtRevisions context packet) (free : maps.connections[packet.flowKey]? = none) :
    Refines maps state context packet none ↔ InStep digests context inputs state packet none := by
  have atBank := atBank_mirrorPacket context packet
  have selected := built.selectEncryptionTransport_eq atBank none
  have run := applyEncryptionSelection_eq installed built managed atRevisions
  rw [free] at run
  constructor
  · intro refines given nonzero
    by_contra inactive
    rw [if_neg inactive] at run
    have native := (built.selectNewTransport_eq_native_iff atBank).mpr ⟨given, nonzero⟩
    exact (refines.dropped (by rw [run]; rfl)).native (selected.trans native)
  · intro inStep
    by_cases active : encryptionConfigIsActive state.config = true
    · rw [if_pos active] at run
      refine ⟨?_, ?_⟩ <;> rw [run, selected]
      · exact installed.passedAs_of_startFlow built free
      · exact installed.droppedAs_of_startFlow built
    · rw [if_neg active] at run
      refine ⟨?_, ?_⟩ <;> rw [run, selected]
      · intro passed
        cases passed
      · -- an inactive bank has no transports for new flows
        intro _
        refine ⟨fun native => ?_, fun _ _ _ _ _ _ _ granted => ?_⟩
        · obtain ⟨given, nonzero⟩ := (built.selectNewTransport_eq_native_iff atBank).mp native
          exact active (inStep given nonzero)
        · obtain ⟨_, _, _, new, -⟩ := exists_of_selectNewTransport_eq_encrypt granted
          exact absurd (built.active_of_newTransport new) active

/-! ## Leases -/

/-- The bank has its own transports only. -/
theorem Installed.transport_listed (transportId : UInt64) : maps.transport transportId =
      (state.transports.find? fun entry => entry.1.transportId == transportId).map Prod.snd := by
  rw [installed.transport_eq built, built.transports, lowerTransports, List.find?_map, map_map]
  rfl

theorem Installed.transportId_ne_zero {transportId : UInt64}
    (present : maps.transport transportId = some transport) : transportId ≠ 0 := by
  rw [installed.transport_eq built, map_eq_some_iff] at present
  obtain ⟨authority, found, -⟩ := present
  have same := List.find?_some found
  rw [beq_iff_eq] at same
  rw [← same]
  exact built.transportId_ne_zero (List.mem_of_find?_eq_some found)

/-- A lease that is carried and complete is renewed. -/
theorem Installed.resumeLease_lower (kept : LeaseTransport state packet.nowNs lease transport)
    (fits : packetExceedsEncryptionMtu packet transport.mtu = false)
    (inserts : packet.insertSucceeds = true) (fresh : ¬IdleTimeout packet lease)
    (complete : LeaseComplete packet lease) :
    ∃ mark, applyPacketEncryptionMark packet.mark transport.fwmark = some mark ∧
      resumeLease maps packet lease.lower = ⟨.pipe, mark, maps.connections.insert packet.flowKey
          (lease.renew transport packet.nowNs).lower⟩ := by
  have present := (installed.transport_listed built _).trans kept.present
  obtain ⟨mark, applied, -⟩ := exists_applyPacketEncryptionMark kept.usable packet.mark
  obtain ⟨keyEpoch, contractRevision⟩ := nonzero_of_usable kept.usable
  rw [← kept.keyEpoch] at keyEpoch
  rw [← kept.contractRevision] at contractRevision
  have usable := encryptionFlowIsUsable_lower_iff.mpr
    ⟨complete, fresh, installed.transportId_ne_zero built present, keyEpoch, contractRevision⟩
  exact ⟨mark, applied, resumeLease_of_carries usable ⟨present, kept.usable, fits⟩ kept.keyEpoch
    kept.contractRevision inserts applied⟩

/-- Only such a lease is renewed. -/
theorem Installed.leaseCarried_of_resumeLease
    (held : maps.connections[packet.flowKey]? = some lease.lower)
    (passed : (resumeLease maps packet lease.lower).action = .pipe) :
    LeaseCarried state packet lease ∧ LeaseComplete packet lease := by
  have inserts := inserts_of_resumeLease passed
  have outcome := resumeLease_outcome held
  generalize resumeLease maps packet lease.lower = selection at outcome passed
  cases outcome with
  | native _ free =>
    rw [free] at held
    cases held
  | resumed flow transport _ leased carries =>
    obtain rfl : lease.lower = flow := some.inj (held.symm.trans leased.held)
    obtain ⟨complete, fresh, -⟩ := encryptionFlowIsUsable_lower_iff.mp leased.usable
    have present := (installed.transport_listed built _).symm.trans carries.installed
    exact ⟨⟨⟨transport, ⟨present, leased.keyEpoch, leased.contractRevision, carries.usable⟩,
      carries.fits⟩, inserts, fresh⟩, complete⟩
  | started _ _ _ _ free =>
    rw [free] at held
    cases held
  | dropped => cases passed
  | revoked => cases passed

variable (managed : packet.Managed) (atRevisions : AtRevisions context packet)
  (held : maps.connections[packet.flowKey]? = some lease.lower)
include managed atRevisions held

/-- The program passes the packets of the leases that are carried and complete. -/
theorem Installed.passed_iff :
    (applyEncryptionSelection maps packet).action = .pipe ↔
      LeaseCarried state packet lease ∧
        encryptionConfigIsActive state.config = true ∧ LeaseComplete packet lease := by
  rw [applyEncryptionSelection_eq installed built managed atRevisions, held, elim_some]
  constructor
  · intro passed
    split at passed
    · next active =>
        obtain ⟨carried, complete⟩ := installed.leaseCarried_of_resumeLease built held passed
        exact ⟨carried, active, complete⟩
    · cases passed
  · rintro ⟨⟨⟨transport, kept, fits⟩, inserts, fresh⟩, active, complete⟩
    obtain ⟨mark, -, resumed⟩ := installed.resumeLease_lower built kept fits inserts fresh complete
    rw [if_pos active, resumed]

/-- A packet whose lease the mirror keeps. -/
theorem Installed.passedAs_of_leaseOf (own : LeaseOf (mirrorPacket context packet) lease)
    (passed : (applyEncryptionSelection maps packet).action = .pipe) :
    PassedAs (selectEstablishedTransport state (mirrorPacket context packet) lease) packet
      (applyEncryptionSelection maps packet) := by
  obtain ⟨⟨⟨transport, kept, fits⟩, inserts, fresh⟩, active, complete⟩ :=
    (installed.passed_iff built managed atRevisions held).mp passed
  obtain ⟨mark, applied, resumed⟩ :=
    installed.resumeLease_lower built kept fits inserts fresh complete
  rw [applyEncryptionSelection_eq installed built managed atRevisions, held, elim_some,
    if_pos active, resumed, LeaseTransport.selectEstablishedTransport_eq kept own]
  exact passedAs_encrypted kept.usable applied ⟨rfl, rfl, rfl, rfl⟩

/-- A packet with a lease. -/
theorem Installed.refines_some_iff : Refines maps state context packet (some lease) ↔
      InStep digests context inputs state packet (some lease) := by
  have selected :=
    built.selectEncryptionTransport_eq (atBank_mirrorPacket context packet) (some lease)
  rw [elim_some] at selected
  have passed_iff := installed.passed_iff built managed atRevisions held
  have kept_or_dropped := selectEstablishedTransport_cases state (mirrorPacket context packet) lease
  constructor
  · intro refines carried
    constructor
    · intro own
      apply (passed_iff.mp _).2
      by_contra stopped
      obtain ⟨⟨transport, kept, fits⟩, inserts, fresh⟩ := carried
      obtain ⟨routeMark, selector⟩ := exists_routeMark_of_usable kept.usable
      have dropped := refines.dropped (TcAction.eq_shot_of_ne_pipe stopped)
      rw [selected, LeaseTransport.selectEstablishedTransport_eq kept own, encrypted_eq selector]
        at dropped
      rcases dropped.encrypted _ _ _ _ _ _ _ rfl with idle | exceeds | full
      · exact fresh idle
      · rw [fits] at exceeds
        cases exceeds
      · rw [inserts] at full
        cases full
    · intro accepted
      have marked := (refines.passed (passed_iff.mpr ⟨carried, accepted⟩)).marked
      rcases kept_or_dropped with dropped | ⟨own, -⟩
      · rw [selected, dropped] at marked
        cases marked
      · exact own
  · intro inStep
    refine ⟨?_, ?_⟩
    · intro passed
      obtain ⟨carried, accepted⟩ := passed_iff.mp passed
      rw [selected]
      exact installed.passedAs_of_leaseOf built managed atRevisions held
        ((inStep carried).mpr accepted) passed
    · intro stopped
      rw [selected]
      rcases kept_or_dropped with dropped | ⟨own, transport, kept⟩
      · rw [dropped]
        exact ⟨by simp, by simp⟩
      · obtain ⟨routeMark, selector⟩ := exists_routeMark_of_usable kept.usable
        rw [LeaseTransport.selectEstablishedTransport_eq kept own, encrypted_eq selector]
        refine ⟨by simp, ?_⟩
        intro _ _ _ _ _ _ _ granted
        cases granted
        by_contra unexcused
        simp only [Excused, not_or, Bool.not_eq_false, Bool.not_eq_true]
          at unexcused
        have carried : LeaseCarried state packet lease :=
          ⟨⟨transport, kept, unexcused.2.1⟩, unexcused.2.2, unexcused.1⟩
        rw [passed_iff.mpr ⟨carried, (inStep carried).mp own⟩] at stopped
        cases stopped

end Installed

/-- The program refines the mirror exactly on the packets and leases where the two are in
step. -/
theorem refines_iff_inStep
    (compiled : compileEncryptionFastPath digests context epochs inputs = .ok state)
    (installed : Installed maps state) (managed : packet.Managed)
    (atRevisions : AtRevisions context packet) (established : Option CausalEpochLease)
    (held : maps.connections[packet.flowKey]? = established.map CausalEpochLease.lower) :
    Refines maps state context packet established ↔
      InStep digests context inputs state packet established := by
  obtain ⟨admitted, outcomes, table, built⟩ := exists_built compiled
  cases established with
  | none => exact installed.refines_none_iff built managed atRevisions held
  | some lease => exact installed.refines_some_iff built managed atRevisions held

/-! ## Native pairs -/

/-- A packet of the pair that is not encrypted. -/
def nativePacket : TcPacket where
  observation := ⟨⟨7⟩, ⟨5⟩, .v4 0x0a000505, 6, 2⟩
  flowKey := ⟨0x0a000105, 0x0a000505, 40000, 80, 6, 4⟩
  mark := 0
  length := 100
  nowNs := 20
  policyRevision := 1
  serviceRevision := some 1
  insertSucceeds := true

theorem nativePacket_managed : nativePacket.Managed := by
  unfold TcPacket.Managed
  decide

theorem nativePacket_atRevisions : AtRevisions exampleContext nativePacket := ⟨rfl, rfl⟩

theorem nativePacket_free (state : EncryptionFastPathState) :
    (state.install ∅).connections[nativePacket.flowKey]? = none :=
  ExtTreeMap.getElem?_empty

/-- Inputs that need no transport. -/
def nativeInputs : List FastPathDecisionInput :=
  [⟨⟨7⟩, ⟨5⟩, .native, none, none⟩]

/-- The bank of an epoch that no pair needs: the mirror passes the native pair, and the program
drops its packets, since it does not accept epochs without transports. -/
theorem nativeInputs_not_refines :
    ∃ state, compileEncryptionFastPath exampleDigests exampleContext [exampleEpoch]
        nativeInputs = .ok state ∧ Installed (state.install ∅) state ∧ nativePacket.Managed ∧
      AtRevisions exampleContext nativePacket ∧
      (state.install ∅).connections[nativePacket.flowKey]? = none ∧
      ¬Refines (state.install ∅) state exampleContext nativePacket none := by
  obtain ⟨state, compiled⟩ : ∃ state, compileEncryptionFastPath exampleDigests exampleContext
      [exampleEpoch] nativeInputs = .ok state := exists_ok_of_isSome (by decide +kernel)
  have inactive : (compileEncryptionFastPath exampleDigests exampleContext [exampleEpoch]
      nativeInputs).toOption.all (fun state => !encryptionConfigIsActive state.config) = true := by
    decide +kernel
  rw [compiled] at inactive
  obtain ⟨admitted, outcomes, table, built⟩ := exists_built compiled
  have installed := built.installed_install ∅
  refine ⟨state, compiled, installed, nativePacket_managed, nativePacket_atRevisions,
    nativePacket_free state, fun refines => ?_⟩
  have active := (installed.refines_none_iff built nativePacket_managed nativePacket_atRevisions
    (nativePacket_free state)).mp refines
    ⟨⟨⟨7⟩, ⟨5⟩, .native, none, none⟩, by decide +kernel, rfl⟩ (by decide)
  rw [Except.toOption, Option.all_some, active] at inactive
  cases inactive

/-- With a pair that uses the epoch, the program and the mirror both pass the native pair. -/
theorem separateInputs_refines :
    ∃ state, compileEncryptionFastPath exampleDigests exampleContext [exampleEpoch]
        separateInputs = .ok state ∧
      Refines (state.install ∅) state exampleContext nativePacket none := by
  obtain ⟨state, compiled, -⟩ := separateInputs_compile
  have active : (compileEncryptionFastPath exampleDigests exampleContext [exampleEpoch]
      separateInputs).toOption.all (fun state => encryptionConfigIsActive state.config) = true := by
    decide +kernel
  rw [compiled] at active
  obtain ⟨admitted, outcomes, table, built⟩ := exists_built compiled
  refine ⟨state, compiled, (refines_iff_inStep compiled (built.installed_install ∅)
    nativePacket_managed nativePacket_atRevisions none (nativePacket_free state)).mpr ?_⟩
  intro _ _
  exact active

end Unf.Encryption
