import Unf.Encryption.Abi
import Unf.Lib.OrderedMap
import Unf.Lib.PrefixSearch

/-!
# Transport selection for a packet

The packet program that stands between the policy and the route. It resolves a tuple that the
policy allowed to native forwarding or to one transport, and drops what it cannot resolve. A
tuple keeps the transport of its first packet by a lease.
-/

namespace Unf.Encryption

open Std (ExtTreeMap)
open Unf.Lib

/-! ## Maps -/

/-- The tuple of a connection. -/
structure ConnectionKey where
  sourceAddress : BitVec 128
  destinationAddress : BitVec 128
  sourcePort : UInt16
  destinationPort : UInt16
  protocol : UInt8
  addressFamily : UInt8
  deriving DecidableEq, Repr

namespace ConnectionKey

def sortKey (key : ConnectionKey) :=
  toLex (key.sourceAddress, toLex (key.destinationAddress, toLex (key.sourcePort,
    toLex (key.destinationPort, toLex (key.protocol, key.addressFamily)))))

instance : LinearOrder ConnectionKey :=
  LinearOrder.lift' sortKey <| by
    rintro ⟨⟩ ⟨⟩ equal
    simpa [sortKey] using equal

end ConnectionKey

/-- The key of a destination prefix. The bank is compared as a whole before the address. -/
structure EncryptionPathKey (width : Nat) where
  bank : UInt8
  destination : Cidr width
  deriving DecidableEq, Repr

namespace EncryptionPathKey

variable {width : Nat}

def sortKey (key : EncryptionPathKey width) :=
  toLex (key.bank, key.destination)

theorem sortKey_injective :
    Function.Injective (sortKey : EncryptionPathKey width → UInt8 ×ₗ Cidr width) := by
  rintro ⟨⟩ ⟨⟩ equal
  simpa [sortKey] using equal

instance : LinearOrder (EncryptionPathKey width) :=
  LinearOrder.lift' sortKey sortKey_injective

end EncryptionPathKey

/-- The maps that the program reads, and the leases that it also writes. -/
structure EncryptionMaps where
  config : EncryptionMapConfig
  decisions : ExtTreeMap EncryptionDecisionKey EncryptionDecisionValue
  transports : ExtTreeMap EncryptionTransportKey EncryptionTransportValue
  ipv4Paths : ExtTreeMap (EncryptionPathKey 32) EncryptionPathValue
  ipv6Paths : ExtTreeMap (EncryptionPathKey 128) EncryptionPathValue
  connections : ExtTreeMap ConnectionKey EncryptionFlowValue

variable (maps : EncryptionMaps)

namespace EncryptionMaps

/-- The decision of the active bank for a pair of identities. -/
def decision (source destination : IdentityId) : Option EncryptionDecisionValue :=
  maps.decisions[EncryptionDecisionKey.mk source destination maps.config.activeBank]?

/-- The transport of the active bank with an id. -/
def transport (transportId : UInt64) : Option EncryptionTransportValue :=
  maps.transports[EncryptionTransportKey.mk transportId maps.config.activeBank]?

/-- The longest prefix of the active bank around an address. -/
def path : IpAddr → Option EncryptionPathValue
  | .v4 address => Cidr.longestMatch
      (fun cidr => maps.ipv4Paths[EncryptionPathKey.mk maps.config.activeBank cidr]?) address
  | .v6 address => Cidr.longestMatch
      (fun cidr => maps.ipv6Paths[EncryptionPathKey.mk maps.config.activeBank cidr]?) address

end EncryptionMaps

/-! ## Packets -/

/-- What the policy observed of the packet. The destination is the one after translation. -/
structure FlowObservation where
  sourceIdentity : IdentityId
  destinationIdentity : IdentityId
  destinationAddress : IpAddr
  protocol : UInt8
  tcpFlags : UInt8
  deriving DecidableEq, Repr

/-- A packet with everything else that its run of the program reads: the tuple of the policy,
the clock, the revisions of the other maps, and whether the map of leases takes an entry. -/
structure TcPacket where
  observation : FlowObservation
  flowKey : ConnectionKey
  mark : Mark
  length : UInt32
  nowNs : UInt64
  policyRevision : UInt64
  serviceRevision : Option UInt64
  insertSucceeds : Bool
  deriving DecidableEq, Repr

variable (packet : TcPacket)

/-- Both ends have an identity. -/
def TcPacket.Managed : Prop :=
  packet.observation.sourceIdentity.get ≠ 0 ∧ packet.observation.destinationIdentity.get ≠ 0

def ethernetHeaderLen : Nat := 14

def packetExceedsEncryptionMtu (mtu : UInt32) : Bool :=
  decide (mtu.toNat < packet.length.toNat - ethernetHeaderLen)

def applyPacketEncryptionMark (mark outerFwmark : Mark) : Option Mark :=
  (encryptionRouteMark outerFwmark).bind (applyEncryptionRouteMark mark)

/-- What the hook returns. -/
inductive TcAction where
  | pipe
  | shot
  deriving DecidableEq, Repr

/-- What a run leaves behind. -/
structure Selection where
  action : TcAction
  mark : Mark
  connections : ExtTreeMap ConnectionKey EncryptionFlowValue

def Selection.drop (connections : ExtTreeMap ConnectionKey EncryptionFlowValue) : Selection :=
  ⟨.shot, packet.mark, connections⟩

/-! ## Selection -/

/-- A tuple with a lease. An invalid lease is removed, and its packet is not tried as the
first one of a tuple. -/
def resumeLease (flow : EncryptionFlowValue) : Selection :=
  let revoked := Selection.drop packet (maps.connections.erase packet.flowKey)
  if encryptionFlowIsUsable flow packet.observation.protocol packet.nowNs = false then
    revoked
  else
    match maps.transport flow.transportId with
    | none => revoked
    | some transport =>
      if flow.keyEpoch != transport.keyEpoch ||
          flow.contractRevision != transport.contractRevision ||
          !encryptionTransportIsUsable transport true packet.nowNs ||
          packetExceedsEncryptionMtu packet transport.mtu then
        revoked
      else if packet.insertSucceeds = false then
        .drop packet maps.connections
      else
        let renewed : EncryptionFlowValue :=
          { flow with
            lastSeenMonotonicNs := packet.nowNs
            drainUntilMonotonicNs := transport.drainUntilMonotonicNs }
        let connections := maps.connections.insert packet.flowKey renewed
        match applyPacketEncryptionMark packet.mark transport.fwmark with
        | none => .drop packet connections
        | some mark => ⟨.pipe, mark, connections⟩

/-- The transport of a decision: its own one, or that of the prefix of the destination. -/
def EncryptionMaps.boundTransportId (decision : EncryptionDecisionValue)
    (destinationAddress : IpAddr) : Option UInt64 :=
  if decision.flags &&& encryptionDecisionFlagAddressBound == 0 then
    some decision.transportId
  else
    match maps.path destinationAddress with
    | none => none
    | some path => if encryptionPathIsUsable path decision then some path.transportId else none

/-- The lease that a packet starts. -/
def newFlow (decision : EncryptionDecisionValue) (transportId : UInt64)
    (transport : EncryptionTransportValue) (nowNs : UInt64) : EncryptionFlowValue where
  lastSeenMonotonicNs := nowNs
  transportId := transportId
  keyEpoch := decision.keyEpoch
  contractRevision := decision.contractRevision
  drainUntilMonotonicNs := transport.drainUntilMonotonicNs
  decisionWitness := decision.decisionWitness
  schemaVersion := encryptionMapAbiVersion
  flags := encryptionFlowFlagEstablishedLease
  reserved := 0

/-- A tuple without a lease. -/
def startFlow : Selection :=
  let dropped := Selection.drop packet maps.connections
  match maps.decision packet.observation.sourceIdentity packet.observation.destinationIdentity with
  | none => dropped
  | some decision =>
    if encryptionDecisionIsUsable decision maps.config = false then
      dropped
    else if decision.disposition = encryptionDispositionNative then
      ⟨.pipe, clearEncryptionRouteMark packet.mark, maps.connections⟩
    else if decision.disposition ≠ encryptionDispositionRequired then
      dropped
    else if packetStartsEncryptionLease packet.observation.protocol
        packet.observation.tcpFlags = false then
      dropped
    else
      match maps.boundTransportId decision packet.observation.destinationAddress with
      | none => dropped
      | some transportId =>
        match maps.transport transportId with
        | none => dropped
        | some transport =>
          if decision.keyEpoch != transport.keyEpoch ||
              decision.contractRevision != transport.contractRevision ||
              !encryptionTransportIsUsable transport false packet.nowNs ||
              packetExceedsEncryptionMtu packet transport.mtu then
            dropped
          else if packet.insertSucceeds = false then
            .drop packet (maps.connections.erase packet.flowKey)
          else
            match applyPacketEncryptionMark packet.mark transport.fwmark with
            | none => .drop packet (maps.connections.erase packet.flowKey)
            | some mark =>
              ⟨.pipe, mark, maps.connections.insert packet.flowKey
                (newFlow decision transportId transport packet.nowNs)⟩

/-- A packet that is not between two identities keeps its mark: no part of it is known to be
the program's own. -/
def applyEncryptionSelection : Selection :=
  if packet.observation.sourceIdentity.get = 0 ∨
      packet.observation.destinationIdentity.get = 0 then
    ⟨.pipe, packet.mark, maps.connections⟩
  else if !encryptionConfigIsActive maps.config ||
      packet.policyRevision != maps.config.policyRevision ||
      packet.serviceRevision != some maps.config.serviceRevision then
    .drop packet maps.connections
  else
    match maps.connections[packet.flowKey]? with
    | some flow => resumeLease maps packet flow
    | none => startFlow maps packet

/-! ## What a run of the program can do -/

/-- A transport of the active bank that carries the packet. -/
structure Carries (maps : EncryptionMaps) (packet : TcPacket) (established : Bool)
    (transportId : UInt64) (transport : EncryptionTransportValue) : Prop where
  installed : maps.transport transportId = some transport
  usable : encryptionTransportIsUsable transport established packet.nowNs = true
  fits : packetExceedsEncryptionMtu packet transport.mtu = false

/-- The decision of the packet's pair requires encryption, and binds the transport itself or
through the prefix of the destination. -/
structure RequiredDecision (maps : EncryptionMaps) (packet : TcPacket)
    (decision : EncryptionDecisionValue) (transportId : UInt64)
    (transport : EncryptionTransportValue) : Prop where
  installed : maps.decision packet.observation.sourceIdentity
    packet.observation.destinationIdentity = some decision
  usable : encryptionDecisionIsUsable decision maps.config = true
  required : decision.disposition = encryptionDispositionRequired
  bound : maps.boundTransportId decision packet.observation.destinationAddress =
    some transportId
  keyEpoch : decision.keyEpoch = transport.keyEpoch
  contractRevision : decision.contractRevision = transport.contractRevision

/-- The decision of the packet's pair is native forwarding. -/
structure NativeDecision (maps : EncryptionMaps) (packet : TcPacket)
    (decision : EncryptionDecisionValue) : Prop where
  installed : maps.decision packet.observation.sourceIdentity
    packet.observation.destinationIdentity = some decision
  usable : encryptionDecisionIsUsable decision maps.config = true
  native : decision.disposition = encryptionDispositionNative

/-- The lease of the tuple names the transport. -/
structure LeaseFor (maps : EncryptionMaps) (packet : TcPacket) (flow : EncryptionFlowValue)
    (transport : EncryptionTransportValue) : Prop where
  held : maps.connections[packet.flowKey]? = some flow
  usable : encryptionFlowIsUsable flow packet.observation.protocol packet.nowNs = true
  keyEpoch : flow.keyEpoch = transport.keyEpoch
  contractRevision : flow.contractRevision = transport.contractRevision

/-- The packet carries the selector of the transport. -/
def MarkedFor (transport : EncryptionTransportValue) (mark : Mark) : Prop :=
  encryptionRouteMark transport.fwmark = some (mark &&& encryptionRouteMarkMask)

/-- The outcomes for a packet between two identities. -/
inductive Outcome (maps : EncryptionMaps) (packet : TcPacket) : Selection → Prop where
  | native (decision : EncryptionDecisionValue) (free : maps.connections[packet.flowKey]? = none)
      (decided : NativeDecision maps packet decision) :
      Outcome maps packet
        ⟨.pipe, clearEncryptionRouteMark packet.mark, maps.connections⟩
  | resumed (flow : EncryptionFlowValue) (transport : EncryptionTransportValue) (mark : Mark)
      (lease : LeaseFor maps packet flow transport)
      (carries : Carries maps packet true flow.transportId transport)
      (applied : applyPacketEncryptionMark packet.mark transport.fwmark = some mark)
      (marked : MarkedFor transport mark) :
      Outcome maps packet
        ⟨.pipe, mark, maps.connections.insert packet.flowKey { flow with
            lastSeenMonotonicNs := packet.nowNs
            drainUntilMonotonicNs := transport.drainUntilMonotonicNs }⟩
  | started (decision : EncryptionDecisionValue) (transportId : UInt64)
      (transport : EncryptionTransportValue) (mark : Mark)
      (free : maps.connections[packet.flowKey]? = none)
      (starts : packetStartsEncryptionLease packet.observation.protocol
        packet.observation.tcpFlags = true)
      (decided : RequiredDecision maps packet decision transportId transport)
      (carries : Carries maps packet false transportId transport)
      (applied : applyPacketEncryptionMark packet.mark transport.fwmark = some mark)
      (marked : MarkedFor transport mark) :
      Outcome maps packet
        ⟨.pipe, mark, maps.connections.insert packet.flowKey
          (newFlow decision transportId transport packet.nowNs)⟩
  | dropped : Outcome maps packet (.drop packet maps.connections)
  | revoked : Outcome maps packet (.drop packet (maps.connections.erase packet.flowKey))

/-- The mark of a transport in use can be set on any packet. -/
theorem exists_applyPacketEncryptionMark {transport : EncryptionTransportValue}
    {established : Bool} {nowNs : UInt64}
    (usable : encryptionTransportIsUsable transport established nowNs = true) (existing : Mark) :
    ∃ mark, applyPacketEncryptionMark existing transport.fwmark = some mark ∧
      MarkedFor transport mark := by
  obtain ⟨routeMark, selector⟩ := exists_routeMark_of_usable usable
  obtain ⟨mark, applied, field⟩ := exists_applyEncryptionRouteMark selector existing
  refine ⟨mark, ?_, ?_⟩
  · rw [applyPacketEncryptionMark, selector]
    exact applied
  · rw [MarkedFor, selector, field]

variable {packet : TcPacket}

theorem resumeLease_outcome {maps : EncryptionMaps} {flow : EncryptionFlowValue}
    (held : maps.connections[packet.flowKey]? = some flow) :
    Outcome maps packet (resumeLease maps packet flow) := by
  unfold resumeLease
  cases fresh : encryptionFlowIsUsable flow packet.observation.protocol packet.nowNs with
  | false => exact .revoked
  | true =>
    cases installed : maps.transport flow.transportId with
    | none => exact .revoked
    | some transport =>
      dsimp only
      rw [if_neg Bool.true_eq_false_eq_False]
      split
      · exact .revoked
      · next sound =>
          simp only [Bool.or_eq_true, bne_iff_ne, Bool.not_eq_eq_eq_not, Bool.not_true,
            not_or, not_not, Bool.not_eq_false, Bool.not_eq_true] at sound
          obtain ⟨⟨⟨keyEpoch, contractRevision⟩, usable⟩, fits⟩ := sound
          split
          · exact .dropped
          · obtain ⟨mark, applied, marked⟩ := exists_applyPacketEncryptionMark usable packet.mark
            rw [applied]
            exact .resumed flow transport mark
              ⟨held, fresh, keyEpoch, contractRevision⟩ ⟨installed, usable, fits⟩ applied
              marked

theorem startFlow_outcome {maps : EncryptionMaps}
    (free : maps.connections[packet.flowKey]? = none) :
    Outcome maps packet (startFlow maps packet) := by
  unfold startFlow
  cases installed : maps.decision packet.observation.sourceIdentity
      packet.observation.destinationIdentity with
  | none => exact .dropped
  | some decision =>
    dsimp only
    cases sound : encryptionDecisionIsUsable decision maps.config with
    | false => exact .dropped
    | true =>
      rw [if_neg Bool.true_eq_false_eq_False]
      split
      · next native => exact .native decision free ⟨installed, sound, native⟩
      · split
        · exact .dropped
        · next required =>
            split
            · exact .dropped
            · next starts =>
                cases bound : maps.boundTransportId decision
                    packet.observation.destinationAddress with
                | none => exact .dropped
                | some transportId =>
                  dsimp only
                  cases present : maps.transport transportId with
                  | none => exact .dropped
                  | some transport =>
                    dsimp only
                    split
                    · exact .dropped
                    · next fresh =>
                        simp only [Bool.or_eq_true, bne_iff_ne, Bool.not_eq_eq_eq_not,
                          Bool.not_true, not_or, not_not, Bool.not_eq_false,
                          Bool.not_eq_true] at fresh
                        obtain ⟨⟨⟨keyEpoch, contractRevision⟩, usable⟩, fits⟩ := fresh
                        split
                        · exact .revoked
                        · obtain ⟨mark, applied, marked⟩ :=
                            exists_applyPacketEncryptionMark usable packet.mark
                          rw [applied]
                          exact .started decision transportId transport mark free
                            (by simpa using starts)
                            ⟨installed, sound, not_not.mp required, bound, keyEpoch,
                              contractRevision⟩
                            ⟨present, usable, fits⟩ applied marked

/-- Every run ends in one of the outcomes. -/
theorem applyEncryptionSelection_outcome (managed : packet.Managed) :
    Outcome maps packet (applyEncryptionSelection maps packet) := by
  unfold applyEncryptionSelection
  rw [if_neg (not_or.mpr managed)]
  split
  · exact .dropped
  · split
    · next flow held => exact resumeLease_outcome held
    · next free => exact startFlow_outcome free

end Unf.Encryption
