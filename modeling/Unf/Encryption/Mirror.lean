import Unf.Encryption.FastPath

/-!
# The decision mirror

What the control plane expects the packet program to decide with a compiled bank. The policy
comes first; a lease keeps its transport, also a draining one; a new flow takes the transport
that its pair is bound to.
-/

namespace Unf.Encryption

open Unf.Lib Unf.Egress
open Unf.Service (Revision)

/-- A connection and the epoch it uses. -/
structure CausalEpochLease where
  sourceIdentity : IdentityId
  destinationIdentity : IdentityId
  transportId : UInt64
  keyEpoch : UInt64
  contractRevision : UInt64
  decisionWitness : Witness
  lastSeenMonotonicNs : UInt64
  drainUntilMonotonicNs : UInt64
  deriving DecidableEq, Repr

/-- The entry of a lease in the map of connections. -/
def CausalEpochLease.lower (lease : CausalEpochLease) : EncryptionFlowValue where
  lastSeenMonotonicNs := lease.lastSeenMonotonicNs
  transportId := lease.transportId
  keyEpoch := lease.keyEpoch
  contractRevision := lease.contractRevision
  drainUntilMonotonicNs := lease.drainUntilMonotonicNs
  decisionWitness := lease.decisionWitness
  schemaVersion := encryptionMapAbiVersion
  flags := encryptionFlowFlagEstablishedLease
  reserved := 0

/-- What is known about a packet. -/
structure FastPathPacketContext where
  sourceIdentity : IdentityId
  destinationIdentity : IdentityId
  destinationAddress : IpAddr
  policyAuthorized : Bool
  policyRevision : Revision
  serviceRevision : Revision
  egressRevision : Revision
  nowMonotonicNs : UInt64
  deriving DecidableEq, Repr

/-- Why a packet is dropped. -/
inductive FastPathDropReason where
  | policyDenied
  | authorityMissing
  | revisionMismatch
  | transportUnavailable
  | leaseExpiredOrRevoked
  deriving DecidableEq, Repr

/-- What happens to a packet. -/
inductive FastPathPacketDecision where
  | native
  | encrypt (outerFwmark routeMark routeMarkMask : Mark) (routeTable interfaceIndex mtu : UInt32)
      (lease : CausalEpochLease)
  | drop (reason : FastPathDropReason)
  deriving DecidableEq, Repr

/-- The mark of the packet that is passed on. -/
def FastPathPacketDecision.applyToMark (decision : FastPathPacketDecision) (existing : Mark) :
    Option Mark :=
  match decision with
  | .native => some (clearEncryptionRouteMark existing)
  | .encrypt _ routeMark _ _ _ _ _ => applyEncryptionRouteMark existing routeMark
  | .drop _ => none

def encrypted (transport : EncryptionTransportValue) (lease : CausalEpochLease) :
    FastPathPacketDecision :=
  match encryptionRouteMark transport.fwmark with
  | none => .drop .transportUnavailable
  | some routeMark =>
    .encrypt transport.fwmark routeMark encryptionRouteMarkMask transport.routeTable
      transport.interfaceIndex transport.mtu lease

variable (state : EncryptionFastPathState) (packet : FastPathPacketContext)

/-- The transport of a new flow: the one that its decision names, or the one of the longest
prefix around its destination. -/
def resolveNewTransportId (decision : EncryptionDecisionValue) : Except FastPathDropReason UInt64 :=
  if decision.addressBound = false then
    if decision.transportId = 0 then .error .revisionMismatch else .ok decision.transportId
  else if decision.transportId ≠ 0 then
    .error .revisionMismatch
  else
    match maxByKey (fun path => path.ipPrefix.prefixLen)
      (state.pathAuthority.filter fun path => path.ipPrefix.contains packet.destinationAddress) with
    | none => .error .transportUnavailable
    | some path =>
      if path.contractRevision.get != decision.contractRevision ||
          path.keyEpoch != decision.keyEpoch || path.bindingWitness == 0 then
        .error .revisionMismatch
      else
        .ok path.transportId

def selectEstablishedTransport (lease : CausalEpochLease) : FastPathPacketDecision :=
  if lease.sourceIdentity ≠ packet.sourceIdentity ∨
      lease.destinationIdentity ≠ packet.destinationIdentity then
    .drop .leaseExpiredOrRevoked
  else
    match state.transports.find? fun entry => entry.1.transportId == lease.transportId with
    | none => .drop .leaseExpiredOrRevoked
    | some (_, transport) =>
      if lease.keyEpoch != transport.keyEpoch ||
          lease.contractRevision != transport.contractRevision ||
          !encryptionTransportIsUsable transport true packet.nowMonotonicNs then
        .drop .leaseExpiredOrRevoked
      else
        encrypted transport
          { lease with
            lastSeenMonotonicNs := packet.nowMonotonicNs
            drainUntilMonotonicNs := transport.drainUntilMonotonicNs }

/-- The checks of a decision that come before its disposition. -/
def decisionMatches (decision : EncryptionDecisionValue) (packet : FastPathPacketContext) : Bool :=
  decision.schemaVersion == encryptionMapAbiVersion && decision.decisionWitness != 0 &&
    (decision.flags == encryptionDecisionBaseFlags || decision.addressBound) &&
    decision.policyRevision == packet.policyRevision.get &&
    decision.serviceRevision == packet.serviceRevision.get &&
    decision.egressRevision == packet.egressRevision.get

def selectNewTransport : FastPathPacketDecision :=
  match state.decisions.find? fun entry =>
      entry.1.bank == state.config.activeBank &&
        entry.1.sourceIdentity == packet.sourceIdentity &&
        entry.1.destinationIdentity == packet.destinationIdentity with
  | none => .drop .authorityMissing
  | some (_, decision) =>
    if decisionMatches decision packet = false then
      .drop .revisionMismatch
    else if decision.disposition = encryptionDispositionNative then
      if !decision.addressBound && decision.transportId == 0 &&
          decision.contractRevision == 0 && decision.keyEpoch == 0 then
        .native
      else
        .drop .revisionMismatch
    else if decision.disposition ≠ encryptionDispositionRequired ∨
        decision.contractRevision = 0 ∨ decision.keyEpoch = 0 then
      .drop .revisionMismatch
    else
      match resolveNewTransportId state packet decision with
      | .error reason => .drop reason
      | .ok transportId =>
        match state.transports.find? fun entry =>
            entry.1.bank == state.config.activeBank &&
              entry.1.transportId == transportId with
        | none => .drop .transportUnavailable
        | some (_, transport) =>
          if decision.keyEpoch != transport.keyEpoch ||
              decision.contractRevision != transport.contractRevision ||
              !encryptionTransportIsUsable transport false packet.nowMonotonicNs then
            .drop .transportUnavailable
          else
            encrypted transport
              { sourceIdentity := packet.sourceIdentity
                destinationIdentity := packet.destinationIdentity
                transportId
                keyEpoch := decision.keyEpoch
                contractRevision := decision.contractRevision
                decisionWitness := decision.decisionWitness
                lastSeenMonotonicNs := packet.nowMonotonicNs
                drainUntilMonotonicNs := transport.drainUntilMonotonicNs }

def selectEncryptionTransport (established : Option CausalEpochLease) : FastPathPacketDecision :=
  if packet.policyAuthorized = false then
    .drop .policyDenied
  else if state.config.schemaVersion != encryptionMapAbiVersion ||
      decide (encryptionBankCount ≤ state.config.activeBank) ||
      decide (maxFastPathEpochs < state.config.epochCount.toNat) ||
      packet.policyRevision.get != state.config.policyRevision ||
      packet.serviceRevision.get != state.config.serviceRevision ||
      packet.egressRevision.get != state.config.egressRevision then
    .drop .revisionMismatch
  else
    match established with
    | some lease => selectEstablishedTransport state packet lease
    | none => selectNewTransport state packet

end Unf.Encryption
