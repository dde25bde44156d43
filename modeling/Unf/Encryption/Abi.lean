import Unf.Address
import Unf.Revision

/-!
# Encryption records of the dataplane

The fixed-width records that the agent writes and the packet program reads, with the checks
that the program makes of each before it relies on one. Digests and witnesses are the numbers
that their bytes spell.
-/

namespace Unf.Encryption

open Unf.Lib

def encryptionMapAbiVersion : UInt16 := 2

def encryptionBankCount : UInt8 := 2

def encryptionDecisionMapCapacity : UInt32 := 65536

def encryptionTransportMapCapacity : UInt32 := 4096

def encryptionPathMapCapacity : UInt32 := 65536

def encryptionDispositionNative : UInt8 := 1

def encryptionDispositionRequired : UInt8 := 2

def encryptionTransportActive : UInt8 := 1

def encryptionTransportDraining : UInt8 := 2

def encryptionDecisionFlagPolicyAuthorized : UInt8 := 1

def encryptionDecisionFlagSelectionBound : UInt8 := 2

def encryptionDecisionFlagAddressBound : UInt8 := 4

def encryptionTransportFlagKernelReadback : UInt8 := 1

def encryptionFlowFlagEstablishedLease : UInt8 := 1

/-- The flags of every decision. -/
def encryptionDecisionBaseFlags : UInt8 :=
  encryptionDecisionFlagPolicyAuthorized ||| encryptionDecisionFlagSelectionBound

/-- A packet mark. -/
abbrev Mark := BitVec 32

/-- The sixteen bytes that name the provenance of a record. -/
abbrev Witness := BitVec 128

/-- The field of a packet mark that selects the route into a transport. -/
def encryptionRouteMarkMask : Mark := 0x00ffff00

/-! ## Records -/

/-- A pair of identities in a bank. -/
structure EncryptionDecisionKey where
  sourceIdentity : IdentityId
  destinationIdentity : IdentityId
  bank : UInt8
  deriving DecidableEq, Repr

namespace EncryptionDecisionKey

def sortKey (key : EncryptionDecisionKey) :=
  toLex (key.sourceIdentity, toLex (key.destinationIdentity, key.bank))

instance : LinearOrder EncryptionDecisionKey :=
  LinearOrder.lift' sortKey <| by
    rintro ⟨⟩ ⟨⟩ equal
    simpa [sortKey] using equal

end EncryptionDecisionKey

/-- What is decided for a pair. -/
structure EncryptionDecisionValue where
  transportId : UInt64
  contractRevision : UInt64
  policyRevision : UInt64
  serviceRevision : UInt64
  egressRevision : UInt64
  keyEpoch : UInt64
  decisionWitness : Witness
  schemaVersion : UInt16
  disposition : UInt8
  flags : UInt8
  deriving DecidableEq, Repr

/-- A transport in a bank. -/
structure EncryptionTransportKey where
  transportId : UInt64
  bank : UInt8
  deriving DecidableEq, Repr

namespace EncryptionTransportKey

def sortKey (key : EncryptionTransportKey) :=
  toLex (key.transportId, key.bank)

instance : LinearOrder EncryptionTransportKey :=
  LinearOrder.lift' sortKey <| by
    rintro ⟨⟩ ⟨⟩ equal
    simpa [sortKey] using equal

end EncryptionTransportKey

/-- The tunnel of a transport. -/
structure EncryptionTransportValue where
  keyEpoch : UInt64
  contractRevision : UInt64
  drainUntilMonotonicNs : UInt64
  fwmark : Mark
  routeTable : UInt32
  interfaceIndex : UInt32
  mtu : UInt32
  kernelConfigurationDigest : Witness
  readinessDigest : Witness
  schemaVersion : UInt16
  state : UInt8
  flags : UInt8
  deriving DecidableEq, Repr

/-- A transport for the destinations of a prefix. -/
structure EncryptionPathValue where
  transportId : UInt64
  contractRevision : UInt64
  keyEpoch : UInt64
  bindingWitness : Witness
  schemaVersion : UInt16
  flags : UInt8
  reserved : BitVec 40
  deriving DecidableEq, Repr

/-- The one record that selects a bank. -/
structure EncryptionMapConfig where
  generation : UInt64
  policyRevision : UInt64
  serviceRevision : UInt64
  egressRevision : UInt64
  decisionCount : UInt32
  transportCount : UInt32
  schemaVersion : UInt16
  activeBank : UInt8
  epochCount : UInt8
  pathCount : UInt32
  deriving DecidableEq, Repr

/-- The lease of an established tuple: the transport that was admitted for it, never
permission of the policy. -/
structure EncryptionFlowValue where
  lastSeenMonotonicNs : UInt64
  transportId : UInt64
  keyEpoch : UInt64
  contractRevision : UInt64
  drainUntilMonotonicNs : UInt64
  decisionWitness : Witness
  schemaVersion : UInt16
  flags : UInt8
  reserved : BitVec 40
  deriving DecidableEq, Repr

/-! ## Packets -/

def tcpFlagSyn : UInt8 := 0x02

def tcpFlagRst : UInt8 := 0x04

def tcpFlagAck : UInt8 := 0x10

def connectionTcpTimeoutNs : UInt64 := 300000000000

def connectionUdpTimeoutNs : UInt64 := 30000000000

def connectionSctpTimeoutNs : UInt64 := 60000000000

/-- How long a tuple may be idle, for the protocols that have tuples. -/
def connectionTimeoutNs (protocol : UInt8) : Option UInt64 :=
  if protocol = 6 then some connectionTcpTimeoutNs
  else if protocol = 17 then some connectionUdpTimeoutNs
  else if protocol = 132 then some connectionSctpTimeoutNs
  else none

def packetStartsConnection (protocol tcpFlags : UInt8) : Bool :=
  if protocol = 6 then tcpFlags &&& tcpFlagSyn != 0 && tcpFlags &&& tcpFlagAck == 0
  else protocol == 17 || protocol == 132

/-- An authorized packet may also start a lease as the first reply of a TCP connection. -/
def packetStartsEncryptionLease (protocol tcpFlags : UInt8) : Bool :=
  packetStartsConnection protocol tcpFlags ||
    (protocol == 6 && tcpFlags &&& tcpFlagAck != 0 && tcpFlags &&& (tcpFlagSyn ||| tcpFlagRst) != 0)

/-! ## Marks -/

/-- The selector of the plaintext is the complement of the mark of the encrypted packet
within the owned field, so no rule matches both. -/
def encryptionRouteMark (outerFwmark : Mark) : Option Mark :=
  if outerFwmark = 0 ∨ outerFwmark &&& ~~~encryptionRouteMarkMask ≠ 0 then
    none
  else
    let routeMark := ~~~outerFwmark &&& encryptionRouteMarkMask
    if routeMark = 0 then none else some routeMark

def applyEncryptionRouteMark (existing routeMark : Mark) : Option Mark :=
  if routeMark = 0 ∨ routeMark &&& ~~~encryptionRouteMarkMask ≠ 0 then
    none
  else
    some (existing &&& ~~~encryptionRouteMarkMask ||| routeMark)

def clearEncryptionRouteMark (existing : Mark) : Mark :=
  existing &&& ~~~encryptionRouteMarkMask

theorem clearEncryptionRouteMark_and_mask (existing : Mark) :
    clearEncryptionRouteMark existing &&& encryptionRouteMarkMask = 0 := by
  rw [clearEncryptionRouteMark, BitVec.and_assoc]
  exact BitVec.and_zero

/-- A selector can always be applied, and is then the value of the field. -/
theorem exists_applyEncryptionRouteMark {outerFwmark routeMark : Mark}
    (selector : encryptionRouteMark outerFwmark = some routeMark) (existing : Mark) :
    ∃ mark, applyEncryptionRouteMark existing routeMark = some mark ∧
      mark &&& encryptionRouteMarkMask = routeMark := by
  simp only [encryptionRouteMark, Option.ite_none_left_eq_some, Option.some.injEq] at selector
  obtain ⟨-, nonzero, rfl⟩ := selector
  have inside : ~~~outerFwmark &&& encryptionRouteMarkMask &&& ~~~encryptionRouteMarkMask = 0 := by
    rw [BitVec.and_assoc]
    exact BitVec.and_zero
  have cleared : existing &&& ~~~encryptionRouteMarkMask &&& encryptionRouteMarkMask = 0 :=
    clearEncryptionRouteMark_and_mask existing
  refine ⟨_, if_neg (not_or.mpr ⟨nonzero, not_not.mpr inside⟩), ?_⟩
  rw [BitVec.and_comm (_ ||| _), BitVec.and_or_distrib_left, BitVec.and_comm _ (existing &&& _),
    cleared, BitVec.and_comm encryptionRouteMarkMask, BitVec.and_assoc]
  exact BitVec.zero_or

/-! ## Checks -/

/-- The transport carries new flows while it is active, and established ones also while it
drains, up to its deadline. -/
def encryptionTransportIsUsable (transport : EncryptionTransportValue) (established : Bool)
    (nowMonotonicNs : UInt64) : Bool :=
  if transport.schemaVersion != encryptionMapAbiVersion || transport.keyEpoch == 0 ||
      transport.contractRevision == 0 || (encryptionRouteMark transport.fwmark).isNone ||
      transport.routeTable == 0 || transport.interfaceIndex == 0 || transport.mtu == 0 ||
      transport.kernelConfigurationDigest == 0 || transport.readinessDigest == 0 ||
      transport.flags &&& encryptionTransportFlagKernelReadback == 0 then
    false
  else if transport.state = encryptionTransportActive then
    true
  else if transport.state = encryptionTransportDraining then
    established && transport.drainUntilMonotonicNs != 0 &&
      decide (nowMonotonicNs ≤ transport.drainUntilMonotonicNs)
  else
    false

/-- The bounds of an admitted cut, which may also be empty. -/
def encryptionConfigHasAdmittedCut (config : EncryptionMapConfig) : Bool :=
  config.schemaVersion == encryptionMapAbiVersion &&
    decide (config.activeBank < encryptionBankCount) && config.generation != 0 &&
    config.policyRevision != 0 && config.serviceRevision != 0 && config.egressRevision != 0 &&
    decide (config.epochCount ≤ 2) &&
    decide (config.decisionCount ≤ encryptionDecisionMapCapacity) &&
    decide (config.transportCount ≤ encryptionTransportMapCapacity) &&
    (decide (0 < config.epochCount) == decide (0 < config.transportCount)) &&
    decide (config.pathCount ≤ encryptionPathMapCapacity) &&
    (decide (0 < config.decisionCount) ||
      (config.transportCount == 0 && config.epochCount == 0 && config.pathCount == 0))

def encryptionConfigIsActive (config : EncryptionMapConfig) : Bool :=
  encryptionConfigHasAdmittedCut config && decide (0 < config.decisionCount)

/-- The decision of a pair whose destinations are on several nodes. -/
def EncryptionDecisionValue.addressBound (decision : EncryptionDecisionValue) : Bool :=
  decision.flags == encryptionDecisionBaseFlags ||| encryptionDecisionFlagAddressBound

def encryptionDecisionIsUsable (decision : EncryptionDecisionValue)
    (config : EncryptionMapConfig) : Bool :=
  if decision.schemaVersion != encryptionMapAbiVersion || decision.decisionWitness == 0 ||
      (decision.flags != encryptionDecisionBaseFlags && !decision.addressBound) ||
      decision.policyRevision != config.policyRevision ||
      decision.serviceRevision != config.serviceRevision ||
      decision.egressRevision != config.egressRevision then
    false
  else if decision.disposition = encryptionDispositionNative then
    !decision.addressBound && decision.transportId == 0 && decision.contractRevision == 0 &&
      decision.keyEpoch == 0
  else if decision.disposition = encryptionDispositionRequired then
    decision.contractRevision != 0 && decision.keyEpoch != 0 &&
      decision.addressBound == (decision.transportId == 0)
  else
    false

def encryptionPathIsUsable (path : EncryptionPathValue) (decision : EncryptionDecisionValue) :
    Bool :=
  path.schemaVersion == encryptionMapAbiVersion && path.transportId != 0 &&
    path.contractRevision == decision.contractRevision && path.keyEpoch == decision.keyEpoch &&
    path.bindingWitness != 0 && path.flags == 0 && path.reserved == 0

/-- The tuple was not idle for longer than its protocol allows. A clock that went backwards
counts as no idle time. -/
def encryptionFlowIsUsable (flow : EncryptionFlowValue) (protocol : UInt8)
    (nowMonotonicNs : UInt64) : Bool :=
  match connectionTimeoutNs protocol with
  | none => false
  | some timeoutNs =>
    flow.schemaVersion == encryptionMapAbiVersion && flow.lastSeenMonotonicNs != 0 &&
      flow.transportId != 0 && flow.keyEpoch != 0 && flow.contractRevision != 0 &&
      flow.decisionWitness != 0 && flow.flags == encryptionFlowFlagEstablishedLease &&
      flow.reserved == 0 &&
      decide (nowMonotonicNs.toNat - flow.lastSeenMonotonicNs.toNat ≤ timeoutNs.toNat)

variable {transport : EncryptionTransportValue} {nowMonotonicNs : UInt64}

/-- What carries a new flow carries an established one. -/
theorem encryptionTransportIsUsable_established
    (usable : encryptionTransportIsUsable transport false nowMonotonicNs = true) :
    encryptionTransportIsUsable transport true nowMonotonicNs = true := by
  unfold encryptionTransportIsUsable at usable ⊢
  split at usable
  · cases usable
  · next sound =>
      rw [if_neg sound]
      split at usable
      · next active => rw [if_pos active]
      · split at usable <;> simp at usable

theorem exists_routeMark_of_usable {established : Bool}
    (usable : encryptionTransportIsUsable transport established nowMonotonicNs = true) :
    ∃ routeMark, encryptionRouteMark transport.fwmark = some routeMark := by
  unfold encryptionTransportIsUsable at usable
  split at usable
  · cases usable
  · next sound =>
      simp only [Bool.or_eq_true, not_or] at sound
      have marked : ¬(encryptionRouteMark transport.fwmark).isNone = true := sound.1.1.1.1.1.1.2
      exact Option.ne_none_iff_exists'.mp fun absent => marked (by rw [absent]; rfl)

end Unf.Encryption
