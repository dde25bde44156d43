import Unf.Encryption.KeyCut
import Unf.Revision

/-!
# The key authority of a node

A node generates its own tunnel keys. A key starts as a prepared epoch behind a barrier that
names the peers which have to acknowledge it, becomes attested once all of them have, is made
the active one, and is drained and retired after its successor has taken its place. Revocation
ends all epochs up to a given one at once. The operations return the changed authority only when
they succeed, since the callers work on a copy.
-/

namespace Unf.Encryption

open Std (ExtTreeMap ExtTreeSet)
open Unf.Lib
open Unf.Service (Revision)

def nodeKeyAuthoritySchemaVersion : UInt16 := 1

def causalEpochBarrierSchemaVersion : UInt16 := 1

def nodeKeyAttestationSchemaVersion : UInt16 := 1

def maxEpochDrainMs : UInt64 := 24 * 60 * 60 * 1000

/-! ## Keys and epochs -/

/-- A private key, which is not all zeros. -/
structure WireGuardPrivateKey where
  bytes : BitVec 256
  nonzero : bytes ≠ 0
  deriving DecidableEq

def WireGuardPrivateKey.fromZeroizing (bytes : BitVec 256) :
    Except KeyAuthorityError WireGuardPrivateKey :=
  if zero : bytes = 0 then .error .invalidPrivateKey else .ok ⟨bytes, zero⟩

/-- The peers that have to acknowledge an epoch. -/
structure CausalEpochBarrier where
  schemaVersion : UInt16
  targetNodeUid : String
  epoch : UInt64
  publicKeyDigest : Digest
  topologyRevision : Revision
  requiredPeerUids : ExtTreeSet String
  validUntilUnixMs : UInt64
  barrierDigest : Digest
  deriving DecidableEq

/-- A peer has seen an epoch. -/
structure PeerEpochAcknowledgement where
  peerNodeUid : String
  targetNodeUid : String
  epoch : UInt64
  barrierDigest : Digest
  peerPublicEpoch : UInt64
  observedAtUnixMs : UInt64
  deriving DecidableEq, Repr

/-- All peers have seen an epoch. -/
structure EpochReadinessCertificate where
  barrierDigest : Digest
  acknowledgedPeerUids : List String
  readinessDigest : Digest
  deriving DecidableEq, Repr

/-- An epoch of the node, with its private key. -/
structure LocalKeyEpoch where
  epoch : UInt64
  publicKey : WireGuardPublicKey
  privateKey : WireGuardPrivateKey
  validFromUnixMs : UInt64
  validUntilUnixMs : UInt64
  phase : KeyEpochPhase
  barrier : CausalEpochBarrier
  acknowledgements : ExtTreeMap String PeerEpochAcknowledgement
  readiness : Option EpochReadinessCertificate
  drainDeadlineUnixMs : Option UInt64
  deriving DecidableEq

/-- The epochs of a node and its counters. -/
structure NodeKeyAuthority where
  schemaVersion : UInt16
  clusterId : String
  nodeName : String
  nodeUid : String
  keyRevision : Revision
  nextEpoch : UInt64
  retiredThroughEpoch : UInt64
  revokedThroughEpoch : UInt64
  epochs : List LocalKeyEpoch
  deriving DecidableEq

/-- What is left of an epoch: its flows and routes. -/
structure EpochDrainProof where
  nodeUid : String
  epoch : UInt64
  observationRevision : Revision
  observedAtUnixMs : UInt64
  establishedFlowCount : UInt64
  ownedRouteCount : UInt32
  proofDigest : Digest
  deriving DecidableEq, Repr

/-- Why epochs are revoked. -/
inductive EpochRevocationReason where
  | suspectedCompromise
  | nodeReplacement
  | operatorEmergency
  | expiredAuthorityRecovery
  | expiredBeforeActivation
  | fleetEpochSuperseded
  deriving DecidableEq, Repr

/-- What is shown for a revocation. -/
structure EpochRevocationReceipt where
  nodeUid : String
  revokedThroughEpoch : UInt64
  reason : EpochRevocationReason
  revokedAtUnixMs : UInt64
  keyRevision : Revision
  receiptDigest : Digest
  deriving DecidableEq, Repr

/-! ## Rounds of attestation -/

/-- An epoch that peers are to see. -/
structure NodeKeyAttestationProposal where
  recipient : EncryptionGenerationRecipient
  epoch : UInt64
  barrierDigest : Digest
  validFromUnixMs : UInt64
  validUntilUnixMs : UInt64
  deriving DecidableEq, Repr

/-- The epochs that all members attest to each other. -/
structure NodeKeyAttestationRound where
  schemaVersion : UInt16
  clusterId : String
  membershipRevision : Revision
  members : List EncryptionGenerationRecipient
  proposals : List NodeKeyAttestationProposal
  sourceTransparencyCutDigest : Digest
  issuedAtUnixMs : UInt64
  roundDigest : Digest
  deriving DecidableEq, Repr

/-- All acknowledgements of a round for one member. -/
structure NodeKeyAttestationCut where
  schemaVersion : UInt16
  round : NodeKeyAttestationRound
  recipient : EncryptionGenerationRecipient
  acknowledgements : List PeerEpochAcknowledgement
  cutDigest : Digest
  deriving DecidableEq, Repr

/-- Why a round or a cut is rejected. -/
inductive NodeKeyAttestationError where
  | invalidRound
  | foreignPeer
  | invalidCut
  deriving DecidableEq, Repr

/-- The checkpoint of an authority. Private keys are plain bytes here. -/
structure PersistedLocalKeyEpoch where
  epoch : UInt64
  publicKey : WireGuardPublicKey
  privateKey : BitVec 256
  validFromUnixMs : UInt64
  validUntilUnixMs : UInt64
  phase : KeyEpochPhase
  barrier : CausalEpochBarrier
  acknowledgements : ExtTreeMap String PeerEpochAcknowledgement
  readiness : Option EpochReadinessCertificate
  drainDeadlineUnixMs : Option UInt64
  deriving DecidableEq

/-- An authority as it is stored. -/
structure PersistedAuthorityDocument where
  schemaVersion : UInt16
  clusterId : String
  nodeName : String
  nodeUid : String
  keyRevision : Revision
  nextEpoch : UInt64
  retiredThroughEpoch : UInt64
  revokedThroughEpoch : UInt64
  epochs : List PersistedLocalKeyEpoch
  checkpointDigest : Digest
  deriving DecidableEq

/-- The hash functions of the authority and the public key of a private key. Records are hashed
without the digest that they carry. A multiple of the base point by a clamped scalar never has
the coordinate zero. -/
structure KeyPrimitives extends KeyDigests where
  publicKey : WireGuardPublicKey → Digest
  barrier : CausalEpochBarrier → Digest
  readiness : Digest → List String → ExtTreeMap String PeerEpochAcknowledgement → Digest
  drainProof : EpochDrainProof → Digest
  revocation : EpochRevocationReceipt → Digest
  round : NodeKeyAttestationRound → Digest
  attestationCut : NodeKeyAttestationCut → Digest
  checkpoint : PersistedAuthorityDocument → Digest
  derivePublicKey : WireGuardPrivateKey → WireGuardPublicKey
  derivePublicKey_ne_zero : ∀ key, derivePublicKey key ≠ 0

variable (primitives : KeyPrimitives)

/-! ## Checks -/

def validateIdentity (clusterId nodeName nodeUid : String) : Except KeyAuthorityError Unit :=
  failIf (!([clusterId, nodeName, nodeUid].all validateKernelText)) .invalidIdentity

def validatePeerFrontier (targetNodeUid : String) (peers : ExtTreeSet String) :
    Except KeyAuthorityError Unit :=
  failIf (decide (maxRotationPeers < peers.size) ||
    peers.toList.any fun peer => !validateKernelText peer || peer == targetNodeUid)
    .invalidBarrier

def validateLifetime (validFrom validUntil : UInt64) : Except KeyAuthorityError Unit :=
  failIf (validFrom == 0 || decide (validUntil ≤ validFrom) ||
    decide (maxKeyLifetimeMs < validUntil.toNat - validFrom.toNat)) .invalidLifetime

namespace CausalEpochBarrier

def calculateDigest (barrier : CausalEpochBarrier) : Digest :=
  primitives.barrier { barrier with barrierDigest := 0 }

def issue (targetNodeUid : String) (epoch : UInt64) (publicKey : WireGuardPublicKey)
    (topologyRevision : Revision) (requiredPeerUids : ExtTreeSet String)
    (validUntilUnixMs : UInt64) : Except KeyAuthorityError CausalEpochBarrier := do
  validatePeerFrontier targetNodeUid requiredPeerUids
  failIf (epoch == 0 || topologyRevision == .initial || validUntilUnixMs == 0) .invalidBarrier
  let barrier : CausalEpochBarrier :=
    { schemaVersion := causalEpochBarrierSchemaVersion
      targetNodeUid
      epoch
      publicKeyDigest := primitives.publicKey publicKey
      topologyRevision
      requiredPeerUids
      validUntilUnixMs
      barrierDigest := 0 }
  pure { barrier with barrierDigest := barrier.calculateDigest primitives }

def verify (barrier : CausalEpochBarrier) : Except KeyAuthorityError Unit := do
  failIf (barrier.schemaVersion != causalEpochBarrierSchemaVersion || barrier.epoch == 0 ||
    barrier.topologyRevision == .initial || barrier.validUntilUnixMs == 0) .invalidBarrier
  validatePeerFrontier barrier.targetNodeUid barrier.requiredPeerUids
  failIf (barrier.barrierDigest != barrier.calculateDigest primitives) .barrierDigestMismatch

end CausalEpochBarrier

variable (round : NodeKeyAttestationRound) (authority : NodeKeyAuthority) (proof : EpochDrainProof)
  (cut : NodeKeyAttestationCut) (epoch : LocalKeyEpoch)

/-- The certificate of an epoch that exactly the required peers have acknowledged. -/
def issueReadinessCertificate : Except KeyAuthorityError EpochReadinessCertificate := do
  let acknowledgedPeerUids := epoch.acknowledgements.keys
  failIf (acknowledgedPeerUids != epoch.barrier.requiredPeerUids.toList)
    .activationBarrierNotSatisfied
  pure
    { barrierDigest := epoch.barrier.barrierDigest
      acknowledgedPeerUids
      readinessDigest := primitives.readiness epoch.barrier.barrierDigest acknowledgedPeerUids
        epoch.acknowledgements }

namespace EpochDrainProof

def calculateDigest : Digest :=
  primitives.drainProof { proof with proofDigest := 0 }

def verify : Except KeyAuthorityError Unit :=
  failIf (!validateKernelText proof.nodeUid || proof.epoch == 0 ||
    proof.observationRevision == .initial || proof.observedAtUnixMs == 0 ||
    proof.proofDigest != proof.calculateDigest primitives) .invalidDrainProof

end EpochDrainProof

def EpochRevocationReceipt.issue (nodeUid : String) (revokedThroughEpoch : UInt64)
    (reason : EpochRevocationReason) (revokedAtUnixMs : UInt64) (keyRevision : Revision) :
    EpochRevocationReceipt :=
  let receipt : EpochRevocationReceipt :=
    { nodeUid, revokedThroughEpoch, reason, revokedAtUnixMs, keyRevision, receiptDigest := 0 }
  { receipt with receiptDigest := primitives.revocation receipt }

namespace NodeKeyAttestationRound

def calculateDigest : Digest :=
  primitives.round { round with roundDigest := 0 }

def verify : Except NodeKeyAttestationError Unit :=
  failIf (round.schemaVersion != nodeKeyAttestationSchemaVersion || round.clusterId.isEmpty ||
    round.membershipRevision == .initial || round.members.isEmpty ||
    round.proposals.length != round.members.length || round.issuedAtUnixMs == 0 ||
    !strictlyAscending round.members ||
    ((round.members.zip round.proposals).any fun (member, proposal) =>
      member != proposal.recipient || proposal.epoch == 0 ||
        decide (round.issuedAtUnixMs < proposal.validFromUnixMs) ||
        decide (proposal.validUntilUnixMs ≤ round.issuedAtUnixMs)) ||
    round.roundDigest != round.calculateDigest primitives) .invalidRound

/-- The proposal of a round is still what the node publishes. -/
def verifyPublication (publication : NodeKeyPublication) (nowUnixMs : UInt64) :
    Except NodeKeyAttestationError Unit := do
  round.verify primitives
  (publication.verify primitives.toKeyDigests).mapError fun _ => .invalidRound
  let proposal ← (round.proposals.find? fun proposal =>
      proposal.recipient.nodeName == publication.nodeName &&
        proposal.recipient.nodeUid == publication.nodeUid).elim (.error .foreignPeer) .ok
  failIf (round.clusterId != publication.clusterId || decide (nowUnixMs < round.issuedAtUnixMs) ||
    (round.proposals.any fun proposal => decide (proposal.validUntilUnixMs ≤ nowUnixMs)) ||
    !publication.epochs.any fun epoch => epoch.epoch == proposal.epoch &&
      epoch.phase != .draining && epoch.topologyRevision == round.membershipRevision &&
      epoch.barrierDigest == proposal.barrierDigest &&
      epoch.validFromUnixMs == proposal.validFromUnixMs &&
      epoch.validUntilUnixMs == proposal.validUntilUnixMs &&
      epoch.requiredPeerCount.toNat == round.members.length - 1) .invalidRound

end NodeKeyAttestationRound

namespace NodeKeyAttestationCut

def calculateDigest : Digest :=
  primitives.attestationCut { cut with cutDigest := 0 }

def verify : Except NodeKeyAttestationError Unit := do
  cut.round.verify primitives
  let target ← (cut.round.proposals.find? fun proposal =>
    proposal.recipient == cut.recipient).elim (.error .foreignPeer) .ok
  let peers := cut.round.proposals.filter fun proposal => proposal.recipient != cut.recipient
  failIf (cut.schemaVersion != nodeKeyAttestationSchemaVersion ||
    cut.acknowledgements.length != peers.length ||
    ((cut.acknowledgements.zip peers).any fun (acknowledgement, peer) =>
      acknowledgement.peerNodeUid != peer.recipient.nodeUid ||
        acknowledgement.targetNodeUid != cut.recipient.nodeUid ||
        acknowledgement.epoch != target.epoch ||
        acknowledgement.barrierDigest != target.barrierDigest ||
        acknowledgement.peerPublicEpoch != peer.epoch ||
        acknowledgement.observedAtUnixMs != cut.round.issuedAtUnixMs) ||
    cut.cutDigest != cut.calculateDigest primitives) .invalidCut

end NodeKeyAttestationCut

/-! ## Operations -/

namespace NodeKeyAuthority

def new (clusterId nodeName nodeUid : String) : Except KeyAuthorityError NodeKeyAuthority := do
  validateIdentity clusterId nodeName nodeUid
  pure
    { schemaVersion := nodeKeyAuthoritySchemaVersion
      clusterId
      nodeName
      nodeUid
      keyRevision := .initial
      nextEpoch := 1
      retiredThroughEpoch := 0
      revokedThroughEpoch := 0
      epochs := [] }

/-- What is wrong with an acknowledgement that is kept for a peer. -/
def acknowledgementIsInvalid (peer : String) (acknowledgement : PeerEpochAcknowledgement) : Bool :=
  !epoch.barrier.requiredPeerUids.contains peer || acknowledgement.peerNodeUid != peer ||
    acknowledgement.targetNodeUid != authority.nodeUid ||
    acknowledgement.epoch != epoch.epoch ||
    acknowledgement.barrierDigest != epoch.barrier.barrierDigest ||
    acknowledgement.peerPublicEpoch == 0 || acknowledgement.observedAtUnixMs == 0 ||
    decide (epoch.barrier.validUntilUnixMs < acknowledgement.observedAtUnixMs)

/-- What the loop over the epochs remembers. -/
structure EpochScan where
  priorEpoch : UInt64
  publicKeys : ExtTreeSet WireGuardPublicKey

/-- An epoch before attestation has an open barrier, and any later one a certificate. -/
def validateReadiness : Except KeyAuthorityError Unit :=
  let acknowledgementComplete :=
    epoch.acknowledgements.size == epoch.barrier.requiredPeerUids.size
  match epoch.phase with
  | .prepared => failIf (acknowledgementComplete || epoch.readiness.isSome) .invalidDurableState
  | .mutuallyAttested | .active | .draining => do
      failIf (!acknowledgementComplete) .invalidDurableState
      let certificate ← issueReadinessCertificate primitives epoch
      failIf (epoch.readiness != some certificate) .invalidDurableState

def scanEpoch (scan : EpochScan) (epoch : LocalKeyEpoch) : Except KeyAuthorityError EpochScan := do
  failIf (decide (epoch.epoch ≤ scan.priorEpoch) || decide (authority.nextEpoch ≤ epoch.epoch) ||
    decide (epoch.epoch ≤ authority.retiredThroughEpoch) ||
    decide (epoch.epoch ≤ authority.revokedThroughEpoch) ||
    scan.publicKeys.contains epoch.publicKey ||
    primitives.derivePublicKey epoch.privateKey != epoch.publicKey) .invalidDurableState
  validateLifetime epoch.validFromUnixMs epoch.validUntilUnixMs
  epoch.barrier.verify primitives
  failIf (epoch.barrier.targetNodeUid != authority.nodeUid || epoch.barrier.epoch != epoch.epoch ||
    epoch.barrier.publicKeyDigest != primitives.publicKey epoch.publicKey ||
    epoch.barrier.validUntilUnixMs != epoch.validUntilUnixMs ||
    epoch.acknowledgements.toList.any fun (peer, acknowledgement) =>
      authority.acknowledgementIsInvalid epoch peer acknowledgement) .invalidDurableState
  validateReadiness primitives epoch
  failIf ((epoch.phase == .draining) != epoch.drainDeadlineUnixMs.isSome) .invalidDurableState
  pure ⟨epoch.epoch, scan.publicKeys.insert epoch.publicKey⟩

/-- How many epochs are in a phase. -/
def phaseCount (phase : KeyEpochPhase) : Nat :=
  authority.epochs.countP fun epoch => epoch.phase == phase

def validate : Except KeyAuthorityError Unit := do
  failIf (authority.schemaVersion != nodeKeyAuthoritySchemaVersion)
    (.unsupportedSchema authority.schemaVersion)
  validateIdentity authority.clusterId authority.nodeName authority.nodeUid
  failIf (authority.nextEpoch == 0 || decide (2 < authority.epochs.length) ||
    decide (authority.nextEpoch ≤ authority.retiredThroughEpoch) ||
    decide (authority.nextEpoch ≤ authority.revokedThroughEpoch)) .invalidDurableState
  let _ ← authority.epochs.foldlM (authority.scanEpoch primitives) ⟨0, ∅⟩
  failIf (([.prepared, .mutuallyAttested, .active, .draining].any fun phase =>
      decide (1 < authority.phaseCount phase)) ||
    decide (1 < authority.phaseCount .prepared + authority.phaseCount .mutuallyAttested) ||
    (decide (0 < authority.phaseCount .draining) && authority.phaseCount .active != 1))
    .invalidDurableState

def bumpRevision : Except KeyAuthorityError NodeKeyAuthority := do
  failIf (authority.keyRevision.next == authority.keyRevision) .revisionOverflow
  pure { authority with keyRevision := authority.keyRevision.next }

/-- The end of every operation. -/
def finish : Except KeyAuthorityError NodeKeyAuthority := do
  let bumped ← authority.bumpRevision
  bumped.validate primitives
  pure bumped

/-- Where an epoch stands in the list. -/
def positionOf (epoch : UInt64) : Except KeyAuthorityError Nat :=
  (authority.epochs.findIdx? fun candidate => candidate.epoch == epoch).elim
    (.error (.unknownEpoch epoch)) .ok

/-- The epoch at a position that was found. -/
def epochAt (epoch : UInt64) (position : Nat) : Except KeyAuthorityError LocalKeyEpoch :=
  authority.epochs[position]?.elim (.error (.unknownEpoch epoch)) .ok

/-- Without required peers an epoch is attested at once. -/
def stageEpoch (prepared : LocalKeyEpoch) : Except KeyAuthorityError LocalKeyEpoch :=
  if prepared.barrier.requiredPeerUids.isEmpty then do
    let certificate ← issueReadinessCertificate primitives prepared
    pure { prepared with readiness := some certificate, phase := .mutuallyAttested }
  else pure prepared

/-- A new epoch behind the barrier of its peers, with the key that the generator has returned. -/
def prepareEpoch (topologyRevision : Revision) (requiredPeerUids : ExtTreeSet String)
    (validFromUnixMs validUntilUnixMs : UInt64)
    (generated : Except KeyAuthorityError WireGuardPrivateKey) :
    Except KeyAuthorityError NodeKeyAuthority := do
  authority.validate primitives
  failIf (decide (2 ≤ authority.epochs.length) || authority.epochs.any fun epoch =>
    epoch.phase == .prepared || epoch.phase == .mutuallyAttested) .epochCapacityOrTransition
  validateLifetime validFromUnixMs validUntilUnixMs
  let privateKey ← generated
  let publicKey := primitives.derivePublicKey privateKey
  failIf (authority.epochs.any fun epoch => epoch.publicKey == publicKey) .duplicatePublicKey
  let barrier ← CausalEpochBarrier.issue primitives authority.nodeUid authority.nextEpoch publicKey
    topologyRevision requiredPeerUids validUntilUnixMs
  let prepared : LocalKeyEpoch :=
    { epoch := authority.nextEpoch
      publicKey
      privateKey
      validFromUnixMs
      validUntilUnixMs
      phase := .prepared
      barrier
      acknowledgements := ∅
      readiness := none
      drainDeadlineUnixMs := none }
  let staged ← stageEpoch primitives prepared
  let nextEpoch ← (checkedAdd authority.nextEpoch 1).elim (.error .epochOverflow) .ok
  finish primitives { authority with
    epochs := sortByKey LocalKeyEpoch.epoch (authority.epochs ++ [staged])
    nextEpoch }

/-- An epoch with one more acknowledgement, which is attested when it was the last one. -/
def recordAcknowledgement (peer : String) (acknowledgement : PeerEpochAcknowledgement) :
    Except KeyAuthorityError LocalKeyEpoch := do
  let recorded := { epoch with
    acknowledgements := epoch.acknowledgements.insert peer acknowledgement }
  if recorded.acknowledgements.size == recorded.barrier.requiredPeerUids.size then do
    let certificate ← issueReadinessCertificate primitives recorded
    pure { recorded with readiness := some certificate, phase := .mutuallyAttested }
  else pure recorded

/-- The acknowledgement of an authenticated peer. An exact repetition changes nothing. -/
def acknowledgeEpoch (authenticatedPeerNodeUid : String)
    (acknowledgement : PeerEpochAcknowledgement) (nowUnixMs : UInt64) :
    Except KeyAuthorityError (Option NodeKeyAuthority) := do
  authority.validate primitives
  failIf (authenticatedPeerNodeUid != acknowledgement.peerNodeUid) .unauthenticatedPeer
  let position ← authority.positionOf acknowledgement.epoch
  let epoch ← authority.epochAt acknowledgement.epoch position
  failIf (epoch.phase != .prepared) .epochCapacityOrTransition
  failIf (acknowledgement.targetNodeUid != authority.nodeUid ||
    acknowledgement.barrierDigest != epoch.barrier.barrierDigest ||
    acknowledgement.peerPublicEpoch == 0 || acknowledgement.observedAtUnixMs == 0 ||
    decide (nowUnixMs < acknowledgement.observedAtUnixMs) ||
    decide (epoch.barrier.validUntilUnixMs < nowUnixMs) ||
    !epoch.barrier.requiredPeerUids.contains authenticatedPeerNodeUid) .invalidAcknowledgement
  match epoch.acknowledgements[authenticatedPeerNodeUid]? with
  | some previous => do
      failIf (previous != acknowledgement) .acknowledgementMutation
      pure none
  | none => do
      let recorded ← recordAcknowledgement primitives epoch authenticatedPeerNodeUid
        acknowledgement
      let next ← finish primitives { authority with
        epochs := authority.epochs.set position recorded }
      pure (some next)

/-- The epoch that is made the active one, with the predecessor that it drains. -/
def drainPredecessor (position : Nat) (drainDeadline : UInt64) (entry : LocalKeyEpoch × Nat) :
    Except KeyAuthorityError LocalKeyEpoch :=
  if entry.1.phase == .active then do
    failIf (entry.2 == position) .invalidDrainWindow
    pure { entry.1 with
      phase := .draining
      drainDeadlineUnixMs := some (min drainDeadline entry.1.validUntilUnixMs) }
  else pure entry.1

def activateEpoch (epoch : UInt64) (currentTopologyRevision : Revision)
    (nowUnixMs drainWindowMs : UInt64) : Except KeyAuthorityError NodeKeyAuthority := do
  authority.validate primitives
  failIf (drainWindowMs == 0 || decide (maxEpochDrainMs < drainWindowMs)) .invalidDrainWindow
  let position ← authority.positionOf epoch
  let prepared ← authority.epochAt epoch position
  failIf (prepared.phase != .mutuallyAttested ||
    prepared.barrier.topologyRevision != currentTopologyRevision ||
    decide (nowUnixMs < prepared.validFromUnixMs) ||
    decide (prepared.validUntilUnixMs ≤ nowUnixMs) || prepared.readiness.isNone)
    .activationBarrierNotSatisfied
  let drainDeadline ← (checkedAdd nowUnixMs drainWindowMs).elim (.error .invalidDrainWindow) .ok
  let epochs ← authority.epochs.zipIdx.mapM (drainPredecessor position drainDeadline)
  finish primitives { authority with
    epochs := epochs.modify position fun candidate => { candidate with phase := .active } }

def retireDrainedEpoch (nowUnixMs : UInt64) : Except KeyAuthorityError NodeKeyAuthority := do
  authority.validate primitives
  proof.verify primitives
  failIf (proof.nodeUid != authority.nodeUid || decide (nowUnixMs < proof.observedAtUnixMs) ||
    proof.establishedFlowCount != 0 || proof.ownedRouteCount != 0) .invalidDrainProof
  let position ← authority.positionOf proof.epoch
  let drained ← authority.epochAt proof.epoch position
  failIf (drained.phase != .draining || authority.epochs.all fun candidate =>
    candidate.phase != .active) .epochCapacityOrTransition
  finish primitives { authority with
    epochs := authority.epochs.eraseIdx position
    retiredThroughEpoch := max authority.retiredThroughEpoch proof.epoch }

def revokeThrough (epoch : UInt64) (reason : EpochRevocationReason) (nowUnixMs : UInt64) :
    Except KeyAuthorityError (NodeKeyAuthority × EpochRevocationReceipt) := do
  authority.validate primitives
  failIf (epoch == 0 || decide (authority.nextEpoch ≤ epoch) || nowUnixMs == 0)
    (.unknownEpoch epoch)
  let next ← finish primitives { authority with
    epochs := authority.epochs.filter fun candidate => decide (epoch < candidate.epoch)
    revokedThroughEpoch := max authority.revokedThroughEpoch epoch }
  pure (next, .issue primitives next.nodeUid epoch reason nowUnixMs next.keyRevision)

/-! ## Publication and use -/

/-- A length that fits 32 bits. -/
def lengthToU32 (length : Nat) : Except KeyAuthorityError UInt32 :=
  if length < 2 ^ 32 then .ok (UInt32.ofNat length) else .error .invalidDurableState

def publishEpoch : Except KeyAuthorityError KeyEpochPublication := do
  let requiredPeerCount ← lengthToU32 epoch.barrier.requiredPeerUids.size
  let acknowledgedPeerCount ← lengthToU32 epoch.acknowledgements.size
  pure
    { epoch := epoch.epoch
      publicKey := epoch.publicKey
      phase := epoch.phase
      validFromUnixMs := epoch.validFromUnixMs
      validUntilUnixMs := epoch.validUntilUnixMs
      topologyRevision := epoch.barrier.topologyRevision
      barrierDigest := epoch.barrier.barrierDigest
      requiredPeerCount
      acknowledgedPeerCount
      readinessDigest := epoch.readiness.map EpochReadinessCertificate.readinessDigest
      drainDeadlineUnixMs := epoch.drainDeadlineUnixMs }

def publication : Except KeyAuthorityError NodeKeyPublication := do
  authority.validate primitives
  let epochs ← authority.epochs.mapM publishEpoch
  let unsealed : NodeKeyPublication :=
    { schemaVersion := nodeKeyPublicationSchemaVersion
      clusterId := authority.clusterId
      nodeName := authority.nodeName
      nodeUid := authority.nodeUid
      keyRevision := authority.keyRevision
      nextEpoch := authority.nextEpoch
      retiredThroughEpoch := authority.retiredThroughEpoch
      revokedThroughEpoch := authority.revokedThroughEpoch
      epochs
      publicationDigest := 0 }
  pure { unsealed with
    publicationDigest := unsealed.calculateDigest primitives.toKeyDigests }

/-- The acknowledgement that was kept for a peer is repeated in the cut, possibly with a later
time. -/
def retainAcknowledgement (incoming : ExtTreeMap String PeerEpochAcknowledgement)
    (entry : String × PeerEpochAcknowledgement) : Except KeyAuthorityError Unit := do
  let next ← incoming[entry.1]?.elim (.error .invalidAcknowledgement) .ok
  failIf ({ next with observedAtUnixMs := entry.2.observedAtUnixMs } != entry.2 ||
    decide (next.observedAtUnixMs < entry.2.observedAtUnixMs)) .acknowledgementMutation

/-- All acknowledgements of a round at once. An epoch that is past its barrier is left alone. -/
def acknowledgeAttestationCut (nowUnixMs : UInt64) :
    Except KeyAuthorityError (Option NodeKeyAuthority) := do
  (cut.verify primitives).mapError fun _ => .invalidAcknowledgement
  let publication ← authority.publication primitives
  (cut.round.verifyPublication primitives publication nowUnixMs).mapError
    fun _ => .invalidAcknowledgement
  failIf (cut.recipient.nodeName != publication.nodeName ||
    cut.recipient.nodeUid != publication.nodeUid) .invalidAcknowledgement
  let target ← (cut.round.proposals.find? fun proposal =>
    proposal.recipient == cut.recipient).elim (.error .invalidAcknowledgement) .ok
  let position ← authority.positionOf target.epoch
  let epoch ← authority.epochAt target.epoch position
  if epoch.phase != .prepared then
    pure none
  else do
    let requiredPeers : ExtTreeSet String := ExtTreeSet.ofList
      ((cut.round.members.filter fun member => member != cut.recipient).map
        EncryptionGenerationRecipient.nodeUid)
    failIf (decide (requiredPeers ≠ epoch.barrier.requiredPeerUids)) .invalidAcknowledgement
    let incoming : ExtTreeMap String PeerEpochAcknowledgement := ExtTreeMap.ofList
      (cut.acknowledgements.map fun acknowledgement =>
        (acknowledgement.peerNodeUid, acknowledgement))
    epoch.acknowledgements.toList.forM (retainAcknowledgement incoming)
    let missing := cut.acknowledgements.filter fun acknowledgement =>
      !epoch.acknowledgements.contains acknowledgement.peerNodeUid
    let completed := { epoch with
      acknowledgements := missing.foldl (fun kept acknowledgement =>
        kept.insert acknowledgement.peerNodeUid acknowledgement) epoch.acknowledgements }
    let certificate ← issueReadinessCertificate primitives completed
    let next ← finish primitives { authority with
      epochs := authority.epochs.set position
        { completed with readiness := some certificate, phase := .mutuallyAttested } }
    pure (some next)

end NodeKeyAuthority

/-! ## Admission of publications -/

/-- Who has published. -/
structure AuthenticatedNodeIdentity where
  clusterId : String
  nodeName : String
  nodeUid : String
  deriving DecidableEq, Repr

/-- A publication is new, or known. -/
inductive PublicationAdmission where
  | accepted
  | idempotent
  deriving DecidableEq, Repr

/-- An epoch of the previous publication that the next one gives up, or takes back. -/
def epochRegresses (publication : NodeKeyPublication) (old : KeyEpochPublication) : Bool :=
  match publication.epochs.find? fun new => new.epoch == old.epoch with
  | some new => new.publicKey != old.publicKey || decide (new.phase < old.phase)
  | none => decide (publication.retiredThroughEpoch < old.epoch) &&
      decide (publication.revokedThroughEpoch < old.epoch)

/-- A publication after the previous one of the same node. -/
def admitSuccessor (publication previous : NodeKeyPublication) :
    Except KeyAuthorityError PublicationAdmission := do
  failIf (previous.clusterId != publication.clusterId ||
    previous.nodeName != publication.nodeName || previous.nodeUid != publication.nodeUid)
    .nodeReplacementRequiresFence
  failIf (decide (publication.keyRevision < previous.keyRevision)) .publicationReplay
  if publication.keyRevision == previous.keyRevision then do
    failIf (publication != previous) .publicationMutation
    pure .idempotent
  else do
    failIf (decide (publication.nextEpoch < previous.nextEpoch) ||
      decide (publication.retiredThroughEpoch < previous.retiredThroughEpoch) ||
      decide (publication.revokedThroughEpoch < previous.revokedThroughEpoch) ||
      previous.epochs.any (epochRegresses publication)) .publicationRegression
    pure .accepted

def admitAuthenticatedPublication (authenticated : AuthenticatedNodeIdentity)
    (publication : NodeKeyPublication) (previous : Option NodeKeyPublication) :
    Except KeyAuthorityError PublicationAdmission := do
  publication.verify primitives.toKeyDigests
  failIf (authenticated.clusterId != publication.clusterId ||
    authenticated.nodeName != publication.nodeName ||
    authenticated.nodeUid != publication.nodeUid) .unauthenticatedPublication
  match previous with
  | none => pure .accepted
  | some previous => do
      previous.verify primitives.toKeyDigests
      admitSuccessor publication previous

/-! ## Checkpoints -/

def LocalKeyEpoch.persisted : PersistedLocalKeyEpoch where
  epoch := epoch.epoch
  publicKey := epoch.publicKey
  privateKey := epoch.privateKey.bytes
  validFromUnixMs := epoch.validFromUnixMs
  validUntilUnixMs := epoch.validUntilUnixMs
  phase := epoch.phase
  barrier := epoch.barrier
  acknowledgements := epoch.acknowledgements
  readiness := epoch.readiness
  drainDeadlineUnixMs := epoch.drainDeadlineUnixMs

def PersistedLocalKeyEpoch.restored (epoch : PersistedLocalKeyEpoch) :
    Except KeyAuthorityError LocalKeyEpoch := do
  let privateKey ← WireGuardPrivateKey.fromZeroizing epoch.privateKey
  pure
    { epoch := epoch.epoch
      publicKey := epoch.publicKey
      privateKey
      validFromUnixMs := epoch.validFromUnixMs
      validUntilUnixMs := epoch.validUntilUnixMs
      phase := epoch.phase
      barrier := epoch.barrier
      acknowledgements := epoch.acknowledgements
      readiness := epoch.readiness
      drainDeadlineUnixMs := epoch.drainDeadlineUnixMs }

namespace PersistedAuthorityDocument

def calculateDigest (document : PersistedAuthorityDocument) : Digest :=
  primitives.checkpoint { document with checkpointDigest := 0 }

def fromAuthority : PersistedAuthorityDocument :=
  let document : PersistedAuthorityDocument :=
    { schemaVersion := authority.schemaVersion
      clusterId := authority.clusterId
      nodeName := authority.nodeName
      nodeUid := authority.nodeUid
      keyRevision := authority.keyRevision
      nextEpoch := authority.nextEpoch
      retiredThroughEpoch := authority.retiredThroughEpoch
      revokedThroughEpoch := authority.revokedThroughEpoch
      epochs := authority.epochs.map LocalKeyEpoch.persisted
      checkpointDigest := 0 }
  { document with checkpointDigest := document.calculateDigest primitives }

def intoAuthority (document : PersistedAuthorityDocument)
    (expectedClusterId expectedNodeName expectedNodeUid : String) :
    Except KeyAuthorityError NodeKeyAuthority := do
  failIf (document.schemaVersion != nodeKeyAuthoritySchemaVersion)
    (.unsupportedSchema document.schemaVersion)
  failIf (document.checkpointDigest != document.calculateDigest primitives)
    .checkpointDigestMismatch
  failIf (document.clusterId != expectedClusterId || document.nodeName != expectedNodeName ||
    document.nodeUid != expectedNodeUid) .nodeReplacementRequiresFence
  let epochs ← document.epochs.mapM PersistedLocalKeyEpoch.restored
  let authority : NodeKeyAuthority :=
    { schemaVersion := document.schemaVersion
      clusterId := document.clusterId
      nodeName := document.nodeName
      nodeUid := document.nodeUid
      keyRevision := document.keyRevision
      nextEpoch := document.nextEpoch
      retiredThroughEpoch := document.retiredThroughEpoch
      revokedThroughEpoch := document.revokedThroughEpoch
      epochs }
  authority.validate primitives
  pure authority

end PersistedAuthorityDocument

end Unf.Encryption
