import Unf.Encryption.FastPath
import Unf.Lib.Attempt

/-!
# Cuts of the public keys

What the nodes publish about their key epochs, and a cut of these publications over exactly one
membership of the cluster.
-/

namespace Unf.Encryption

open Unf.Lib Unf.Egress
open Unf.Service (Revision)

def nodeKeyPublicationSchemaVersion : UInt16 := 1

def maxRotationPeers : Nat := 4096

def maxKeyLifetimeMs : Nat := 31 * 24 * 60 * 60 * 1000

/-! ## Members -/

/-- A node by name and UID. -/
structure EncryptionGenerationRecipient where
  nodeName : String
  nodeUid : String
  deriving DecidableEq, Repr

namespace EncryptionGenerationRecipient

def sortKey (recipient : EncryptionGenerationRecipient) :=
  toLex (recipient.nodeName, recipient.nodeUid)

instance : LinearOrder EncryptionGenerationRecipient :=
  LinearOrder.lift' sortKey <| by
    rintro ⟨⟩ ⟨⟩ equal
    simpa [sortKey] using equal

end EncryptionGenerationRecipient

/-! ## Publications -/

/-- The phases of an epoch, in order. -/
inductive KeyEpochPhase where
  | prepared
  | mutuallyAttested
  | active
  | draining
  deriving DecidableEq, Repr

namespace KeyEpochPhase

def rank : KeyEpochPhase → Nat
  | prepared => 0
  | mutuallyAttested => 1
  | active => 2
  | draining => 3

instance : LinearOrder KeyEpochPhase :=
  LinearOrder.lift' rank <| by
    intro left right
    cases left <;> cases right <;> decide

end KeyEpochPhase

/-- What is public of an epoch. -/
structure KeyEpochPublication where
  epoch : UInt64
  publicKey : WireGuardPublicKey
  phase : KeyEpochPhase
  validFromUnixMs : UInt64
  validUntilUnixMs : UInt64
  topologyRevision : Revision
  barrierDigest : Digest
  requiredPeerCount : UInt32
  acknowledgedPeerCount : UInt32
  readinessDigest : Option Digest
  drainDeadlineUnixMs : Option UInt64
  deriving DecidableEq, Repr

/-- What is public of a node's keys. -/
structure NodeKeyPublication where
  schemaVersion : UInt16
  clusterId : String
  nodeName : String
  nodeUid : String
  keyRevision : Revision
  nextEpoch : UInt64
  retiredThroughEpoch : UInt64
  revokedThroughEpoch : UInt64
  epochs : List KeyEpochPublication
  publicationDigest : Digest
  deriving DecidableEq, Repr

/-- One publication for each member, in the order of the members. -/
structure NodeKeyTransparencyCut where
  schemaVersion : UInt16
  clusterId : String
  membershipRevision : Revision
  members : List EncryptionGenerationRecipient
  publications : List NodeKeyPublication
  cutDigest : Digest
  deriving DecidableEq, Repr

/-- The hash functions of public keys. Both records are hashed without the digest that they
carry. -/
structure KeyDigests where
  publication : NodeKeyPublication → Digest
  cut : NodeKeyTransparencyCut → Digest

/-- Why an operation fails. -/
inductive KeyAuthorityError where
  | unsupportedSchema (actual : UInt16)
  | invalidIdentity
  | entropyUnavailable
  | invalidPrivateKey
  | kernelPlanMismatch
  | duplicatePublicKey
  | invalidLifetime
  | epochCapacityOrTransition
  | epochOverflow
  | revisionOverflow
  | unknownEpoch (epoch : UInt64)
  | invalidBarrier
  | barrierDigestMismatch
  | unauthenticatedPeer
  | invalidAcknowledgement
  | acknowledgementMutation
  | activationBarrierNotSatisfied
  | invalidDrainWindow
  | invalidDrainProof
  | invalidDurableState
  | invalidPublication
  | unauthenticatedPublication
  | nodeReplacementRequiresFence
  | publicationReplay
  | publicationMutation
  | publicationRegression
  | unsafeStoragePath
  | checkpointDigestMismatch
  | io (error : FileError)
  | json
  deriving DecidableEq, Repr

namespace NodeKeyPublication

/-- What is wrong with an epoch of a publication. -/
def epochIsInvalid (publication : NodeKeyPublication) (epoch : KeyEpochPublication) : Bool :=
  epoch.epoch == 0 || decide (publication.nextEpoch ≤ epoch.epoch) ||
    decide (epoch.epoch ≤ publication.retiredThroughEpoch) ||
    decide (epoch.epoch ≤ publication.revokedThroughEpoch) || epoch.publicKey == 0 ||
    decide (epoch.validUntilUnixMs ≤ epoch.validFromUnixMs) ||
    decide (maxKeyLifetimeMs < epoch.validUntilUnixMs.toNat - epoch.validFromUnixMs.toNat) ||
    decide (maxRotationPeers < epoch.requiredPeerCount.toNat) ||
    decide (epoch.requiredPeerCount < epoch.acknowledgedPeerCount) ||
    (epoch.phase == .prepared && (epoch.requiredPeerCount == epoch.acknowledgedPeerCount ||
      epoch.readinessDigest.isSome)) ||
    (epoch.phase != .prepared && (epoch.requiredPeerCount != epoch.acknowledgedPeerCount ||
      epoch.readinessDigest.isNone)) ||
    (epoch.phase == .draining) != epoch.drainDeadlineUnixMs.isSome

/-- How many epochs are in a phase. -/
def phaseCount (publication : NodeKeyPublication) (phase : KeyEpochPhase) : Nat :=
  publication.epochs.countP fun epoch => epoch.phase == phase

def calculateDigest (digests : KeyDigests) (publication : NodeKeyPublication) : Digest :=
  digests.publication { publication with publicationDigest := 0 }

def verify (digests : KeyDigests) (publication : NodeKeyPublication) :
    Except KeyAuthorityError Unit := do
  failIf (!([publication.clusterId, publication.nodeName, publication.nodeUid].all
    validateKernelText)) .invalidIdentity
  failIf (publication.schemaVersion != nodeKeyPublicationSchemaVersion ||
    publication.nextEpoch == 0 || decide (2 < publication.epochs.length) ||
    decide ¬(publication.epochs.map KeyEpochPublication.publicKey).Nodup ||
    decide (publication.nextEpoch ≤ publication.retiredThroughEpoch) ||
    decide (publication.nextEpoch ≤ publication.revokedThroughEpoch) ||
    !strictlyAscending (publication.epochs.map KeyEpochPublication.epoch) ||
    publication.epochs.any publication.epochIsInvalid ||
    ([.prepared, .mutuallyAttested, .active, .draining].any fun phase =>
      decide (1 < publication.phaseCount phase)) ||
    decide (1 < publication.phaseCount .prepared + publication.phaseCount .mutuallyAttested) ||
    (decide (0 < publication.phaseCount .draining) && publication.phaseCount .active != 1) ||
    publication.publicationDigest != publication.calculateDigest digests) .invalidPublication

end NodeKeyPublication

end Unf.Encryption
