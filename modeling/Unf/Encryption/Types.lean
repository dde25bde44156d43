import Unf.Egress.Prefix
import Unf.Encryption.Abi
import Unf.Lib.Grouping

/-!
# Attested path contracts

The facts about nodes, endpoints, keys and paths from which a node's encryption contract is
built, and the contract itself: one plan for each pair of a local and a remote endpoint whose
traffic has to be encrypted. Prefixes are the same as in the egress domain.
-/

namespace Unf.Encryption

open Std (ExtTreeSet)
open Unf.Lib Unf.Egress
open Unf.Service (Revision)

/-- A digest of thirty-two bytes, as their number. -/
abbrev Digest := BitVec 256

instance transOrd_digest : Std.TransOrd Digest :=
  inferInstance

/-- The first sixteen bytes of a digest. -/
def Digest.leading (digest : Digest) : Witness :=
  digest.extractLsb' 128 128

/-! ## Texts -/

def maxWireguardInterfaceNameBytes : Nat := 15

def isAsciiAlphanumeric (character : Char) : Bool :=
  character.isAlpha || character.isDigit

/-! ## Nodes and endpoints -/

/-- Whether a pair is encrypted. -/
inductive EncryptionDisposition where
  | native
  | required
  deriving DecidableEq, Repr

/-- The traffic that is encrypted. -/
inductive EncryptionPathClass where
  | managedPod
  deriving DecidableEq, Repr

/-- What a node has to support. -/
inductive EncryptionCapability where
  | kernelWireGuard
  | dualStackUnderlay
  | policyRouting
  | twoEpochRotation
  | encryptedPathChallenge
  deriving DecidableEq, Repr

namespace EncryptionCapability

def rank : EncryptionCapability → Nat
  | kernelWireGuard => 0
  | dualStackUnderlay => 1
  | policyRouting => 2
  | twoEpochRotation => 3
  | encryptedPathChallenge => 4

instance : LinearOrder EncryptionCapability :=
  LinearOrder.lift' rank <| by
    intro left right
    cases left <;> cases right <;> decide

end EncryptionCapability

/-- A node and its addresses. -/
structure EncryptionNode where
  clusterId : String
  name : String
  uid : String
  podCidrs : List IpPrefix
  underlayAddresses : List IpAddr
  capabilities : ExtTreeSet EncryptionCapability
  deriving DecidableEq

/-- A workload and its node. -/
structure EncryptionEndpointFact where
  identity : IdentityId
  workloadUid : String
  node : EncryptionNode
  deriving DecidableEq

/-- Who sends to whom. -/
structure EncryptionIdentityPair where
  source : IdentityId
  destination : IdentityId
  deriving DecidableEq, Repr

/-! ## Keys and paths -/

abbrev WireGuardPublicKey := BitVec 256

/-- The phases of a key. -/
inductive EncryptionKeyPhase where
  | prepared
  | mutuallyAttested
  | active
  | draining
  deriving DecidableEq, Repr

/-- An address and a port. -/
structure SocketAddr where
  ip : IpAddr
  port : UInt16
  deriving DecidableEq, Repr

/-- One direction of a tunnel between two nodes. -/
structure EncryptionPathFact where
  sourceNodeUid : String
  destinationNodeUid : String
  epoch : UInt64
  pathClass : EncryptionPathClass
  peerEndpoint : SocketAddr
  allowedIps : List IpPrefix
  interfaceName : String
  routeTable : UInt32
  fwmark : Mark
  mtu : UInt32
  deriving DecidableEq, Repr

/-! ## Contracts -/

/-- What a plan was made from. -/
structure EncryptionContractRevisions where
  intent : Revision
  identity : Revision
  policy : Revision
  routing : Revision
  key : Revision
  deriving DecidableEq, Repr

/-- The key of a node. -/
structure EncryptionKeyBinding where
  nodeUid : String
  epoch : UInt64
  publicKey : WireGuardPublicKey
  publicKeyDigest : Digest
  phase : EncryptionKeyPhase
  deriving DecidableEq, Repr

/-- The policy behind a plan. With `replyTo` it is the one of the opposite direction, and the
plan carries only its replies. -/
structure EncryptionPolicyBinding where
  policyIds : List PolicyId
  reason : PolicyReason
  revision : Revision
  replyTo : Option EncryptionIdentityPair
  deriving DecidableEq, Repr

/-- The paths to and from a peer. -/
structure EncryptionTransportBinding where
  forward : EncryptionPathFact
  reverse : EncryptionPathFact
  deriving DecidableEq, Repr

/-- How one workload reaches another. -/
structure AttestedEncryptionPathPlan where
  source : EncryptionEndpointFact
  destination : EncryptionEndpointFact
  disposition : EncryptionDisposition
  intentUids : List String
  policy : EncryptionPolicyBinding
  sourceKey : EncryptionKeyBinding
  destinationKey : EncryptionKeyBinding
  transport : EncryptionTransportBinding
  revisions : EncryptionContractRevisions
  deriving DecidableEq

/-- What a contract promises. -/
inductive EncryptionInvariant where
  | modelNormalized
  | exactNodeOwnership
  | sameClusterBound
  | identityPairSelected
  | policyAllowBeforeEncryption
  | requiredNoPlaintextFallback
  | publicKeysOnly
  | epochAndLifetimeBound
  | bidirectionalRoutesExact
  | allowedIpsDisjoint
  | capabilitiesAdmitted
  | stateBounded
  | failureEnvelopeBounded
  deriving DecidableEq, Repr

/-- Why a pair has no plan. -/
inductive EncryptionFailureClass where
  | sourceKeyUnavailable
  | destinationKeyUnavailable
  | forwardPathUnavailable
  | reversePathUnavailable
  | mutualEvidenceUnavailable
  deriving DecidableEq, Repr

/-- What becomes of such a pair. -/
inductive EncryptionFailureOutcome where
  | denyRequired
  deriving DecidableEq, Repr

/-- One pair without a plan. -/
structure EncryptionFailureObservation where
  source : IdentityId
  sourceWorkloadUid : String
  destination : IdentityId
  destinationWorkloadUid : String
  failureClass : EncryptionFailureClass
  outcome : EncryptionFailureOutcome
  deriving DecidableEq, Repr

/-- The pairs without a plan. -/
structure EncryptionFailureEnvelope where
  observations : List EncryptionFailureObservation
  totalObservations : Nat
  truncated : Bool
  deriving DecidableEq, Repr

/-- The plans of one node. -/
structure AttestedEncryptionPathContract where
  schemaVersion : UInt16
  contractRevision : Revision
  localNode : EncryptionNode
  validFromUnixMs : UInt64
  validUntilUnixMs : UInt64
  plans : List AttestedEncryptionPathPlan
  verifiedInvariants : List EncryptionInvariant
  failureEnvelope : EncryptionFailureEnvelope
  contractDigest : Digest
  deriving DecidableEq

/-- What a decision witness is computed from, beside the digest of its contract. -/
structure DecisionWitnessMaterial where
  sourceIdentity : IdentityId
  sourceWorkloadUid : String
  destinationIdentity : IdentityId
  destinationWorkloadUid : String
  sourceNodeUid : String
  destinationNodeUid : String
  epoch : UInt64
  routeTable : UInt32
  fwmark : Mark
  revisions : EncryptionContractRevisions
  deriving DecidableEq, Repr

/-- The hash functions of contracts. A contract is hashed without the digest that it carries. -/
structure ContractDigests where
  publicKey : WireGuardPublicKey → Digest
  contract : AttestedEncryptionPathContract → Digest
  decisionWitness : Digest → DecisionWitnessMaterial → Witness

/-- Why intents are rejected. -/
inductive EncryptionModelError where
  | unsupportedSchema (actual expected : UInt16)
  | invalidText (field : String)
  | tooManyIntents (actual limit : Nat)
  | tooManySelectorIdentities (actual limit : Nat)
  | emptyIdentitySelector
  | zeroIdentity
  | duplicateIntentName (name : String)
  | duplicateIntentUid (uid : String)
  | notNormalized
  deriving DecidableEq, Repr

/-- Why a contract is rejected. -/
inductive EncryptionContractError where
  | invalidModel (error : EncryptionModelError)
  | unsupportedSchema (actual expected : UInt16)
  | invalidRevisionOrLifetime
  | invalidNode (reason : String)
  | capacity (kind : String) (actual limit : Nat)
  | invalidEndpoint
  | missingPolicy
  | invalidPolicy
  | missingKey
  | invalidKey
  | missingPath
  | invalidPath (reason : String)
  | missingCapability (capability : EncryptionCapability)
  | ambiguousAllowedIp
  | replayMismatch
  | unknownWitnessSelection
  deriving DecidableEq, Repr

def attestedEncryptionPathContractSchemaVersion : UInt16 := 1

def attestedEncryptionReplyContractSchemaVersion : UInt16 := 2

/-- Contracts with plans for replies have a schema of their own. -/
def contractSchemaVersion (plans : List AttestedEncryptionPathPlan) : UInt16 :=
  if plans.any fun plan => plan.policy.replyTo.isSome then
    attestedEncryptionReplyContractSchemaVersion
  else
    attestedEncryptionPathContractSchemaVersion

/-- A plan for replies names its own pair in the opposite direction. -/
def validateReplyOrigins (plans : List AttestedEncryptionPathPlan) :
    Except EncryptionContractError Unit :=
  failIf (plans.any fun plan => plan.policy.replyTo.any fun origin =>
    origin.source != plan.destination.identity || origin.destination != plan.source.identity ||
      origin.source == origin.destination) .invalidPolicy

variable (digests : ContractDigests) (contract : AttestedEncryptionPathContract)

namespace AttestedEncryptionPathContract

def calculateDigest : Digest :=
  digests.contract
    { contract with
      schemaVersion := contractSchemaVersion contract.plans
      contractDigest := 0 }

def verifyIntegrity : Except EncryptionContractError Unit := do
  failIf (contract.schemaVersion != contractSchemaVersion contract.plans)
    (.unsupportedSchema contract.schemaVersion (contractSchemaVersion contract.plans))
  validateReplyOrigins contract.plans
  failIf (contract.contractDigest != contract.calculateDigest digests) .replayMismatch

/-- The provenance of a decision that comes from a plan. -/
def decisionWitness (planIndex : Nat) : Except EncryptionContractError Witness := do
  let plan ← contract.plans[planIndex]?.elim (.error .unknownWitnessSelection) .ok
  pure (digests.decisionWitness contract.contractDigest
    { sourceIdentity := plan.source.identity
      sourceWorkloadUid := plan.source.workloadUid
      destinationIdentity := plan.destination.identity
      destinationWorkloadUid := plan.destination.workloadUid
      sourceNodeUid := plan.source.node.uid
      destinationNodeUid := plan.destination.node.uid
      epoch := plan.sourceKey.epoch
      routeTable := plan.transport.forward.routeTable
      fwmark := plan.transport.forward.fwmark
      revisions := plan.revisions })

end AttestedEncryptionPathContract

/-- Prefixes that share an address. -/
def overlapping (left right : IpPrefix) : Bool :=
  left.contains right.address || right.contains left.address

end Unf.Encryption
