import Unf.Egress.Prefix
import Unf.Lib.Grouping

/-!
# Classification of internet destinations

A classifier publishes rules for prefixes, and the most specific rule of an address decides.
The exceptions of a policy only take authority away, and an address without a rule is
denied. A snapshot holds a policy together with the classification it was compiled from.
When the classifier is lost, the last classification may be used on for a bounded time.
-/

namespace Unf.Egress

open Unf.Lib
open Unf.Service (Revision)

/-! ## Limits and versions -/

def egressInternetClassificationSchemaVersion : UInt16 := 1

def egressInternetClassificationAlgorithmAuthorityCarvingV1 : UInt16 := 1

def maxEgressInternetRules : Nat := 1024

def maxEgressInternetExceptions : Nat := 256

def maxEgressInternetRuleProvenanceBytes : Nat := 512

def maxEgressInternetValiditySeconds : UInt64 := 86400

def maxEgressInternetStalenessSeconds : UInt64 := 3600

def maxEgressInternetFutureSkewSeconds : UInt64 := 30

/-- Why a policy or snapshot is rejected. -/
inductive EgressInternetError where
  | unsupportedVersion
  | invalidPolicy (reason : String)
  | invalidClassification (reason : String)
  | classificationDigestMismatch
  | foreignClassifier
  | classificationRegression
  | classificationMutation
  | noncanonicalSnapshot
  | snapshotDigestMismatch
  deriving DecidableEq, Repr

abbrev InternetResult := Except EgressInternetError

/-! ## Classifications -/

/-- The kinds of addresses. -/
inductive EgressInternetClass where
  | internet
  | nonInternet
  deriving DecidableEq, Repr

namespace EgressInternetClass

def rank : EgressInternetClass → Nat
  | internet => 0
  | nonInternet => 1

instance : LinearOrder EgressInternetClass :=
  LinearOrder.lift' rank <| by
    intro left right
    cases left <;> cases right <;> decide

end EgressInternetClass

/-- The kind of one prefix, and who says so. -/
structure EgressInternetClassificationRule where
  ipPrefix : IpPrefix
  «class» : EgressInternetClass
  provenance : String
  deriving DecidableEq, Repr

namespace EgressInternetClassificationRule

def sortKey (rule : EgressInternetClassificationRule) :=
  toLex (rule.ipPrefix, toLex (rule.«class», rule.provenance))

instance : LinearOrder EgressInternetClassificationRule :=
  LinearOrder.lift' sortKey <| by
    rintro ⟨⟩ ⟨⟩ equal
    simpa [sortKey] using equal

end EgressInternetClassificationRule

/-- A classification without its digest: what the digest is computed from. -/
structure InternetClassificationMaterial where
  schemaVersion : UInt16
  algorithm : UInt16
  revision : Revision
  source : EgressProviderRef
  sourceEpoch : UInt64
  observedAtUnixSeconds : UInt64
  validUntilUnixSeconds : UInt64
  rules : List EgressInternetClassificationRule
  deriving DecidableEq

/-- Classified prefixes under their digest. -/
structure EgressInternetClassification (Digest : Type) extends
    InternetClassificationMaterial where
  digest : Digest
  deriving DecidableEq

def validProvider (provider : EgressProviderRef) : Bool :=
  !provider.name.isEmpty && decide (provider.name.utf8ByteSize ≤ 253) &&
    !provider.«instance».isEmpty && decide (provider.«instance».utf8ByteSize ≤ 128)

def EgressInternetClassificationRule.invalid (rule : EgressInternetClassificationRule) : Bool :=
  !rule.ipPrefix.isCanonical || rule.provenance.isEmpty ||
    decide (maxEgressInternetRuleProvenanceBytes < rule.provenance.utf8ByteSize)

/-- The end of the validity is after its beginning, and not too far. -/
def validityInvalid (observedAt validUntil : UInt64) : Bool :=
  decide (validUntil ≤ observedAt) ||
    decide (maxEgressInternetValiditySeconds < validUntil - observedAt)

/-! ## Policies -/

/-- What holds when a classification is too old. -/
inductive EgressInternetFallback where
  | deny
  | lastKnownGood (maxStalenessSeconds : UInt64)
  deriving DecidableEq, Repr

/-- What an intent says about the internet. -/
structure EgressInternetDestinationSpec where
  classifier : EgressProviderRef
  exceptions : List IpPrefix
  fallback : EgressInternetFallback
  deriving DecidableEq, Repr

/-- The specification of one owner. -/
structure EgressInternetPolicy extends EgressInternetDestinationSpec where
  revision : Revision
  owner : EgressIntentOwner
  deriving DecidableEq

def canonicalizePrefixes (prefixes : List IpPrefix) (limit : Nat) :
    Except String (List IpPrefix) := do
  failIf (decide (limit < prefixes.length) || prefixes.any fun range => !range.isCanonical)
    "prefix set is invalid or exceeds its bound"
  failIf (hasAdjacentRepeat (sort prefixes)) "duplicate prefixes are forbidden"
  return sort prefixes

def EgressInternetFallback.invalid : EgressInternetFallback → Bool
  | .deny => false
  | .lastKnownGood maxStalenessSeconds => maxStalenessSeconds == 0 ||
      decide (maxEgressInternetStalenessSeconds < maxStalenessSeconds)

def normalizeEgressInternetDestinationSpec (spec : EgressInternetDestinationSpec) :
    InternetResult EgressInternetDestinationSpec := do
  failIf (!validProvider spec.classifier) (.invalidPolicy "classifier identity is invalid")
  let exceptions ← (canonicalizePrefixes spec.exceptions maxEgressInternetExceptions).mapError
    .invalidPolicy
  failIf spec.fallback.invalid (.invalidPolicy "last-known-good staleness is zero or unbounded")
  return { spec with exceptions := exceptions }

/-! ## Snapshots -/

/-- What a snapshot rests on. -/
inductive EgressInternetAuthority (Digest : Type) where
  | current
  | lastKnownGood (previousSnapshotDigest : Digest)
  | denyClosed
  deriving DecidableEq

/-- A snapshot without its digest: what the digest is computed from. -/
structure InternetSnapshotMaterial (Digest : Type) where
  schemaVersion : UInt16
  algorithm : UInt16
  compiledAtUnixSeconds : UInt64
  authorityUntilUnixSeconds : UInt64
  policy : EgressInternetPolicy
  classification : Option (EgressInternetClassification Digest)
  authority : EgressInternetAuthority Digest
  deriving DecidableEq

/-- A compiled policy under its digest. -/
structure EgressInternetSnapshot (Digest : Type) extends
    InternetSnapshotMaterial Digest where
  digest : Digest
  deriving DecidableEq

/-- The digests of classifications and snapshots. -/
structure InternetDigests (Digest : Type) where
  classification : InternetClassificationMaterial → Digest
  snapshot : InternetSnapshotMaterial Digest → Digest

section Digest

variable {Digest : Type} [DecidableEq Digest] (digests : InternetDigests Digest)

def sealEgressInternetClassification (classification : EgressInternetClassification Digest) :
    InternetResult (EgressInternetClassification Digest) := do
  failIf (classification.schemaVersion != egressInternetClassificationSchemaVersion ||
      classification.algorithm != egressInternetClassificationAlgorithmAuthorityCarvingV1)
    .unsupportedVersion
  failIf (classification.revision == .initial || classification.sourceEpoch == 0)
    (.invalidClassification "revision and source epoch must be nonzero")
  failIf (!validProvider classification.source)
    (.invalidClassification "classifier identity is invalid")
  failIf (classification.rules.isEmpty ||
      decide (maxEgressInternetRules < classification.rules.length))
    (.invalidClassification "rule set is empty or unbounded")
  failIf (validityInvalid classification.observedAtUnixSeconds classification.validUntilUnixSeconds)
    (.invalidClassification "validity interval is invalid or unbounded")
  failIf (classification.rules.any EgressInternetClassificationRule.invalid)
    (.invalidClassification "rule prefix or provenance is invalid")
  let rules := sort classification.rules
  failIf (hasAdjacentRepeat (rules.map EgressInternetClassificationRule.ipPrefix))
    (.invalidClassification "each prefix must have exactly one classification")
  let material := { classification.toInternetClassificationMaterial with rules := rules }
  return ⟨material, digests.classification material⟩

def verifyEgressInternetClassification (classification : EgressInternetClassification Digest) :
    InternetResult (EgressInternetClassification Digest) := do
  let replayed ← sealEgressInternetClassification digests classification
  failIf (replayed.digest != classification.digest) .classificationDigestMismatch
  return replayed

/-- The classification supports the authority of the snapshot. -/
def replayAuthority (snapshot : EgressInternetSnapshot Digest) : InternetResult Unit :=
  match snapshot.authority, snapshot.classification with
  | .current, some classification => do
      let classification ← verifyEgressInternetClassification digests classification
      failIf (classification.source != snapshot.policy.classifier ||
          snapshot.authorityUntilUnixSeconds != classification.validUntilUnixSeconds ||
          decide (saturatingAdd snapshot.compiledAtUnixSeconds
            maxEgressInternetFutureSkewSeconds < classification.observedAtUnixSeconds) ||
          decide (snapshot.authorityUntilUnixSeconds ≤ snapshot.compiledAtUnixSeconds))
        .noncanonicalSnapshot
  | .lastKnownGood _, some classification => do
      let classification ← verifyEgressInternetClassification digests classification
      match snapshot.policy.fallback with
      | .deny => .error .noncanonicalSnapshot
      | .lastKnownGood maxStalenessSeconds =>
        failIf (classification.source != snapshot.policy.classifier ||
            snapshot.authorityUntilUnixSeconds !=
              saturatingAdd classification.validUntilUnixSeconds maxStalenessSeconds ||
            decide (snapshot.authorityUntilUnixSeconds ≤ snapshot.compiledAtUnixSeconds))
          .noncanonicalSnapshot
  | .denyClosed, none =>
    failIf (snapshot.authorityUntilUnixSeconds != snapshot.compiledAtUnixSeconds)
      .noncanonicalSnapshot
  | _, _ => .error .noncanonicalSnapshot

/-- The checks that a snapshot passes before it is used. -/
def replayEgressInternetSnapshot (snapshot : EgressInternetSnapshot Digest) :
    InternetResult Unit := do
  let spec ← normalizeEgressInternetDestinationSpec
    snapshot.policy.toEgressInternetDestinationSpec
  failIf (snapshot.schemaVersion != egressInternetClassificationSchemaVersion ||
      snapshot.algorithm != egressInternetClassificationAlgorithmAuthorityCarvingV1 ||
      snapshot.policy.revision == .initial ||
      spec != snapshot.policy.toEgressInternetDestinationSpec)
    .noncanonicalSnapshot
  replayAuthority digests snapshot
  failIf (digests.snapshot snapshot.toInternetSnapshotMaterial != snapshot.digest)
    .snapshotDigestMismatch

/-- A snapshot that has been replayed. -/
structure VerifiedEgressInternetSnapshot where
  snapshot : EgressInternetSnapshot Digest
  replayed : replayEgressInternetSnapshot digests snapshot = .ok ⟨⟩

def verifyEgressInternetSnapshot (snapshot : EgressInternetSnapshot Digest) :
    InternetResult (VerifiedEgressInternetSnapshot digests) :=
  match replayed : replayEgressInternetSnapshot digests snapshot with
  | .error error => .error error
  | .ok _ => .ok ⟨snapshot, replayed⟩

end Digest

end Unf.Egress
