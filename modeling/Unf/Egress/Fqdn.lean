import Unf.Egress.Types
import Unf.Lib.Grouping
import Unf.Lib.Quorum

/-!
# DNS destination evidence

Observations of DNS answers become short-lived leases on destination addresses. A lease
lasts as long as a quorum of observers supports the address; snapshots of leases are
replayed before anything is decided from them.
-/

namespace Unf.Egress

open Std (ExtTreeMap ExtTreeSet)
open Unf.Lib
open Unf.Service (Revision)

/-! ## Limits and versions -/

/-- The schema that snapshots have. -/
def egressFqdnEvidenceSchemaVersion : UInt16 := 1

/-- The algorithm that snapshots are made by. -/
def egressFqdnAlgorithmProvenanceLeasedResolutionV1 : UInt16 := 1

/-- The most patterns of one policy. -/
def maxEgressFqdnPatterns : Nat := 256

/-- The most names that a policy lists for its wildcards. -/
def maxEgressFqdnDiscoveryNames : Nat := 256

/-- The most resolvers of one policy. -/
def maxEgressFqdnResolvers : Nat := 16

/-- The most observations of one compilation. -/
def maxEgressFqdnObservations : Nat := 4096

/-- The most answers of one observation. -/
def maxEgressFqdnAnswersPerObservation : Nat := 64

/-- The longest chain of names. -/
def maxEgressFqdnCnameDepth : Nat := 16

/-- The largest quorum. -/
def maxEgressFqdnObservers : UInt16 := 16

/-- The most addresses that a policy may admit. -/
def maxEgressFqdnAddresses : UInt16 := 4096

/-- The longest lifetime: a week. -/
def maxEgressFqdnTtlSeconds : UInt32 := 604800

/-- The longest grace: an hour. -/
def maxEgressFqdnEstablishedGraceSeconds : UInt32 := 3600

/-- How far the clock of an observer may be ahead. -/
def maxEgressFqdnFutureSkewSeconds : UInt64 := 30

/-- The view that needs no resolvers of its own. -/
def defaultEgressFqdnView : String := "cluster-default"

/-! ## Errors -/

/-- Why evidence is rejected. -/
inductive EgressFqdnError where
  | invalidPattern (value : String)
  | invalidDnsName (value : String)
  | invalidPolicy (reason : String)
  | tooManyObservations (actual limit : Nat)
  | invalidObservation (observer reason : String)
  | duplicateObservation (observer queryName : String)
  | capacityExceeded (actual : Nat) (limit : UInt16)
  | timestampOverflow
  | invalidSnapshot (reason : String)
  deriving DecidableEq, Repr

abbrev FqdnResult := Except EgressFqdnError

/-! ## Names -/

variable (value : String)

/-- One final dot is the root label and is left out. -/
def stripFinalDot : String :=
  if value.toList.getLast? = some '.' then String.ofList value.toList.dropLast else value

/-- A character inside a label. -/
def isLabelChar (character : Char) : Bool :=
  character.isAlphanum || character == '-'

/-- A label with letters and digits at both ends, and hyphens between them. -/
def validLabel (label : List Char) : Bool :=
  decide (label.length ≤ 63) && label.all isLabelChar &&
    label.head?.any Char.isAlphanum && label.getLast?.any Char.isAlphanum

/-- Nothing beyond ASCII. -/
def isAscii : Bool :=
  value.toList.all fun character => decide (character.toNat < 128)

/-- Letters in lower case. -/
def toAsciiLowercase : String :=
  String.ofList (value.toList.map Char.toLower)

/-- The parts between the dots. -/
def labels : List (List Char) :=
  value.toList.splitOn '.'

/-- A name in lower case and without its final dot. -/
def normalizeDnsName : FqdnResult String := do
  let value := stripFinalDot value
  failIf (value.isEmpty || decide (253 < value.utf8ByteSize) || !isAscii value)
    (.invalidDnsName value)
  let normalized := toAsciiLowercase value
  failIf ((labels normalized).any fun label => !validLabel label) (.invalidDnsName value)
  return normalized

/-- A name that is its own normal form. -/
def isCanonicalDnsName : Bool :=
  match normalizeDnsName value with
  | .ok normalized => normalized == value
  | .error _ => false

/-- A character of a token. -/
def isTokenChar (character : Char) : Bool :=
  character.isAlphanum || character == '-' || character == '_' || character == '.' ||
    character == '/'

/-- An identifier: not empty and bounded. -/
def validToken : Bool :=
  !value.isEmpty && decide (value.utf8ByteSize ≤ 253) && value.toList.all isTokenChar

/-! ## Patterns -/

/-- One name, or all names under a suffix. -/
inductive EgressFqdnPattern where
  | exact (name : String)
  | wildcardSuffix (suffix : String)
  deriving DecidableEq, Repr

namespace EgressFqdnPattern

/-- Exact names come before wildcards. -/
def sortKey : EgressFqdnPattern → String ⊕ₗ String
  | exact name => toLex (.inl name)
  | wildcardSuffix suffix => toLex (.inr suffix)

instance : LinearOrder EgressFqdnPattern :=
  LinearOrder.lift' sortKey <| by
    intro left right
    cases left <;> cases right <;> simp [sortKey]

/-- A leading `*.` stands for one or more labels before at least two given ones. -/
def parse : FqdnResult EgressFqdnPattern :=
  let value := stripFinalDot value
  match value.toList with
  | '*' :: '.' :: suffix => do
      failIf (suffix.contains '*') (.invalidPattern value)
      let suffix ← normalizeDnsName (String.ofList suffix)
      failIf (decide ((labels suffix).length < 2)) (.invalidPattern value)
      return wildcardSuffix suffix
  | characters => do
      failIf (characters.contains '*') (.invalidPattern value)
      return exact (← normalizeDnsName value)

/-- The suffix itself does not match a wildcard, nor does a name that only ends in the
same letters. -/
def «matches» (pattern : EgressFqdnPattern) (normalizedName : String) : Bool :=
  match pattern with
  | exact name => name == normalizedName
  | wildcardSuffix suffix =>
    let name := normalizedName.toList
    decide (suffix.toList.length < name.length) && suffix.toList.isSuffixOf name &&
      name[name.length - suffix.toList.length - 1]? == some '.'

/-- The pattern in the form that is parsed again. -/
def text : EgressFqdnPattern → String
  | exact name => name
  | wildcardSuffix suffix => "*." ++ suffix

end EgressFqdnPattern

/-! ## Policies -/

/-- What an intent says about names. -/
structure EgressFqdnDestinationSpec where
  patterns : List EgressFqdnPattern
  view : String
  discoveryNames : List String
  resolverAddresses : List IpAddr
  requiredObservers : UInt16
  maxAddresses : UInt16
  maxTtlSeconds : UInt32
  establishedFlowGraceSeconds : UInt32
  deriving DecidableEq

/-- A specification within its bounds and in order. -/
def normalizeEgressFqdnDestinationSpec (spec : EgressFqdnDestinationSpec) :
    FqdnResult EgressFqdnDestinationSpec := do
  failIf (spec.patterns.isEmpty || decide (maxEgressFqdnPatterns < spec.patterns.length))
    (.invalidPolicy "pattern set is empty or unbounded")
  let patterns := sort (← spec.patterns.mapM fun pattern => EgressFqdnPattern.parse pattern.text)
  failIf (hasAdjacentRepeat patterns) (.invalidPolicy "duplicate patterns are forbidden")
  failIf (!validToken spec.view) (.invalidPolicy "DNS view is invalid")
  failIf (decide (maxEgressFqdnDiscoveryNames < spec.discoveryNames.length))
    (.invalidPolicy "wildcard discovery-name set exceeds its bound")
  let discoveryNames := sort (← spec.discoveryNames.mapM normalizeDnsName)
  failIf (hasAdjacentRepeat discoveryNames || discoveryNames.any fun name =>
      !patterns.any fun pattern => pattern.matches name)
    (.invalidPolicy "discovery names must be unique members of the policy patterns")
  failIf (decide (maxEgressFqdnResolvers < spec.resolverAddresses.length) ||
      spec.resolverAddresses.any IpAddr.isUnspecified)
    (.invalidPolicy "resolver address set is invalid or exceeds its bound")
  let resolverAddresses := sort spec.resolverAddresses
  failIf (hasAdjacentRepeat resolverAddresses ||
      (spec.view != defaultEgressFqdnView && resolverAddresses.isEmpty))
    (.invalidPolicy "custom views require a unique explicit resolver-address set")
  failIf (spec.requiredObservers == 0 || decide (maxEgressFqdnObservers < spec.requiredObservers))
    (.invalidPolicy "observer quorum is invalid")
  failIf (spec.maxAddresses == 0 || decide (maxEgressFqdnAddresses < spec.maxAddresses))
    (.invalidPolicy "address capacity is invalid")
  failIf (spec.maxTtlSeconds == 0 || decide (maxEgressFqdnTtlSeconds < spec.maxTtlSeconds))
    (.invalidPolicy "TTL cap is invalid")
  failIf (decide (maxEgressFqdnEstablishedGraceSeconds < spec.establishedFlowGraceSeconds))
    (.invalidPolicy "established-flow grace is unbounded")
  return { spec with
    patterns := patterns
    discoveryNames := discoveryNames
    resolverAddresses := resolverAddresses }

/-- The specification of one owner at one revision. -/
structure EgressFqdnPolicy extends EgressFqdnDestinationSpec where
  revision : Revision
  owner : EgressIntentOwner
  deriving DecidableEq

/-- Every part of an owner is a token. -/
def EgressIntentOwner.tokensValid (owner : EgressIntentOwner) : Bool :=
  validToken owner.name && validToken owner.uid &&
    match owner.scope with
    | .cluster => true
    | .namespace name => validToken name

variable (policy : EgressFqdnPolicy) (queryName : String)

/-- A policy in canonical form. -/
def normalizePolicy : FqdnResult EgressFqdnPolicy := do
  failIf (policy.revision == .initial) (.invalidPolicy "revision zero is reserved")
  failIf (!policy.owner.tokensValid) (.invalidPolicy "owner identity is invalid")
  let spec ← normalizeEgressFqdnDestinationSpec policy.toEgressFqdnDestinationSpec
  return { policy with toEgressFqdnDestinationSpec := spec }

/-- Exact names and listed members of a wildcard may be observed. The names are sorted, so
that the binary search of the source finds exactly the listed ones. -/
def observationNameIsAuthorized : Bool :=
  policy.patterns.any (fun pattern => pattern == .exact queryName) ||
    policy.discoveryNames.contains queryName

/-! ## Observations -/

/-- Who observed, through which resolver and view. -/
structure EgressDnsObservationSource where
  observerUid : String
  resolver : IpAddr
  view : String
  sourceEpoch : UInt64
  deriving DecidableEq

namespace EgressDnsObservationSource

def sortKey (source : EgressDnsObservationSource) :=
  toLex (source.observerUid, toLex (source.resolver, toLex (source.view, source.sourceEpoch)))

instance : LinearOrder EgressDnsObservationSource :=
  LinearOrder.lift' sortKey <| by
    rintro ⟨⟩ ⟨⟩ equal
    simpa [sortKey] using equal

end EgressDnsObservationSource

/-- An address and how long it may be kept. -/
structure EgressDnsAnswer where
  address : IpAddr
  ttlSeconds : UInt32
  deriving DecidableEq

namespace EgressDnsAnswer

def sortKey (answer : EgressDnsAnswer) :=
  toLex (answer.address, answer.ttlSeconds)

instance : LinearOrder EgressDnsAnswer :=
  LinearOrder.lift' sortKey <| by
    rintro ⟨⟩ ⟨⟩ equal
    simpa [sortKey] using equal

end EgressDnsAnswer

/-- What one observer was answered to one query. -/
structure EgressDnsObservation where
  source : EgressDnsObservationSource
  observationRevision : Revision
  queryName : String
  canonicalChain : List String
  answers : List EgressDnsAnswer
  observedAtUnixSeconds : UInt64
  deriving DecidableEq

/-- The answer with its lifetime cut to a bound. -/
def EgressDnsAnswer.capped (maxTtlSeconds : UInt32) (answer : EgressDnsAnswer) :
    EgressDnsAnswer :=
  { answer with ttlSeconds := min answer.ttlSeconds maxTtlSeconds }

/-- No name of a chain occurs twice. -/
def loopFree (chain : List String) : Bool :=
  (ExtTreeSet.ofList chain).size == chain.length

variable (observation : EgressDnsObservation)

/-- The source of an observation is not fully identified. -/
def EgressDnsObservation.sourceInvalid : Bool :=
  !validToken observation.source.observerUid || !validToken observation.source.view ||
    observation.source.resolver.isUnspecified || observation.source.sourceEpoch == 0 ||
    observation.observationRevision == .initial

/-- An observation in canonical form, its lifetimes capped. -/
def normalizeObservation (maxTtlSeconds : UInt32) (nowUnixSeconds : UInt64) :
    FqdnResult EgressDnsObservation := do
  let invalid := EgressFqdnError.invalidObservation observation.source.observerUid
  failIf observation.sourceInvalid
    (invalid "source identity, resolver, epoch, or revision is invalid")
  failIf (decide (saturatingAdd nowUnixSeconds maxEgressFqdnFutureSkewSeconds <
      observation.observedAtUnixSeconds))
    (invalid "observation timestamp is too far in the future")
  failIf (decide (maxEgressFqdnAnswersPerObservation < observation.answers.length))
    (invalid "answer set exceeds its bound")
  let queryName ← normalizeDnsName observation.queryName
  failIf (observation.canonicalChain.isEmpty ||
      decide (maxEgressFqdnCnameDepth < observation.canonicalChain.length))
    (invalid "canonical chain is empty or exceeds its bound")
  let canonicalChain ← observation.canonicalChain.mapM normalizeDnsName
  failIf (canonicalChain.head? != some queryName || !loopFree canonicalChain)
    (invalid "canonical chain does not start at the query or contains a loop")
  let answers := sort observation.answers
  failIf (hasAdjacentRepeat answers || answers.any fun answer =>
      answer.address.isUnspecified || decide (maxEgressFqdnTtlSeconds < answer.ttlSeconds))
    (invalid "answer is duplicate, unspecified, or has an unbounded TTL")
  return { observation with
    queryName := queryName
    canonicalChain := canonicalChain
    answers := answers.map (EgressDnsAnswer.capped maxTtlSeconds) }

/-! ## Leases and snapshots -/

/-- One observer's support of a lease. -/
structure EgressFqdnLeaseProvenance where
  source : EgressDnsObservationSource
  observationRevision : Revision
  canonicalChain : List String
  observedAtUnixSeconds : UInt64
  ttlSeconds : UInt32
  expiresAtUnixSeconds : UInt64
  deriving DecidableEq

namespace EgressFqdnLeaseProvenance

def sortKey (evidence : EgressFqdnLeaseProvenance) :=
  toLex (evidence.source, toLex (evidence.observationRevision, toLex (evidence.canonicalChain,
    toLex (evidence.observedAtUnixSeconds, toLex (evidence.ttlSeconds,
      evidence.expiresAtUnixSeconds)))))

instance : LinearOrder EgressFqdnLeaseProvenance :=
  LinearOrder.lift' sortKey <| by
    rintro ⟨⟩ ⟨⟩ equal
    simpa [sortKey] using equal

end EgressFqdnLeaseProvenance

/-- A lease is for an address under the name that was queried. -/
abbrev FqdnLeaseKey := String ×ₗ IpAddr

/-- An address that a name leads to, for a time. -/
structure EgressFqdnDestinationLease where
  queryName : String
  matchedPatterns : List EgressFqdnPattern
  address : IpAddr
  newFlowsUntilUnixSeconds : UInt64
  establishedFlowsUntilUnixSeconds : UInt64
  provenance : List EgressFqdnLeaseProvenance
  deriving DecidableEq

variable (compiledAtUnixSeconds : UInt64) (lease : EgressFqdnDestinationLease)

/-- The key that leases are ordered by. -/
def EgressFqdnDestinationLease.key : FqdnLeaseKey :=
  toLex (lease.queryName, lease.address)

/-- A snapshot without its digest: what the digest is computed from. -/
structure FqdnSnapshotMaterial where
  schemaVersion : UInt16
  algorithm : UInt16
  compiledAtUnixSeconds : UInt64
  policy : EgressFqdnPolicy
  leases : List EgressFqdnDestinationLease
  deriving DecidableEq

/-- Leases under their digest. -/
structure EgressFqdnSnapshot (Digest : Type) extends FqdnSnapshotMaterial where
  digest : Digest
  deriving DecidableEq

/-- What became of the observations. -/
structure EgressFqdnCompilationReport where
  acceptedObservations : Nat := 0
  authoritativeEmptyObservations : Nat := 0
  wrongViewObservations : Nat := 0
  wrongResolverObservations : Nat := 0
  unmatchedNameObservations : Nat := 0
  unauthorizedNameObservations : Nat := 0
  zeroTtlAnswers : Nat := 0
  belowQuorumDestinations : Nat := 0
  admittedDestinations : Nat := 0
  deriving DecidableEq

/-- A snapshot and the report on it. -/
structure EgressFqdnCompilation (Digest : Type) where
  snapshot : EgressFqdnSnapshot Digest
  report : EgressFqdnCompilationReport
  deriving DecidableEq

/-! ## Collection of evidence -/

/-- The evidence for each lease. -/
abbrev FqdnEvidenceGroups := ExtTreeMap FqdnLeaseKey (List EgressFqdnLeaseProvenance)

/-- What has been collected, with the observers and names already seen. -/
structure FqdnCollection where
  report : EgressFqdnCompilationReport := {}
  seen : ExtTreeSet (String ×ₗ String) := ∅
  grouped : FqdnEvidenceGroups := ∅

variable (collection : FqdnCollection)

/-- The evidence that an answer with a lifetime gives. -/
def EgressDnsObservation.evidence (ttlSeconds : UInt32) (expiresAtUnixSeconds : UInt64) :
    EgressFqdnLeaseProvenance where
  source := observation.source
  observationRevision := observation.observationRevision
  canonicalChain := observation.canonicalChain
  observedAtUnixSeconds := observation.observedAtUnixSeconds
  ttlSeconds := ttlSeconds
  expiresAtUnixSeconds := expiresAtUnixSeconds

/-- The evidence with that of one answer. -/
def addObservationAnswer (answer : EgressDnsAnswer) : FqdnResult FqdnCollection :=
  if answer.ttlSeconds == 0 then
    return { collection with
      report.zeroTtlAnswers := collection.report.zeroTtlAnswers + 1 }
  else do
    let ttlSeconds := min answer.ttlSeconds policy.maxTtlSeconds
    let expiresAtUnixSeconds ← (checkedAdd observation.observedAtUnixSeconds
      ttlSeconds.toUInt64).elim (.error .timestampOverflow) .ok
    return { collection with
      grouped := pushValue collection.grouped (toLex (observation.queryName, answer.address),
        observation.evidence ttlSeconds expiresAtUnixSeconds) }

/-- The evidence with that of every answer. -/
def addObservationAnswers : FqdnResult FqdnCollection :=
  observation.answers.foldlM (addObservationAnswer policy observation) collection

/-- Any resolver, unless the policy lists some. -/
def EgressFqdnPolicy.admitsResolver (resolver : IpAddr) : Bool :=
  policy.resolverAddresses.isEmpty || policy.resolverAddresses.contains resolver

/-- An observer reports each name once. -/
def EgressDnsObservation.key : String ×ₗ String :=
  toLex (observation.source.observerUid, observation.queryName)

/-- A normalized observation goes into the collection, if the policy asks for it. -/
def collectNormalized (observation : EgressDnsObservation) : FqdnResult FqdnCollection := do
  failIf (collection.seen.contains observation.key)
    (.duplicateObservation observation.source.observerUid observation.queryName)
  let report := collection.report
  let collection := { collection with seen := collection.seen.insert observation.key }
  if observation.source.view != policy.view then
    return { collection with
      report.wrongViewObservations := report.wrongViewObservations + 1 }
  if !policy.admitsResolver observation.source.resolver then
    return { collection with
      report.wrongResolverObservations := report.wrongResolverObservations + 1 }
  if !policy.patterns.any fun pattern => pattern.matches observation.queryName then
    return { collection with
      report.unmatchedNameObservations := report.unmatchedNameObservations + 1 }
  if !observationNameIsAuthorized policy observation.queryName then
    return { collection with
      report.unauthorizedNameObservations := report.unauthorizedNameObservations + 1 }
  let empty := if observation.answers.isEmpty then 1 else 0
  addObservationAnswers policy observation { collection with report := { report with
    acceptedObservations := report.acceptedObservations + 1
    authoritativeEmptyObservations := report.authoritativeEmptyObservations + empty } }

/-- An observation is normalized, then collected. -/
def collectObservation (nowUnixSeconds : UInt64) (collection : FqdnCollection)
    (observation : EgressDnsObservation) : FqdnResult FqdnCollection := do
  let observation ← normalizeObservation observation policy.maxTtlSeconds nowUnixSeconds
  collectNormalized policy collection observation

/-- The evidence of all observations, by lease. -/
def collectObservations (observations : List EgressDnsObservation) (nowUnixSeconds : UInt64) :
    FqdnResult (FqdnEvidenceGroups × EgressFqdnCompilationReport) := do
  let collection ← observations.foldlM (collectObservation policy nowUnixSeconds) {}
  return (collection.grouped, collection.report)

/-! ## Leases -/

/-- The time until which so many pieces of evidence last. -/
def quorumExpiry (provenance : List EgressFqdnLeaseProvenance) : UInt64 :=
  (sortDescending (provenance.map EgressFqdnLeaseProvenance.expiresAtUnixSeconds)).getD
    (policy.requiredObservers.toNat - 1) 0

/-- The patterns of a policy that a name matches. -/
def EgressFqdnPolicy.matchedPatterns : List EgressFqdnPattern :=
  policy.patterns.filter fun pattern => pattern.matches queryName

/-- The end of the grace for established flows. -/
def establishedUntil (newFlowsUntil : UInt64) : FqdnResult UInt64 :=
  (checkedAdd newFlowsUntil policy.establishedFlowGraceSeconds.toUInt64).elim
    (.error .timestampOverflow) .ok

/-- The leases and the number of groups below the quorum so far. -/
def compileLease (nowUnixSeconds : UInt64) (progress : List EgressFqdnDestinationLease × Nat)
    (group : FqdnLeaseKey × List EgressFqdnLeaseProvenance) :
    FqdnResult (List EgressFqdnDestinationLease × Nat) := do
  let provenance := sort group.2
  if provenance.length < policy.requiredObservers.toNat then
    return (progress.1, progress.2 + 1)
  let newFlowsUntil := quorumExpiry policy provenance
  let establishedFlowsUntil ← establishedUntil policy newFlowsUntil
  if establishedFlowsUntil ≤ nowUnixSeconds then
    return progress
  return (progress.1 ++ [{
    queryName := (ofLex group.1).1
    matchedPatterns := policy.matchedPatterns (ofLex group.1).1
    address := (ofLex group.1).2
    newFlowsUntilUnixSeconds := newFlowsUntil
    establishedFlowsUntilUnixSeconds := establishedFlowsUntil
    provenance := provenance }], progress.2)

/-- The leases of all groups, in order and within the capacity. -/
def compileLeases (grouped : FqdnEvidenceGroups) (nowUnixSeconds : UInt64)
    (report : EgressFqdnCompilationReport) :
    FqdnResult (List EgressFqdnDestinationLease × EgressFqdnCompilationReport) := do
  let (leases, belowQuorum) ← grouped.toList.foldlM (compileLease policy nowUnixSeconds)
    ([], report.belowQuorumDestinations)
  let leases := sortByKey EgressFqdnDestinationLease.key leases
  failIf (decide (policy.maxAddresses.toNat < leases.length))
    (.capacityExceeded leases.length policy.maxAddresses)
  return (leases, { report with belowQuorumDestinations := belowQuorum })

/-! ## Replay -/

/-- Evidence that the policy would not have led to. -/
def evidenceInvalid (evidence : EgressFqdnLeaseProvenance) : Bool :=
  !validToken evidence.source.observerUid || !validToken evidence.source.view ||
    evidence.source.view != policy.view || evidence.source.resolver.isUnspecified ||
    !policy.admitsResolver evidence.source.resolver || evidence.source.sourceEpoch == 0 ||
    evidence.observationRevision == .initial || evidence.canonicalChain.isEmpty ||
    decide (maxEgressFqdnCnameDepth < evidence.canonicalChain.length) ||
    evidence.canonicalChain.head? != some queryName ||
    (evidence.canonicalChain.any fun name => !isCanonicalDnsName name) ||
    !loopFree evidence.canonicalChain || evidence.ttlSeconds == 0 ||
    decide (policy.maxTtlSeconds < evidence.ttlSeconds) ||
    decide (saturatingAdd compiledAtUnixSeconds maxEgressFqdnFutureSkewSeconds <
      evidence.observedAtUnixSeconds) ||
    checkedAdd evidence.observedAtUnixSeconds evidence.ttlSeconds.toUInt64 !=
      some evidence.expiresAtUnixSeconds

/-- Every piece of evidence comes from another observer. -/
def verifyEvidence (observers : ExtTreeSet String) (evidence : EgressFqdnLeaseProvenance) :
    FqdnResult (ExtTreeSet String) := do
  failIf (observers.contains evidence.source.observerUid ||
      evidenceInvalid policy queryName compiledAtUnixSeconds evidence)
    (.invalidSnapshot "provenance replay failed")
  return observers.insert evidence.source.observerUid

/-- A lease is derived again from its evidence. -/
def verifyLease (compiledAtUnixSeconds : UInt64) : FqdnResult Unit := do
  let queryName ← normalizeDnsName lease.queryName
  failIf (queryName != lease.queryName || lease.address.isUnspecified)
    (.invalidSnapshot "lease destination is invalid")
  let matchedPatterns := policy.matchedPatterns lease.queryName
  failIf (matchedPatterns.isEmpty || matchedPatterns != lease.matchedPatterns ||
      !observationNameIsAuthorized policy lease.queryName)
    (.invalidSnapshot "matched-pattern or discovery-authority proof is invalid")
  failIf (decide (lease.provenance.length < policy.requiredObservers.toNat) ||
      !strictlyAscending lease.provenance)
    (.invalidSnapshot "provenance is insufficient or unordered")
  let _ ← lease.provenance.foldlM
    (verifyEvidence policy lease.queryName compiledAtUnixSeconds) ∅
  let expectedNew := quorumExpiry policy lease.provenance
  let expectedEstablished ← establishedUntil policy expectedNew
  failIf (lease.newFlowsUntilUnixSeconds != expectedNew ||
      lease.establishedFlowsUntilUnixSeconds != expectedEstablished)
    (.invalidSnapshot "quorum expiry replay failed")

/-- A lease that had not ended at the compilation. -/
def verifyRetainedLease : FqdnResult PUnit := do
  verifyLease policy lease compiledAtUnixSeconds
  failIf (decide (lease.establishedFlowsUntilUnixSeconds ≤ compiledAtUnixSeconds))
    (.invalidSnapshot "snapshot retains expired lease")

section Digest

variable {Digest : Type} [DecidableEq Digest] (snapshotDigest : FqdnSnapshotMaterial → Digest)

/-- The checks that a snapshot passes before it is used. -/
def replayEgressFqdnSnapshot (snapshot : EgressFqdnSnapshot Digest) : FqdnResult PUnit := do
  failIf (snapshot.schemaVersion != egressFqdnEvidenceSchemaVersion ||
      snapshot.algorithm != egressFqdnAlgorithmProvenanceLeasedResolutionV1)
    (.invalidSnapshot "unsupported schema or algorithm")
  let policy ← normalizePolicy snapshot.policy
  failIf (policy != snapshot.policy) (.invalidSnapshot "policy is not canonical")
  failIf (decide (snapshot.policy.maxAddresses.toNat < snapshot.leases.length))
    (.invalidSnapshot "lease capacity exceeded")
  failIf (!strictlyAscending (snapshot.leases.map EgressFqdnDestinationLease.key))
    (.invalidSnapshot "leases are not uniquely ordered")
  snapshot.leases.forM (verifyRetainedLease snapshot.policy snapshot.compiledAtUnixSeconds)
  failIf (snapshotDigest snapshot.toFqdnSnapshotMaterial != snapshot.digest)
    (.invalidSnapshot "digest mismatch")

/-- A snapshot that has been replayed. -/
structure VerifiedEgressFqdnSnapshot where
  snapshot : EgressFqdnSnapshot Digest
  replayed : replayEgressFqdnSnapshot snapshotDigest snapshot = .ok ⟨⟩

/-- A snapshot together with the fact of its replay. -/
def verifyEgressFqdnSnapshot (snapshot : EgressFqdnSnapshot Digest) :
    FqdnResult (VerifiedEgressFqdnSnapshot snapshotDigest) :=
  match replayed : replayEgressFqdnSnapshot snapshotDigest snapshot with
  | .error error => .error error
  | .ok _ => .ok ⟨snapshot, replayed⟩

/-! ## Compilation -/

/-- From observations to a snapshot that has been replayed. -/
def compileEgressFqdnSnapshot (policy : EgressFqdnPolicy)
    (observations : List EgressDnsObservation) (nowUnixSeconds : UInt64) :
    FqdnResult (EgressFqdnCompilation Digest) := do
  let policy ← normalizePolicy policy
  failIf (decide (maxEgressFqdnObservations < observations.length))
    (.tooManyObservations observations.length maxEgressFqdnObservations)
  let (grouped, report) ← collectObservations policy observations nowUnixSeconds
  let (leases, report) ← compileLeases policy grouped nowUnixSeconds report
  let material : FqdnSnapshotMaterial := {
    schemaVersion := egressFqdnEvidenceSchemaVersion
    algorithm := egressFqdnAlgorithmProvenanceLeasedResolutionV1
    compiledAtUnixSeconds := nowUnixSeconds
    policy := policy
    leases := leases }
  let snapshot : EgressFqdnSnapshot Digest := ⟨material, snapshotDigest material⟩
  let _ ← verifyEgressFqdnSnapshot snapshotDigest snapshot
  return ⟨snapshot, { report with admittedDestinations := leases.length }⟩

/-! ## Decisions -/

/-- Whether a flow begins or goes on. -/
inductive EgressFqdnFlowClass where
  | new
  | established
  deriving DecidableEq, Repr

/-- Why a flow is denied. -/
inductive EgressFqdnDenyReason where
  | noDestinationEvidence
  | newFlowEvidenceExpired
  | establishedFlowEvidenceExpired
  deriving DecidableEq, Repr

/-- What is decided about a flow, and on which evidence. -/
inductive EgressFqdnDecision (Digest : Type) where
  | allowActive (queryName : String) (patterns : List EgressFqdnPattern)
      (untilUnixSeconds : UInt64) (snapshotDigest : Digest)
  | allowEstablishedDrain (queryName : String) (patterns : List EgressFqdnPattern)
      (untilUnixSeconds : UInt64) (snapshotDigest : Digest)
  | deny (reason : EgressFqdnDenyReason)
  deriving DecidableEq

/-- The rank by which the best lease for an address is chosen. -/
def EgressFqdnDestinationLease.rank : UInt64 ×ₗ UInt64 ×ₗ String :=
  toLex (lease.newFlowsUntilUnixSeconds,
    toLex (lease.establishedFlowsUntilUnixSeconds, lease.queryName))

variable {snapshotDigest} in
/-- New flows need a live lease; established ones may drain. -/
def decideEgressFqdnDestination (verified : VerifiedEgressFqdnSnapshot snapshotDigest)
    (address : IpAddr) (flowClass : EgressFqdnFlowClass) (nowUnixSeconds : UInt64) :
    EgressFqdnDecision Digest :=
  let raw := verified.snapshot
  match maxByKey EgressFqdnDestinationLease.rank
      (raw.leases.filter fun lease => lease.address == address) with
  | none => .deny .noDestinationEvidence
  | some lease =>
    if nowUnixSeconds < lease.newFlowsUntilUnixSeconds then
      .allowActive lease.queryName lease.matchedPatterns lease.newFlowsUntilUnixSeconds
        raw.digest
    else if flowClass == .established &&
        decide (nowUnixSeconds < lease.establishedFlowsUntilUnixSeconds) then
      .allowEstablishedDrain lease.queryName lease.matchedPatterns
        lease.establishedFlowsUntilUnixSeconds raw.digest
    else
      .deny (match flowClass with
        | .new => .newFlowEvidenceExpired
        | .established => .establishedFlowEvidenceExpired)

end Digest

end Unf.Egress
