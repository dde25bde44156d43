import Unf.Egress.FqdnEvidence

/-!
# Replay of snapshots

What a snapshot must satisfy to be replayed, and when observations compile to one.
-/

namespace Unf.Egress

open Std (ExtTreeSet)
open Unf.Lib

/-! ## Normal forms of the inputs -/

/-- What an observation needs to be normalized, apart from its names. -/
structure EgressDnsObservation.Wellformed (observation : EgressDnsObservation)
    (nowUnixSeconds : UInt64) : Prop where
  source : observation.sourceInvalid = false
  observed : observation.observedAtUnixSeconds ≤
    saturatingAdd nowUnixSeconds maxEgressFqdnFutureSkewSeconds
  bounded : observation.answers.length ≤ maxEgressFqdnAnswersPerObservation
  chainPresent : observation.canonicalChain ≠ []
  chainBounded : observation.canonicalChain.length ≤ maxEgressFqdnCnameDepth
  distinct : observation.answers.Nodup
  answers : ∀ answer ∈ observation.answers, answer.address.isUnspecified = false ∧
    answer.ttlSeconds ≤ maxEgressFqdnTtlSeconds

/-- The observation under normalized names, with its answers sorted and cut. -/
def EgressDnsObservation.normalized (observation : EgressDnsObservation)
    (maxTtlSeconds : UInt32) (queryName : String) (canonicalChain : List String) :
    EgressDnsObservation :=
  { observation with
    queryName := queryName
    canonicalChain := canonicalChain
    answers := (sort observation.answers).map (EgressDnsAnswer.capped maxTtlSeconds) }

theorem normalizeObservation_eq_ok {observation result : EgressDnsObservation}
    {maxTtlSeconds : UInt32} {nowUnixSeconds : UInt64} :
    normalizeObservation observation maxTtlSeconds nowUnixSeconds = .ok result ↔
      observation.Wellformed nowUnixSeconds ∧ ∃ queryName canonicalChain,
        normalizeDnsName observation.queryName = .ok queryName ∧
        observation.canonicalChain.mapM normalizeDnsName = .ok canonicalChain ∧
        canonicalChain.head? = some queryName ∧ loopFree canonicalChain = true ∧
        result = observation.normalized maxTtlSeconds queryName canonicalChain := by
  simp only [normalizeObservation, eq_ok_iffs, eq_false_iffs,
    hasAdjacentRepeat_eq_false_iff (sort_sorted _), nodup_sort, List.any_eq_false, mem_sort,
    Bool.not_eq_true]
  constructor
  · rintro ⟨source, observed, bounded, queryName, named, ⟨chainPresent, chainBounded⟩,
      canonicalChain, chained, ⟨first, looped⟩, ⟨distinct, answers⟩, rfl⟩
    exact ⟨⟨source, observed, bounded, chainPresent, chainBounded, distinct, answers⟩,
      queryName, canonicalChain, named, chained, first, looped, rfl⟩
  · rintro ⟨⟨source, observed, bounded, chainPresent, chainBounded, distinct, answers⟩,
      queryName, canonicalChain, named, chained, first, looped, rfl⟩
    exact ⟨source, observed, bounded, queryName, named, ⟨chainPresent, chainBounded⟩,
      canonicalChain, chained, ⟨first, looped⟩, ⟨distinct, answers⟩, rfl⟩

/-- What a destination needs to be normalized, given the normalized patterns and names. -/
structure EgressFqdnDestinationSpec.Wellformed (spec : EgressFqdnDestinationSpec)
    (patterns : List EgressFqdnPattern) (discoveryNames : List String) : Prop where
  patternsPresent : spec.patterns ≠ []
  patternsBounded : spec.patterns.length ≤ maxEgressFqdnPatterns
  patternsDistinct : patterns.Nodup
  view : validToken spec.view = true
  namesBounded : spec.discoveryNames.length ≤ maxEgressFqdnDiscoveryNames
  namesDistinct : discoveryNames.Nodup
  members : ∀ name ∈ discoveryNames, ∃ pattern ∈ patterns, pattern.matches name = true
  resolversBounded : spec.resolverAddresses.length ≤ maxEgressFqdnResolvers
  resolversSpecified : ∀ resolver ∈ spec.resolverAddresses, resolver.isUnspecified = false
  resolversDistinct : spec.resolverAddresses.Nodup
  explicit : spec.view = defaultEgressFqdnView ∨ spec.resolverAddresses ≠ []
  observers : spec.requiredObservers ≠ 0 ∧ spec.requiredObservers ≤ maxEgressFqdnObservers
  addresses : spec.maxAddresses ≠ 0 ∧ spec.maxAddresses ≤ maxEgressFqdnAddresses
  ttl : spec.maxTtlSeconds ≠ 0 ∧ spec.maxTtlSeconds ≤ maxEgressFqdnTtlSeconds
  grace : spec.establishedFlowGraceSeconds ≤ maxEgressFqdnEstablishedGraceSeconds

theorem normalizeEgressFqdnDestinationSpec_eq_ok {spec result : EgressFqdnDestinationSpec} :
    normalizeEgressFqdnDestinationSpec spec = .ok result ↔ ∃ patterns discoveryNames,
        spec.patterns.mapM (fun pattern => EgressFqdnPattern.parse pattern.text) = .ok patterns ∧
        spec.discoveryNames.mapM normalizeDnsName = .ok discoveryNames ∧
        spec.Wellformed patterns discoveryNames ∧
        result = { spec with
          patterns := sort patterns
          discoveryNames := sort discoveryNames
          resolverAddresses := sort spec.resolverAddresses } := by
  have sortEmpty (addresses : List IpAddr) : sort addresses = [] ↔ addresses = [] := by
    rw [← List.length_eq_zero_iff, length_sort, List.length_eq_zero_iff]
  simp only [normalizeEgressFqdnDestinationSpec, eq_ok_iffs, eq_false_iffs,
    hasAdjacentRepeat_eq_false_iff (sort_sorted _), nodup_sort, List.any_eq_false, mem_sort,
    Bool.not_eq_true, List.any_eq_true, Bool.and_eq_false_iff, eq_comm (a := result), ne_eq,
    sortEmpty]
  constructor
  · rintro ⟨⟨patternsPresent, patternsBounded⟩, patterns, parsed, distinctPatterns, view,
      namesBounded, names, normalized, ⟨distinctNames, members⟩,
      ⟨resolversBounded, resolversSpecified⟩, ⟨resolvers, explicit⟩, observers, addresses,
      ttl, grace, rfl⟩
    exact ⟨patterns, names, parsed, normalized, ⟨patternsPresent, patternsBounded,
      distinctPatterns, view, namesBounded, distinctNames, members, resolversBounded,
      resolversSpecified, resolvers, explicit, observers, addresses, ttl, grace⟩, rfl⟩
  · rintro ⟨patterns, names, parsed, normalized, ⟨patternsPresent, patternsBounded,
      distinctPatterns, view, namesBounded, distinctNames, members, resolversBounded,
      resolversSpecified, resolvers, explicit, observers, addresses, ttl, grace⟩, rfl⟩
    exact ⟨⟨patternsPresent, patternsBounded⟩, patterns, parsed, distinctPatterns, view,
      namesBounded, names, normalized, ⟨distinctNames, members⟩,
      ⟨resolversBounded, resolversSpecified⟩, ⟨resolvers, explicit⟩, observers, addresses,
      ttl, grace, rfl⟩

variable {result policy : EgressFqdnPolicy}

theorem normalizePolicy_eq_ok : normalizePolicy policy = .ok result ↔
      policy.revision ≠ .initial ∧ policy.owner.tokensValid = true ∧ ∃ spec,
        normalizeEgressFqdnDestinationSpec policy.toEgressFqdnDestinationSpec = .ok spec ∧
        result = { policy with toEgressFqdnDestinationSpec := spec } := by
  simp only [normalizePolicy, eq_ok_iffs, eq_false_iffs, eq_comm (a := result)]

/-- A normalized policy asks for at least one observer and some lifetime. -/
theorem normalizePolicy_positive (normalized : normalizePolicy policy = .ok result) :
    result.requiredObservers ≠ 0 ∧ result.maxTtlSeconds ≠ 0 := by
  obtain ⟨-, -, spec, computed, rfl⟩ := normalizePolicy_eq_ok.mp normalized
  obtain ⟨_, _, -, -, wellformed, rfl⟩ := normalizeEgressFqdnDestinationSpec_eq_ok.mp computed
  exact ⟨wellformed.observers.1, wellformed.ttl.1⟩

/-! ## Leases -/

/-- What a lease needs to be replayed. -/
structure EgressFqdnDestinationLease.Replays (lease : EgressFqdnDestinationLease)
    (policy : EgressFqdnPolicy) (compiledAtUnixSeconds : UInt64) : Prop where
  named : normalizeDnsName lease.queryName = .ok lease.queryName
  specified : lease.address.isUnspecified = false
  matched : policy.matchedPatterns lease.queryName ≠ []
  patterns : policy.matchedPatterns lease.queryName = lease.matchedPatterns
  authorized : observationNameIsAuthorized policy lease.queryName = true
  quorum : policy.HasQuorum lease.provenance
  ordered : lease.provenance.Pairwise (· < ·)
  observers : (lease.provenance.map fun evidence => evidence.source.observerUid).Nodup
  evidence : ∀ evidence ∈ lease.provenance,
    evidenceInvalid policy lease.queryName compiledAtUnixSeconds evidence = false
  timely : (quorumExpiry policy lease.provenance).toNat +
    policy.establishedFlowGraceSeconds.toNat < 2 ^ 64
  newFlows : lease.newFlowsUntilUnixSeconds = quorumExpiry policy lease.provenance
  establishedFlows : lease.establishedFlowsUntilUnixSeconds =
    drainExpiry policy lease.provenance

section Leases

variable {policy : EgressFqdnPolicy} {compiledAtUnixSeconds : UInt64}

theorem foldlM_verifyEvidence_eq_ok {queryName : String}
    {provenance : List EgressFqdnLeaseProvenance} :
    (∃ observers, provenance.foldlM (verifyEvidence policy queryName compiledAtUnixSeconds) ∅ =
        .ok observers) ↔ (∀ evidence ∈ provenance,
        evidenceInvalid policy queryName compiledAtUnixSeconds evidence = false) ∧
      (provenance.map fun evidence => evidence.source.observerUid).Nodup := by
  have step (observers : ExtTreeSet String) (evidence : EgressFqdnLeaseProvenance)
      (after : ExtTreeSet String) :
      verifyEvidence policy queryName compiledAtUnixSeconds observers evidence = .ok after ↔
        (evidence.source.observerUid ∉ observers ∧
          evidenceInvalid policy queryName compiledAtUnixSeconds evidence = false) ∧
        after = observers.insert evidence.source.observerUid := by
    simp only [verifyEvidence, failIf_bind_eq_ok, eq_false_iffs, contains_eq_false_iff, pure_eq_ok,
      eq_comm (a := after)]
  have unseen (before : List EgressFqdnLeaseProvenance) (evidence : EgressFqdnLeaseProvenance) :
      evidence.source.observerUid ∉ before.foldl (fun (observers : ExtTreeSet String) earlier =>
          observers.insert earlier.source.observerUid) ∅ ↔
        ∀ earlier ∈ before, ¬earlier.source.observerUid = evidence.source.observerUid := by
    rw [mem_foldl_insert fun earlier : EgressFqdnLeaseProvenance => earlier.source.observerUid]
    simp
  simp only [foldlM_eq_ok_iff step, exists_and_left, exists_eq, and_true, unseen]
  rw [List.Nodup, List.pairwise_map, ← forall_split_iff]
  exact forall₃_congr fun before evidence rest => imp_congr_right fun _ => and_comm

theorem verifyLease_eq_ok {lease : EgressFqdnDestinationLease} {result : Unit} :
    verifyLease policy lease compiledAtUnixSeconds = .ok result ↔
      lease.Replays policy compiledAtUnixSeconds := by
  have replayed : (∃ observers, lease.provenance.foldlM
      (verifyEvidence policy lease.queryName compiledAtUnixSeconds) ∅ = .ok observers) ↔ _ :=
    foldlM_verifyEvidence_eq_ok
  simp only [verifyLease, bind_eq_ok, failIf_eq_ok, exists_const, eq_false_iffs,
    strictlyAscending_iff, establishedUntil, elim_checkedAdd_eq_ok]
  constructor
  · rintro ⟨_, named, ⟨rfl, specified⟩, ⟨⟨matched, patterns⟩, authorized⟩, ⟨quorum, ordered⟩,
      observers, computed, _, ⟨timely, rfl⟩, newFlows, establishedFlows⟩
    obtain ⟨evidence, distinct⟩ := replayed.mp ⟨observers, computed⟩
    exact ⟨named, specified, matched, patterns, authorized, quorum, ordered, distinct,
      evidence, timely, newFlows, establishedFlows⟩
  · rintro ⟨named, specified, matched, patterns, authorized, quorum, ordered, distinct,
      evidence, timely, newFlows, establishedFlows⟩
    obtain ⟨observers, computed⟩ := replayed.mpr ⟨evidence, distinct⟩
    exact ⟨_, named, ⟨rfl, specified⟩, ⟨⟨matched, patterns⟩, authorized⟩, ⟨quorum, ordered⟩,
      observers, computed, _, ⟨timely, rfl⟩, newFlows, establishedFlows⟩

end Leases

/-! ## Snapshots -/

section Snapshots

variable {Digest : Type} [DecidableEq Digest] {snapshotDigest : FqdnSnapshotMaterial → Digest}
  {snapshot : EgressFqdnSnapshot Digest}

theorem replayEgressFqdnSnapshot_eq_ok {result : PUnit} :
    replayEgressFqdnSnapshot snapshotDigest snapshot = .ok result ↔
      (snapshot.schemaVersion = egressFqdnEvidenceSchemaVersion ∧
        snapshot.algorithm = egressFqdnAlgorithmProvenanceLeasedResolutionV1) ∧
      normalizePolicy snapshot.policy = .ok snapshot.policy ∧
      snapshot.leases.length ≤ snapshot.policy.maxAddresses.toNat ∧
      (snapshot.leases.map EgressFqdnDestinationLease.key).Pairwise (· < ·) ∧
      (∀ lease ∈ snapshot.leases, lease.Replays snapshot.policy snapshot.compiledAtUnixSeconds ∧
          snapshot.compiledAtUnixSeconds < lease.establishedFlowsUntilUnixSeconds) ∧
      snapshotDigest snapshot.toFqdnSnapshotMaterial = snapshot.digest := by
  simp only [replayEgressFqdnSnapshot, eq_ok_iffs, eq_false_iffs, not_le, strictlyAscending_iff,
    forM_eq_ok_iff, verifyRetainedLease, verifyLease_eq_ok]
  constructor
  · rintro ⟨versions, _, normalized, rfl, rest⟩
    exact ⟨versions, normalized, rest⟩
  · rintro ⟨versions, normalized, rest⟩
    exact ⟨versions, _, normalized, rfl, rest⟩

theorem verifyEgressFqdnSnapshot_eq_ok {verified : VerifiedEgressFqdnSnapshot snapshotDigest} :
    verifyEgressFqdnSnapshot snapshotDigest snapshot = .ok verified ↔
      verified.snapshot = snapshot := by
  rw [verifyEgressFqdnSnapshot]
  split
  next error failed =>
    simp only [reduceCtorEq, false_iff]
    rintro rfl
    rw [verified.replayed] at failed
    cases failed
  next replayed =>
    rw [Except.ok.injEq]
    constructor
    · rintro rfl
      rfl
    · rintro rfl
      rfl

/-- The snapshot that the evidence of observations gives. -/
def evidenceMaterial (policy : EgressFqdnPolicy) (grouped : FqdnEvidenceGroups)
    (nowUnixSeconds : UInt64) : FqdnSnapshotMaterial where
  schemaVersion := egressFqdnEvidenceSchemaVersion
  algorithm := egressFqdnAlgorithmProvenanceLeasedResolutionV1
  compiledAtUnixSeconds := nowUnixSeconds
  policy := policy
  leases := retainedLeases policy nowUnixSeconds grouped

abbrev evidenceSnapshot (snapshotDigest : FqdnSnapshotMaterial → Digest)
    (policy : EgressFqdnPolicy) (grouped : FqdnEvidenceGroups) (nowUnixSeconds : UInt64) :
    EgressFqdnSnapshot Digest :=
  ⟨evidenceMaterial policy grouped nowUnixSeconds,
    snapshotDigest (evidenceMaterial policy grouped nowUnixSeconds)⟩

/-- The report with the number of groups below the quorum and of leases. -/
def finishedReport (policy : EgressFqdnPolicy) (grouped : FqdnEvidenceGroups)
    (nowUnixSeconds : UInt64) (report : EgressFqdnCompilationReport) :
    EgressFqdnCompilationReport :=
  { report with
    belowQuorumDestinations := report.belowQuorumDestinations +
      grouped.toList.countP fun group => ¬policy.HasQuorum group.2
    admittedDestinations := (retainedLeases policy nowUnixSeconds grouped).length }

/-- Observations compile when they can be collected, the leases fit, and no lease has two
pieces of evidence from one observer or a name that cannot be replayed. -/
theorem compileEgressFqdnSnapshot_eq_ok {policy : EgressFqdnPolicy}
    {observations : List EgressDnsObservation} {nowUnixSeconds : UInt64}
    {compilation : EgressFqdnCompilation Digest} :
    compileEgressFqdnSnapshot snapshotDigest policy observations nowUnixSeconds = .ok compilation ↔
      ∃ canonical grouped report, normalizePolicy policy = .ok canonical ∧
        observations.length ≤ maxEgressFqdnObservations ∧
        collectObservations canonical observations nowUnixSeconds = .ok (grouped, report) ∧
        (DrainsTimely canonical grouped ∧ (retainedLeases canonical nowUnixSeconds grouped).length ≤
            canonical.maxAddresses.toNat) ∧ replayEgressFqdnSnapshot snapshotDigest
          (evidenceSnapshot snapshotDigest canonical grouped nowUnixSeconds) = .ok ⟨⟩ ∧
        compilation = ⟨evidenceSnapshot snapshotDigest canonical grouped nowUnixSeconds,
          finishedReport canonical grouped nowUnixSeconds report⟩ := by
  simp only [compileEgressFqdnSnapshot, eq_ok_iffs, eq_false_iffs, Prod.exists,
    compileLeases_eq_ok, verifyEgressFqdnSnapshot_eq_ok]
  constructor
  · rintro ⟨canonical, normalized, bounded, grouped, report, collected, _, _,
      ⟨leased, rfl, rfl⟩, verified, same, rfl⟩
    have replayed := verified.replayed
    rw [same] at replayed
    exact ⟨canonical, grouped, report, normalized, bounded, collected, leased, replayed, rfl⟩
  · rintro ⟨canonical, grouped, report, normalized, bounded, collected, leased, replayed, rfl⟩
    exact ⟨canonical, normalized, bounded, grouped, report, collected, _, _,
      ⟨leased, rfl, rfl⟩, ⟨_, replayed⟩, rfl, rfl⟩

end Snapshots

end Unf.Egress
