import Unf.Egress.Fqdn

/-!
# Collected evidence

What the loops over observations, answers and groups compute, read off as lists: the
evidence that the accepted observations give, its groups, and the leases on them.
-/

namespace Unf.Egress

open Std (ExtTreeSet)
open Unf.Lib List EgressFqdnCompilationReport FqdnCollection EgressDnsObservation Std.ExtTreeMap

/-! ## Observations -/

variable (policy : EgressFqdnPolicy) (observation : EgressDnsObservation)

/-- The policy asks for observations of this view, resolver and name. -/
def EgressFqdnPolicy.accepts : Bool :=
  observation.source.view == policy.view &&
    policy.admitsResolver observation.source.resolver &&
    (policy.patterns.any fun pattern => pattern.matches observation.queryName) &&
    observationNameIsAuthorized policy observation.queryName

def EgressDnsObservation.positiveAnswers : List EgressDnsAnswer :=
  observation.answers.filter fun answer => answer.ttlSeconds != 0

/-- The lifetime of an answer under a policy. -/
def EgressFqdnPolicy.ttl (answer : EgressDnsAnswer) : UInt32 :=
  min answer.ttlSeconds policy.maxTtlSeconds

/-- The evidence for the address of an answer. -/
def answerEntry (answer : EgressDnsAnswer) : FqdnLeaseKey × EgressFqdnLeaseProvenance :=
  (toLex (observation.queryName, answer.address), observation.evidence (policy.ttl answer)
      (observation.observedAtUnixSeconds + (policy.ttl answer).toUInt64))

def observationEntries : List (FqdnLeaseKey × EgressFqdnLeaseProvenance) :=
  if policy.accepts observation then
    observation.positiveAnswers.map (answerEntry policy observation)
  else
    []

/-- The evidence of all observations. -/
def evidenceEntries (observations : List EgressDnsObservation) :
    List (FqdnLeaseKey × EgressFqdnLeaseProvenance) :=
  observations.flatMap (observationEntries policy)

/-- No answer that counts lasts beyond the end of time. -/
def Timely : Prop :=
  policy.accepts observation = true → ∀ answer ∈ observation.positiveAnswers,
    observation.observedAtUnixSeconds.toNat + (policy.ttl answer).toNat < 2 ^ 64

/-- The counters of two reports together. -/
def EgressFqdnCompilationReport.add (left right : EgressFqdnCompilationReport) :
    EgressFqdnCompilationReport where
  acceptedObservations := left.acceptedObservations + right.acceptedObservations
  authoritativeEmptyObservations :=
    left.authoritativeEmptyObservations + right.authoritativeEmptyObservations
  wrongViewObservations := left.wrongViewObservations + right.wrongViewObservations
  wrongResolverObservations := left.wrongResolverObservations + right.wrongResolverObservations
  unmatchedNameObservations := left.unmatchedNameObservations + right.unmatchedNameObservations
  unauthorizedNameObservations :=
    left.unauthorizedNameObservations + right.unauthorizedNameObservations
  zeroTtlAnswers := left.zeroTtlAnswers + right.zeroTtlAnswers
  belowQuorumDestinations := left.belowQuorumDestinations + right.belowQuorumDestinations
  admittedDestinations := left.admittedDestinations + right.admittedDestinations

/-- What one observation adds to the report. -/
def observationCounts : EgressFqdnCompilationReport :=
  if observation.source.view != policy.view then
    { wrongViewObservations := 1 }
  else if !policy.admitsResolver observation.source.resolver then
    { wrongResolverObservations := 1 }
  else if !policy.patterns.any fun pattern => pattern.matches observation.queryName then
    { unmatchedNameObservations := 1 }
  else if !observationNameIsAuthorized policy observation.queryName then
    { unauthorizedNameObservations := 1 }
  else
    { acceptedObservations := 1
      authoritativeEmptyObservations := if observation.answers.isEmpty then 1 else 0
      zeroTtlAnswers := observation.answers.countP fun answer => answer.ttlSeconds == 0 }

/-- The collection with one more observation. -/
def FqdnCollection.record (collection : FqdnCollection) (observation : EgressDnsObservation) :
    FqdnCollection where
  report := collection.report.add (observationCounts policy observation)
  seen := collection.seen.insert observation.key
  grouped := (observationEntries policy observation).foldl pushValue collection.grouped

theorem elim_checkedAdd_eq_ok {left right sum : UInt64} :
    (checkedAdd left right).elim (.error .timestampOverflow) .ok = (.ok sum : FqdnResult UInt64) ↔
      left.toNat + right.toNat < 2 ^ 64 ∧ sum = left + right := by
  rw [checkedAdd]
  split <;> simp_all [eq_comm]

section Collection

variable {policy : EgressFqdnPolicy}
  {collection : FqdnCollection} {observations : List EgressDnsObservation}

theorem addObservationAnswers_eq_ok {observation : EgressDnsObservation} {after : FqdnCollection} :
    addObservationAnswers policy observation collection = .ok after ↔
      (∀ answer ∈ observation.positiveAnswers,
        observation.observedAtUnixSeconds.toNat + (policy.ttl answer).toNat < 2 ^ 64) ∧
      after = { collection with
        report.zeroTtlAnswers := collection.report.zeroTtlAnswers +
          observation.answers.countP fun answer => answer.ttlSeconds == 0
        grouped := (observation.positiveAnswers.map (answerEntry policy observation)).foldl
          pushValue collection.grouped } := by
  rw [addObservationAnswers, positiveAnswers]
  generalize observation.answers = answers
  induction answers generalizing collection with
  | nil => simp [pure, Except.pure, eq_comm]
  | cons first answers ih =>
    rw [foldlM_cons, bind_eq_ok]
    simp only [ih]
    by_cases zero : first.ttlSeconds = 0
    · simp [addObservationAnswer, zero, pure, Except.pure, Nat.add_assoc, Nat.add_comm 1]
    · simp only [addObservationAnswer, beq_iff_eq, zero, if_false, bind_eq_ok,
        elim_checkedAdd_eq_ok, pure_eq_ok, bne_iff_ne, ne_eq, not_false_eq_true,
        filter_cons_of_pos, forall_mem_cons, countP_cons_of_neg]
      constructor
      · rintro ⟨_, ⟨_, ⟨fits, rfl⟩, rfl⟩, rest, rfl⟩
        exact ⟨⟨fits, rest⟩, rfl⟩
      · rintro ⟨⟨fits, rest⟩, rfl⟩
        exact ⟨_, ⟨_, ⟨fits, rfl⟩, rfl⟩, rest, rfl⟩

theorem collectNormalized_eq_ok (collection : FqdnCollection)
    (observation : EgressDnsObservation) (after : FqdnCollection) :
    collectNormalized policy collection observation = .ok after ↔
      (observation.key ∉ collection.seen ∧ Timely policy observation) ∧
        after = collection.record policy observation := by
  simp only [collectNormalized, failIf_bind_eq_ok, contains_eq_false_iff, Timely,
    record, observationEntries, observationCounts, EgressFqdnPolicy.accepts]
  by_cases view : observation.source.view = policy.view
  · by_cases resolver : policy.admitsResolver observation.source.resolver = true
    · by_cases named : (policy.patterns.any fun pattern =>
          pattern.matches observation.queryName) = true
      · by_cases authorized : observationNameIsAuthorized policy observation.queryName = true
        · simp [view, resolver, named, authorized, addObservationAnswers_eq_ok, and_assoc, add]
        · simp [view, resolver, named, authorized, pure, Except.pure, eq_comm (a := after), add]
      · simp [view, resolver, named, pure, Except.pure, eq_comm (a := after), add]
    · simp [view, resolver, pure, Except.pure, eq_comm (a := after), add]
  · simp [view, pure, Except.pure, eq_comm (a := after), add]

theorem mem_seen_foldl_record {key : String ×ₗ String} :
    key ∈ (observations.foldl (record policy) collection).seen ↔
      key ∈ collection.seen ∨ ∃ observation ∈ observations, observation.key = key := by
  induction observations generalizing collection with
  | nil => simp
  | cons first observations ih =>
    rw [foldl_cons, ih, record, mem_set_insert, exists_mem_cons_iff]
    tauto

theorem grouped_foldl_record (observations : List EgressDnsObservation)
    (collection : FqdnCollection) :
    (observations.foldl (record policy) collection).grouped =
      (evidenceEntries policy observations).foldl pushValue collection.grouped := by
  induction observations generalizing collection with
  | nil => rfl
  | cons first observations ih =>
    rw [foldl_cons, ih, evidenceEntries, evidenceEntries, flatMap_cons, foldl_append]
    rfl

/-- The counters for all observations. -/
def collectedReport (policy : EgressFqdnPolicy) (observations : List EgressDnsObservation) :
    EgressFqdnCompilationReport :=
  observations.foldl (fun report observation =>
    report.add (observationCounts policy observation)) {}

theorem report_foldl_record (observations : List EgressDnsObservation)
    (collection : FqdnCollection) :
    (observations.foldl (record policy) collection).report =
      observations.foldl (fun report observation =>
        report.add (observationCounts policy observation)) collection.report := by
  induction observations generalizing collection with
  | nil => rfl
  | cons first observations ih =>
    rw [foldl_cons, ih]
    rfl

/-- Observations are collected when no observer reports a name twice and no time runs
over. -/
theorem collectObservations_eq_ok {nowUnixSeconds : UInt64} {grouped : FqdnEvidenceGroups}
    {report : EgressFqdnCompilationReport} :
    collectObservations policy observations nowUnixSeconds = .ok (grouped, report) ↔
      ∃ normalized, observations.mapM (fun observation => normalizeObservation observation
          policy.maxTtlSeconds nowUnixSeconds) = .ok normalized ∧
        ((∀ observation ∈ normalized, Timely policy observation) ∧ (normalized.map key).Nodup) ∧
        grouped = groupEntries (evidenceEntries policy normalized) ∧
        report = collectedReport policy normalized := by
  have admitted (normalized : List EgressDnsObservation) :
      (∀ before observation rest, normalized = before ++ observation :: rest →
        observation.key ∉ (before.foldl (record policy) {}).seen ∧ Timely policy observation) ↔
      (∀ observation ∈ normalized, Timely policy observation) ∧ (normalized.map key).Nodup := by
    rw [List.Nodup, pairwise_map, ← forall_split_iff]
    refine forall₃_congr fun before observation rest => imp_congr_right fun _ => ?_
    rw [mem_seen_foldl_record]
    simp only [ExtTreeSet.not_mem_empty, false_or, not_exists, not_and]
    exact and_comm
  have body : collectObservation policy nowUnixSeconds = fun collection observation =>
      normalizeObservation observation policy.maxTtlSeconds nowUnixSeconds >>=
        collectNormalized policy collection := rfl
  simp only [collectObservations, body, eq_ok_iffs, foldlM_mapM_eq_ok,
    foldlM_eq_ok_iff collectNormalized_eq_ok, admitted, Prod.mk.injEq]
  constructor
  · rintro ⟨_, ⟨normalized, computed, accepted, rfl⟩, rfl, rfl⟩
    exact ⟨normalized, computed, accepted, grouped_foldl_record normalized {},
      report_foldl_record normalized {}⟩
  · rintro ⟨normalized, computed, accepted, rfl, rfl⟩
    exact ⟨_, ⟨normalized, computed, accepted, rfl⟩, grouped_foldl_record normalized {},
      report_foldl_record normalized {}⟩

/-- The counters do not depend on the order of the observations. -/
theorem collectedReport_eq_of_perm {left right : List EgressDnsObservation}
    (perm : left.Perm right) : collectedReport policy left = collectedReport policy right := by
  have commute (report : EgressFqdnCompilationReport) (first second : EgressDnsObservation) :
      (report.add (observationCounts policy first)).add (observationCounts policy second) =
        (report.add (observationCounts policy second)).add (observationCounts policy first) := by
    simp [add, Nat.add_right_comm]
  exact perm.foldl_eq' (fun first _ second _ report => commute report first second) _

end Collection

/-! ## Leases -/

section Leases

variable {policy : EgressFqdnPolicy} {nowUnixSeconds : UInt64}

theorem quorumExpiry_eq_of_perm {left right : List EgressFqdnLeaseProvenance}
    (perm : left.Perm right) : quorumExpiry policy left = quorumExpiry policy right := by
  rw [quorumExpiry, quorumExpiry, sortDescending_eq_of_perm (perm.map _)]

/-- Enough pieces of evidence for the quorum. -/
def EgressFqdnPolicy.HasQuorum (policy : EgressFqdnPolicy)
    (provenance : List EgressFqdnLeaseProvenance) : Prop :=
  policy.requiredObservers.toNat ≤ provenance.length

instance (provenance : List EgressFqdnLeaseProvenance) :
    Decidable (policy.HasQuorum provenance) :=
  inferInstanceAs (Decidable (_ ≤ _))

/-- The end of the grace period after the quorum has expired. -/
def drainExpiry (policy : EgressFqdnPolicy) (provenance : List EgressFqdnLeaseProvenance) :
    UInt64 :=
  quorumExpiry policy provenance + policy.establishedFlowGraceSeconds.toUInt64

/-- No quorum lasts beyond the end of time. -/
def DrainTimely (policy : EgressFqdnPolicy) (provenance : List EgressFqdnLeaseProvenance) :
    Prop :=
  policy.HasQuorum provenance → (quorumExpiry policy provenance).toNat +
    policy.establishedFlowGraceSeconds.toNat < 2 ^ 64

/-- The lease on the address of a group. -/
def groupLease (policy : EgressFqdnPolicy)
    (group : FqdnLeaseKey × List EgressFqdnLeaseProvenance) : EgressFqdnDestinationLease where
  queryName := (ofLex group.1).1
  matchedPatterns := policy.matchedPatterns (ofLex group.1).1
  address := (ofLex group.1).2
  newFlowsUntilUnixSeconds := quorumExpiry policy group.2
  establishedFlowsUntilUnixSeconds := drainExpiry policy group.2
  provenance := sort group.2

/-- The lease on the address of a group, if a quorum supports it at least for flows that
are established. -/
def retainedLease (policy : EgressFqdnPolicy) (nowUnixSeconds : UInt64)
    (group : FqdnLeaseKey × List EgressFqdnLeaseProvenance) :
    Option EgressFqdnDestinationLease :=
  if policy.HasQuorum group.2 ∧ nowUnixSeconds < drainExpiry policy group.2 then
    some (groupLease policy group)
  else
    none

variable {lease : EgressFqdnDestinationLease} {grouped : FqdnEvidenceGroups}

theorem retainedLease_eq_some_iff {group : FqdnLeaseKey × List EgressFqdnLeaseProvenance} :
    retainedLease policy nowUnixSeconds group = some lease ↔
      (policy.HasQuorum group.2 ∧ nowUnixSeconds < drainExpiry policy group.2) ∧
        lease = groupLease policy group := by
  rw [retainedLease]
  split <;> simp_all [eq_comm]

theorem compileLease_eq_ok (progress : List EgressFqdnDestinationLease × Nat)
    (group : FqdnLeaseKey × List EgressFqdnLeaseProvenance)
    (after : List EgressFqdnDestinationLease × Nat) :
    compileLease policy nowUnixSeconds progress group = .ok after ↔ DrainTimely policy group.2 ∧
        after = (progress.1 ++ (retainedLease policy nowUnixSeconds group).toList,
          progress.2 + if policy.HasQuorum group.2 then 0 else 1) := by
  have sameExpiry : quorumExpiry policy (sort group.2) = quorumExpiry policy group.2 :=
    quorumExpiry_eq_of_perm (sort_perm _)
  simp only [compileLease, length_sort, sameExpiry, establishedUntil, DrainTimely,
    retainedLease, EgressFqdnPolicy.HasQuorum, pure, Except.pure]
  by_cases quorum : policy.requiredObservers.toNat ≤ group.2.length
  · have enough : ¬group.2.length < policy.requiredObservers.toNat := by omega
    simp only [enough, if_false, quorum, true_and, bind_eq_ok, elim_checkedAdd_eq_ok]
    simp only [and_assoc, exists_and_left, exists_eq_left]
    have lasting : nowUnixSeconds < drainExpiry policy group.2 ↔ ¬quorumExpiry policy group.2 +
        policy.establishedFlowGraceSeconds.toUInt64 ≤ nowUnixSeconds := not_le.symm
    simp only [lasting]
    split <;> simp [groupLease, drainExpiry, eq_comm (a := after)]
  · have below : group.2.length < policy.requiredObservers.toNat := by omega
    simp [below, quorum, eq_comm (a := after)]

/-- The leases on the groups that are supported, in the order of their names and
addresses. -/
def retainedLeases (policy : EgressFqdnPolicy) (nowUnixSeconds : UInt64)
    (grouped : FqdnEvidenceGroups) : List EgressFqdnDestinationLease :=
  grouped.toList.filterMap (retainedLease policy nowUnixSeconds)

theorem mem_retainedLeases : lease ∈ retainedLeases policy nowUnixSeconds grouped ↔
      ∃ (key : FqdnLeaseKey) (provenance : List EgressFqdnLeaseProvenance),
        grouped[key]? = some provenance ∧ policy.HasQuorum provenance ∧
          nowUnixSeconds < drainExpiry policy provenance ∧
            lease = groupLease policy (key, provenance) := by
  simp only [retainedLeases, mem_filterMap, Prod.exists,
    mem_toList_iff_getElem?_eq_some, retainedLease_eq_some_iff, and_assoc]

theorem retainedLeases_ascending (grouped : FqdnEvidenceGroups) :
    ((retainedLeases policy nowUnixSeconds grouped).map
      EgressFqdnDestinationLease.key).Pairwise (· < ·) := by
  rw [pairwise_map, retainedLeases, pairwise_filterMap]
  refine ordered_keys_toList.imp fun {left right} ordered leftLease leftRetained
    rightLease rightRetained => ?_
  rw [retainedLease_eq_some_iff] at leftRetained rightRetained
  rw [leftRetained.2, rightRetained.2]
  exact compare_lt_iff_lt.mp ordered

theorem foldl_compileLease (groups : List (FqdnLeaseKey × List EgressFqdnLeaseProvenance))
    (leases : List EgressFqdnDestinationLease) (count : Nat) : groups.foldl (fun progress group =>
        (progress.1 ++ (retainedLease policy nowUnixSeconds group).toList,
          progress.2 + if policy.HasQuorum group.2 then 0 else 1)) (leases, count) =
      (leases ++ groups.filterMap (retainedLease policy nowUnixSeconds),
        count + groups.countP fun group => ¬policy.HasQuorum group.2) := by
  induction groups generalizing leases count with
  | nil => simp
  | cons group groups ih =>
    rw [foldl_cons, ih]
    refine Prod.ext ?_ ?_
    · cases retained : retainedLease policy nowUnixSeconds group <;> simp [retained]
    · by_cases quorum : policy.HasQuorum group.2 <;> simp [quorum]
      omega

/-- No time of a group that is supported overruns. -/
def DrainsTimely (policy : EgressFqdnPolicy) (grouped : FqdnEvidenceGroups) : Prop :=
  ∀ (key : FqdnLeaseKey) (provenance : List EgressFqdnLeaseProvenance),
    grouped[key]? = some provenance → DrainTimely policy provenance

theorem compileLeases_eq_ok {report finished : EgressFqdnCompilationReport}
    {leases : List EgressFqdnDestinationLease} :
    compileLeases policy grouped nowUnixSeconds report = .ok (leases, finished) ↔
      (DrainsTimely policy grouped ∧
        (retainedLeases policy nowUnixSeconds grouped).length ≤ policy.maxAddresses.toNat) ∧
      leases = retainedLeases policy nowUnixSeconds grouped ∧
      finished = { report with
        belowQuorumDestinations := report.belowQuorumDestinations +
          grouped.toList.countP fun group => ¬policy.HasQuorum group.2 } := by
  have loop (result : List EgressFqdnDestinationLease × Nat) :
      grouped.toList.foldlM (compileLease policy nowUnixSeconds)
          ([], report.belowQuorumDestinations) = .ok result ↔
        DrainsTimely policy grouped ∧
          result = (retainedLeases policy nowUnixSeconds grouped, report.belowQuorumDestinations +
              grouped.toList.countP fun group => ¬policy.HasQuorum group.2) := by
    rw [foldlM_eq_ok_iff compileLease_eq_ok, foldl_compileLease]
    refine and_congr_left fun _ => ⟨fun timely key provenance found => ?_, ?_⟩
    · obtain ⟨before, rest, split⟩ := append_of_mem (mem_toList_iff_getElem?_eq_some.mpr found)
      exact timely before (key, provenance) rest split
    · intro timely before group rest split
      refine timely group.1 group.2 (mem_toList_iff_getElem?_eq_some.mp ?_)
      rw [split]
      simp
  have ordered : sortByKey EgressFqdnDestinationLease.key
      (retainedLeases policy nowUnixSeconds grouped) =
        retainedLeases policy nowUnixSeconds grouped :=
    ((pairwise_map.mp (retainedLeases_ascending grouped)).imp le_of_lt).insertionSort_eq
  simp only [compileLeases, eq_ok_iffs, loop, Prod.mk.injEq, eq_false_iffs]
  constructor
  · rintro ⟨_, ⟨timely, rfl⟩, bounded, rfl, rfl⟩
    rw [ordered] at bounded
    exact ⟨⟨timely, bounded⟩, ordered, rfl⟩
  · rintro ⟨⟨timely, bounded⟩, rfl, rfl⟩
    exact ⟨_, ⟨timely, rfl⟩, by rwa [ordered], ordered, rfl⟩

end Leases

end Unf.Egress
