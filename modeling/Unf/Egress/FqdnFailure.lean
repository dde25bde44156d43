import Unf.Egress.FqdnObservation

/-!
# How compilation of ledger observations fails

The observations of a ledger are canonical, and no observer reports a name twice. A
snapshot of them can still fail its own replay: an observation may list one address with
two lifetimes, which gives a lease two pieces of evidence from one observer.
-/

namespace Unf.Egress

open Unf.Lib List EgressDnsObservation UInt64

/-! ## Reports -/

/-- The answers of an observation that count for an address under a name. -/
def EgressDnsObservation.answersFor (observation : EgressDnsObservation)
    (policy : EgressFqdnPolicy) (name : String) (address : IpAddr) : List EgressDnsAnswer :=
  if policy.accepts observation && observation.queryName == name then
    observation.positiveAnswers.filter fun answer => answer.address == address
  else
    []

/-- The answers of all observations that count for an address under a name. -/
def reports (policy : EgressFqdnPolicy) (observations : List EgressDnsObservation)
    (name : String) (address : IpAddr) : List (EgressDnsObservation × EgressDnsAnswer) :=
  observations.flatMap fun observation =>
    (observation.answersFor policy name address).map (Prod.mk observation)

/-- The time at which a report ends. -/
def reportExpiry (policy : EgressFqdnPolicy)
    (report : EgressDnsObservation × EgressDnsAnswer) : Nat :=
  report.1.observedAtUnixSeconds.toNat + (policy.ttl report.2).toNat

/-- The time at which a report and the grace period after it end. -/
def reportDrain (policy : EgressFqdnPolicy)
    (report : EgressDnsObservation × EgressDnsAnswer) : Nat :=
  reportExpiry policy report + policy.establishedFlowGraceSeconds.toNat

/-- Enough reports for an address under a name have not ended with their grace period. -/
def Live (policy : EgressFqdnPolicy) (observations : List EgressDnsObservation)
    (nowUnixSeconds : UInt64) (name : String) (address : IpAddr) : Prop :=
  policy.requiredObservers.toNat ≤ (reports policy observations name address).countP
    fun report => decide (nowUnixSeconds.toNat < reportDrain policy report)

/-- Neither a time nor the number of addresses stands in the way of a snapshot. -/
@[mk_iff]
structure Admissible (policy : EgressFqdnPolicy) (observations : List EgressDnsObservation)
    (nowUnixSeconds : UInt64) : Prop where
  present : ∀ observation ∈ observations, observation.observedAtUnixSeconds ≤
    saturatingAdd nowUnixSeconds maxEgressFqdnFutureSkewSeconds
  timely : ∀ observation ∈ observations, Timely policy observation
  drains : ∀ name address, (reports policy observations name address).countP
    (fun report => decide (2 ^ 64 ≤ reportDrain policy report)) <
      policy.requiredObservers.toNat
  fits : ∀ destinations : Finset (String × IpAddr),
    (∀ destination ∈ destinations, Live policy observations nowUnixSeconds destination.1
      destination.2) → destinations.card ≤ policy.maxAddresses.toNat

/-- No observation lists a live address with two lifetimes. -/
def SingleAnswers (policy : EgressFqdnPolicy) (observations : List EgressDnsObservation)
    (nowUnixSeconds : UInt64) : Prop :=
  ∀ name address, Live policy observations nowUnixSeconds name address →
    ∀ observation ∈ observations, (observation.answersFor policy name address).length ≤ 1

/-- The failures that a caller has to expect: too many addresses, a time that cannot be
represented, or a clock behind the one of an adopted batch. -/
def ExpectedFailure (calls : List EgressFqdnObservationCall) (nowUnixSeconds : UInt64) :
    EgressFqdnError → Prop
  | .capacityExceeded _ _ => True
  | .timestampOverflow => True
  | .invalidObservation _ reason =>
    reason = "observation timestamp is too far in the future" ∧
      ∃ call ∈ calls, nowUnixSeconds < call.nowUnixSeconds
  | _ => False

variable {policy : EgressFqdnPolicy} {observation : EgressDnsObservation}
  {observations : List EgressDnsObservation} {nowUnixSeconds : UInt64} {name : String}
  {address : IpAddr} {error : EgressFqdnError}

/-! ## Cut observations -/

section Capped

variable (positive : policy.maxTtlSeconds ≠ 0)

include positive

theorem positiveAnswers_capped :
    (observation.capped policy.maxTtlSeconds).positiveAnswers =
      observation.positiveAnswers.map (EgressDnsAnswer.capped policy.maxTtlSeconds) := by
  rw [positiveAnswers, capped, filter_map]
  congr 1
  refine filter_congr fun answer _ => ?_
  rw [Function.comp_apply, Bool.eq_iff_iff, bne_iff_ne, bne_iff_ne]
  exact not_congr (capped_ttlSeconds_eq_zero_iff positive answer)

/-- Cutting the lifetimes first does not change the evidence. -/
theorem observationEntries_capped :
    observationEntries policy (observation.capped policy.maxTtlSeconds) =
      observationEntries policy observation := by
  have entries : (observation.capped policy.maxTtlSeconds).positiveAnswers.map
      (answerEntry policy (observation.capped policy.maxTtlSeconds)) =
        observation.positiveAnswers.map (answerEntry policy observation) := by
    rw [positiveAnswers_capped positive, map_map]
    refine map_congr_left fun answer _ => ?_
    rw [Function.comp_apply, answerEntry, ttl_capped]
    rfl
  rw [observationEntries, entries]
  rfl

theorem evidenceEntries_map_capped (observations : List EgressDnsObservation) :
    evidenceEntries policy (observations.map (capped policy.maxTtlSeconds)) =
      evidenceEntries policy observations := by
  rw [evidenceEntries, flatMap_map]
  exact flatMap_congr fun _ _ => observationEntries_capped positive

theorem timely_capped_iff :
    Timely policy (observation.capped policy.maxTtlSeconds) ↔ Timely policy observation := by
  rw [Timely, positiveAnswers_capped positive, forall_mem_map]
  simp only [ttl_capped]
  rfl

end Capped

/-! ## Reports as evidence -/

section Reports

/-- The evidence that a report gives. -/
def reportEvidence (policy : EgressFqdnPolicy)
    (report : EgressDnsObservation × EgressDnsAnswer) : EgressFqdnLeaseProvenance :=
  (answerEntry policy report.1 report.2).2

/-- The evidence for an address under a name. -/
abbrev evidenceFor (policy : EgressFqdnPolicy) (observations : List EgressDnsObservation)
    (name : String) (address : IpAddr) : List EgressFqdnLeaseProvenance :=
  (reports policy observations name address).map (reportEvidence policy)

theorem mem_answersFor {answer : EgressDnsAnswer} :
    answer ∈ observation.answersFor policy name address ↔
      (policy.accepts observation = true ∧ observation.queryName = name) ∧
        answer ∈ observation.positiveAnswers ∧ answer.address = address := by
  rw [answersFor]
  split
  next counted => simp_all
  next rejected => simp_all

variable {report : EgressDnsObservation × EgressDnsAnswer}

theorem mem_reports : report ∈ reports policy observations name address ↔
      report.1 ∈ observations ∧ report.2 ∈ report.1.answersFor policy name address := by
  obtain ⟨observation, answer⟩ := report
  simp only [reports, mem_flatMap, mem_map, Prod.mk.injEq]
  constructor
  · rintro ⟨_, member, _, listed, rfl, rfl⟩
    exact ⟨member, listed⟩
  · rintro ⟨member, listed⟩
    exact ⟨observation, member, answer, listed, rfl, rfl⟩

theorem valuesAt_observationEntries (observation : EgressDnsObservation) :
    valuesAt (observationEntries policy observation) (toLex (name, address)) =
      ((observation.answersFor policy name address).map (Prod.mk observation)).map
        (reportEvidence policy) := by
  rw [observationEntries, answersFor]
  by_cases accepted : policy.accepts observation = true
  · by_cases named : observation.queryName = name
    · simp only [accepted, named, beq_self_eq_true, if_true, valuesAt, filter_map, map_map]
      congr 1
      refine filter_congr fun answer _ => ?_
      simp [answerEntry, named, Bool.beq_eq_decide_eq]
    · simp [accepted, named, valuesAt, answerEntry]
  · simp [accepted, valuesAt]

/-- The evidence in a group is that of the reports for its name and address. -/
theorem valuesAt_evidenceEntries :
    valuesAt (evidenceEntries policy observations) (toLex (name, address)) =
      evidenceFor policy observations name address := by
  rw [valuesAt, evidenceEntries, filter_flatMap, map_flatMap, evidenceFor, reports, map_flatMap]
  exact flatMap_congr fun observation _ => valuesAt_observationEntries observation

variable (required : policy.requiredObservers ≠ 0)
  (timely : ∀ observation ∈ observations, Timely policy observation)

include required in
theorem reports_ne_nil_of_live (live : Live policy observations nowUnixSeconds name address) :
    reports policy observations name address ≠ [] := by
  intro empty
  rw [Live, empty, countP_nil, Nat.le_zero] at live
  exact required (UInt16.toNat_inj.mp live)

/-- How many pieces of evidence last past a time with their grace period. -/
def lasting (policy : EgressFqdnPolicy) (provenance : List EgressFqdnLeaseProvenance)
    (time : Nat) : Nat :=
  provenance.countP fun evidence => decide
    (time < evidence.expiresAtUnixSeconds.toNat + policy.establishedFlowGraceSeconds.toNat)

include timely in
theorem lasting_evidenceFor (time : Nat) :
    lasting policy (evidenceFor policy observations name address) time =
      (reports policy observations name address).countP
        fun report => decide (time < reportDrain policy report) := by
  rw [lasting, countP_map]
  refine countP_congr fun report member => ?_
  obtain ⟨listed, counted⟩ := mem_reports.mp member
  obtain ⟨⟨accepted, -⟩, positive, -⟩ := mem_answersFor.mp counted
  have fits := timely report.1 listed accepted report.2 positive
  have expires : (reportEvidence policy report).expiresAtUnixSeconds.toNat =
      reportExpiry policy report := by
    change (_ + _ : UInt64).toNat = _
    rw [UInt64.toNat_add, UInt32.toNat_toUInt64]
    exact Nat.mod_eq_of_lt fits
  rw [Function.comp_apply, expires, reportDrain]

variable {provenance : List EgressFqdnLeaseProvenance}

include required

/-- The quorum and its grace period last past a time when those of enough evidence do. -/
theorem lt_quorumExpiry_add_grace {time : Nat}
    (late : policy.establishedFlowGraceSeconds.toNat ≤ time) (bounded : time < 2 ^ 64) :
    time < (quorumExpiry policy provenance).toNat + policy.establishedFlowGraceSeconds.toNat ↔
      policy.requiredObservers.toNat ≤ lasting policy provenance time := by
  have start : (ofNat (time - policy.establishedFlowGraceSeconds.toNat)).toNat =
      time - policy.establishedFlowGraceSeconds.toNat :=
    toNat_ofNat_of_lt' (show _ < 2 ^ 64 by omega)
  have past (expiry : UInt64) : time < expiry.toNat + policy.establishedFlowGraceSeconds.toNat ↔
      ofNat (time - policy.establishedFlowGraceSeconds.toNat) < expiry := by
    rw [lt_iff_toNat_lt]
    omega
  simp only [lasting, past, lt_quorumExpiry_iff required, countP_eq_length_filter]

theorem drainTimely_iff : DrainTimely policy provenance ↔
      lasting policy provenance (2 ^ 64 - 1) < policy.requiredObservers.toNat := by
  have graceBound := policy.establishedFlowGraceSeconds.toNat_lt
  have reaches : 2 ^ 64 - 1 < (quorumExpiry policy provenance).toNat + _ ↔ _ :=
    lt_quorumExpiry_add_grace required (by omega) (by omega)
  have counted : lasting policy provenance (2 ^ 64 - 1) ≤ provenance.length := countP_le_length
  rw [DrainTimely, EgressFqdnPolicy.HasQuorum]
  omega

theorem lasting_iff (drains : DrainTimely policy provenance) :
    policy.HasQuorum provenance ∧ nowUnixSeconds < drainExpiry policy provenance ↔
      policy.requiredObservers.toNat ≤ lasting policy provenance nowUnixSeconds.toNat := by
  have counted : lasting policy provenance nowUnixSeconds.toNat ≤ provenance.length :=
    countP_le_length
  have lasts (quorum : policy.HasQuorum provenance) :
      nowUnixSeconds < drainExpiry policy provenance ↔ nowUnixSeconds.toNat <
        (quorumExpiry policy provenance).toNat + policy.establishedFlowGraceSeconds.toNat := by
    rw [lt_iff_toNat_lt, toNat_drainExpiry quorum drains]
  rw [and_congr_right lasts, EgressFqdnPolicy.HasQuorum]
  by_cases late : policy.establishedFlowGraceSeconds.toNat ≤ nowUnixSeconds.toNat
  · rw [lt_quorumExpiry_add_grace required late nowUnixSeconds.toNat_lt]
    omega
  · have all : lasting policy provenance nowUnixSeconds.toNat = provenance.length := by
      rw [lasting, countP_eq_length]
      intro evidence _
      rw [decide_eq_true_eq]
      omega
    omega

include timely

theorem drainTimely_evidenceFor_iff :
    DrainTimely policy (evidenceFor policy observations name address) ↔
      (reports policy observations name address).countP
        (fun report => decide (2 ^ 64 ≤ reportDrain policy report)) <
          policy.requiredObservers.toNat := by
  rw [drainTimely_iff required, lasting_evidenceFor timely]
  rfl

theorem live_iff (drains : DrainTimely policy (evidenceFor policy observations name address)) :
    policy.HasQuorum (evidenceFor policy observations name address) ∧
        nowUnixSeconds < drainExpiry policy (evidenceFor policy observations name address) ↔
      Live policy observations nowUnixSeconds name address := by
  rw [lasting_iff required drains, lasting_evidenceFor timely, Live]

end Reports

/-! ## Replay of the leases -/

section Replay

/-- A lease has evidence from distinct observers when no observation lists its address
twice. -/
theorem nodup_observers_iff (distinct : (observations.map key).Nodup) :
    ((reports policy observations name address).map
        fun report => report.1.source.observerUid).Nodup ↔ ∀ observation ∈ observations,
        (observation.answersFor policy name address).length ≤ 1 := by
  have observers (observation : EgressDnsObservation) :
      ((observation.answersFor policy name address).map (Prod.mk observation)).map
          (fun report => report.1.source.observerUid) =
        List.replicate (observation.answersFor policy name address).length
          observation.source.observerUid := by
    rw [map_map]
    exact map_eq_replicate_iff.mpr fun _ _ => rfl
  have apart : observations.Pairwise (Function.onFun List.Disjoint fun observation =>
      ((observation.answersFor policy name address).map (Prod.mk observation)).map
        fun report => report.1.source.observerUid) := by
    refine (pairwise_map.mp distinct).imp fun {left right} different observer leftMember
      rightMember => ?_
    obtain ⟨_, leftReport, rfl⟩ := mem_map.mp leftMember
    obtain ⟨_, rightReport, same⟩ := mem_map.mp rightMember
    obtain ⟨leftAnswer, leftListed, rfl⟩ := mem_map.mp leftReport
    obtain ⟨rightAnswer, rightListed, rfl⟩ := mem_map.mp rightReport
    obtain ⟨⟨-, leftNamed⟩, -⟩ := mem_answersFor.mp leftListed
    obtain ⟨⟨-, rightNamed⟩, -⟩ := mem_answersFor.mp rightListed
    apply different
    rw [key, key, leftNamed, rightNamed, ← same]
  rw [reports, map_flatMap, nodup_flatMap, and_iff_left apart]
  simp only [observers, nodup_replicate]

variable (positive : policy.maxTtlSeconds ≠ 0)
  (canonical : ∀ observation ∈ observations, observation.Canonical)
  (present : ∀ observation ∈ observations, observation.observedAtUnixSeconds ≤
    saturatingAdd nowUnixSeconds maxEgressFqdnFutureSkewSeconds)
  (timely : ∀ observation ∈ observations, Timely policy observation)

include positive canonical present timely

/-- The evidence of a report on a canonical observation is valid. -/
theorem evidenceInvalid_reportEvidence {report : EgressDnsObservation × EgressDnsAnswer}
    (member : report ∈ reports policy observations name address) :
    evidenceInvalid policy name nowUnixSeconds (reportEvidence policy report) = false := by
  obtain ⟨listed, counted⟩ := mem_reports.mp member
  obtain ⟨⟨accepted, rfl⟩, answered, -⟩ := mem_answersFor.mp counted
  have valid := canonical report.1 listed
  have source := valid.source
  simp only [sourceInvalid, eq_false_iffs] at source
  have lasting := (mem_filter.mp answered).2
  rw [bne_iff_ne] at lasting
  have ttlPositive : policy.ttl report.2 ≠ 0 := by
    have uncut := (capped_ttlSeconds_eq_zero_iff positive report.2).not.mpr lasting
    exact uncut
  have chain : (report.1.canonicalChain.any fun name => !isCanonicalDnsName name) = false := by
    rw [any_eq_false]
    intro name named
    have normalizes := (valid.chain name named).normalizeDnsName_eq
    simp [isCanonicalDnsName, normalizes]
  have chainPresent : report.1.canonicalChain ≠ [] := by
    intro empty
    have first := valid.first
    rw [empty] at first
    cases first
  have fits := timely report.1 listed accepted report.2 answered
  have expires : checkedAdd report.1.observedAtUnixSeconds (policy.ttl report.2).toUInt64 =
      some (report.1.observedAtUnixSeconds + (policy.ttl report.2).toUInt64) := by
    rw [checkedAdd, if_pos (by rw [UInt32.toNat_toUInt64]; exact fits)]
  simp only [EgressFqdnPolicy.accepts, Bool.and_eq_true, beq_iff_eq] at accepted
  simp only [evidenceInvalid, reportEvidence, eq_false_iffs]
  exact ⟨⟨⟨⟨⟨⟨⟨⟨⟨⟨⟨⟨⟨⟨⟨source.1.1.1.1, source.1.1.1.2⟩, accepted.1.1.1⟩, source.1.1.2⟩,
    accepted.1.1.2⟩, source.1.2⟩, source.2⟩, chainPresent⟩,
    decide_eq_false (not_lt.mpr valid.chainBounded)⟩, valid.first⟩, chain⟩, valid.loopFree⟩,
    ttlPositive⟩, decide_eq_false (not_lt.mpr (min_le_right _ _))⟩,
    decide_eq_false (not_lt.mpr (present report.1 listed))⟩, expires⟩

/-- The lease on a group of reports is replayed when its observers are distinct. -/
theorem replays_iff (distinct : (observations.map key).Nodup)
    (drains : DrainTimely policy (evidenceFor policy observations name address))
    (nonempty : reports policy observations name address ≠ [])
    (quorum : policy.HasQuorum (evidenceFor policy observations name address)) :
    (groupLease policy (toLex (name, address),
        evidenceFor policy observations name address)).Replays policy nowUnixSeconds ↔
      ∀ observation ∈ observations, (observation.answersFor policy name address).length ≤ 1 := by
  rw [← nodup_observers_iff distinct]
  have sameObservers : ((groupLease policy (toLex (name, address),
      evidenceFor policy observations name address)).provenance.map
        fun evidence => evidence.source.observerUid).Perm
      ((reports policy observations name address).map
        fun report => report.1.source.observerUid) := by
    refine ((sort_perm _).map _).trans ?_
    rw [map_map]
    exact List.Perm.refl _
  constructor
  · intro replays
    exact sameObservers.nodup_iff.mp replays.observers
  · intro observers
    obtain ⟨report, member⟩ := exists_mem_of_ne_nil _ nonempty
    obtain ⟨listed, counted⟩ := mem_reports.mp member
    obtain ⟨⟨accepted, rfl⟩, answered, rfl⟩ := mem_answersFor.mp counted
    have valid := canonical report.1 listed
    have answer := (mem_filter.mp answered).1
    simp only [EgressFqdnPolicy.accepts, Bool.and_eq_true, any_eq_true] at accepted
    obtain ⟨⟨-, pattern, patternMember, isMatched⟩, authorized⟩ := accepted
    have evidenceDistinct := List.Nodup.of_map _ (sameObservers.nodup_iff.mpr observers)
    have sameExpiry : quorumExpiry policy _ = quorumExpiry policy _ := quorumExpiry_sort
      (evidenceFor policy observations report.1.queryName report.2.address)
    exact {
      named := valid.named.normalizeDnsName_eq
      specified := (valid.answers report.2 answer).1
      matched := ne_nil_of_mem (mem_filter.mpr ⟨patternMember, isMatched⟩)
      patterns := rfl
      authorized := authorized
      quorum := hasQuorum_sort.mpr quorum
      ordered := ((sort_sorted _).and evidenceDistinct).imp fun ordered =>
        lt_of_le_of_ne ordered.1 ordered.2
      observers := sameObservers.nodup_iff.mpr observers
      evidence := fun evidence evidenceMember => by
        obtain ⟨other, otherMember, rfl⟩ := mem_map.mp (mem_sort.mp evidenceMember)
        exact evidenceInvalid_reportEvidence positive canonical present timely otherMember
      timely := by
        rw [groupLease, sameExpiry]
        exact drains quorum
      newFlows := sameExpiry.symm
      establishedFlows := congrArg
        (fun expiry => expiry + policy.establishedFlowGraceSeconds.toUInt64) sameExpiry.symm }

end Replay

/-! ## Failures of each stage -/

section Collection

variable {collection : FqdnCollection}

theorem elim_checkedAdd_eq_error {left right : UInt64}
    (failed : (checkedAdd left right).elim (.error .timestampOverflow) .ok =
      (.error error : FqdnResult UInt64)) :
    error = .timestampOverflow ∧ 2 ^ 64 ≤ left.toNat + right.toNat := by
  cases sum : checkedAdd left right with
  | none =>
    rw [sum] at failed
    exact ⟨(Except.error.inj failed).symm, checkedAdd_eq_none_iff.mp sum⟩
  | some total =>
    rw [sum] at failed
    cases failed

theorem addObservationAnswers_eq_error
    (failed : addObservationAnswers policy observation collection = .error error) :
    error = .timestampOverflow := by
  obtain ⟨answer, -, before, failed⟩ := exists_foldlM_eq_error failed
  rw [addObservationAnswer] at failed
  split at failed
  next => cases failed
  next =>
    rcases bind_eq_error.mp failed with overflow | ⟨_, -, returned⟩
    · exact (elim_checkedAdd_eq_error overflow).1
    · cases returned

/-- A normalized observation of another name or observer only fails for its times. -/
theorem collectNormalized_eq_error (fresh : observation.key ∉ collection.seen)
    (failed : collectNormalized policy collection observation = .error error) :
    error = .timestampOverflow := by
  rw [collectNormalized, contains_eq_false_iff.mpr fresh] at failed
  rcases bind_eq_error.mp failed with duplicate | ⟨_, -, failed⟩
  · cases duplicate
  · dsimp only at failed
    split at failed
    next => cases failed
    split at failed
    next => cases failed
    split at failed
    next => cases failed
    split at failed
    next => cases failed
    exact addObservationAnswers_eq_error failed

theorem collectObservation_eq_error (canonical : observation.Canonical)
    (fresh : observation.key ∉ collection.seen)
    (failed : collectObservation policy nowUnixSeconds collection observation = .error error) :
    error = .timestampOverflow ∨ saturatingAdd nowUnixSeconds maxEgressFqdnFutureSkewSeconds <
          observation.observedAtUnixSeconds ∧
        error = .invalidObservation observation.source.observerUid
          "observation timestamp is too far in the future" := by
  rw [collectObservation, canonical.normalizeObservation_eq] at failed
  split at failed
  next present =>
    have freshCapped : (observation.capped policy.maxTtlSeconds).key ∉ collection.seen := fresh
    exact .inl (collectNormalized_eq_error freshCapped failed)
  next future => exact .inr ⟨not_le.mp future, (Except.error.inj failed).symm⟩

/-- An observation of the list comes from the future, and is rejected for that. -/
def RejectsFuture (observations : List EgressDnsObservation) (nowUnixSeconds : UInt64)
    (error : EgressFqdnError) : Prop :=
  ∃ observation ∈ observations,
    saturatingAdd nowUnixSeconds maxEgressFqdnFutureSkewSeconds <
        observation.observedAtUnixSeconds ∧
      error = .invalidObservation observation.source.observerUid
        "observation timestamp is too far in the future"

variable (canonical : ∀ observation ∈ observations, observation.Canonical)

include canonical

theorem mapM_normalizeObservation_eq_ok {normalized : List EgressDnsObservation} :
    observations.mapM (fun observation => normalizeObservation observation
        policy.maxTtlSeconds nowUnixSeconds) = .ok normalized ↔
      (∀ observation ∈ observations, observation.observedAtUnixSeconds ≤
        saturatingAdd nowUnixSeconds maxEgressFqdnFutureSkewSeconds) ∧
      normalized = observations.map (capped policy.maxTtlSeconds) := by
  induction observations generalizing normalized with
  | nil => simp [pure, Except.pure]
  | cons first observations ih =>
    rw [forall_mem_cons] at canonical
    rw [mapM_cons_eq_ok, forall_mem_cons]
    simp only [canonical.1.normalizeObservation_eq, ih canonical.2]
    constructor
    · rintro ⟨value, _, computed, ⟨present, rfl⟩, rfl⟩
      split at computed
      next firstPresent =>
        obtain rfl := Except.ok.inj computed
        exact ⟨⟨firstPresent, present⟩, rfl⟩
      next => cases computed
    · rintro ⟨⟨firstPresent, present⟩, rfl⟩
      exact ⟨_, _, if_pos firstPresent, ⟨present, rfl⟩, rfl⟩

variable (distinct : (observations.map EgressDnsObservation.key).Nodup)

include distinct

/-- Canonical observations are collected unless a time stands in the way. -/
theorem collectObservations_canonical_eq_ok (positive : policy.maxTtlSeconds ≠ 0)
    {grouped : FqdnEvidenceGroups} {report : EgressFqdnCompilationReport} :
    collectObservations policy observations nowUnixSeconds = .ok (grouped, report) ↔
      ((∀ observation ∈ observations, observation.observedAtUnixSeconds ≤
          saturatingAdd nowUnixSeconds maxEgressFqdnFutureSkewSeconds) ∧
        ∀ observation ∈ observations, Timely policy observation) ∧
      grouped = groupEntries (evidenceEntries policy observations) ∧ report = collectedReport policy
        (observations.map (capped policy.maxTtlSeconds)) := by
  have sameKeys : (observations.map (capped policy.maxTtlSeconds)).map
      key = observations.map key := by
    rw [map_map]
    rfl
  simp only [collectObservations_eq_ok, mapM_normalizeObservation_eq_ok canonical]
  constructor
  · rintro ⟨_, ⟨present, rfl⟩, ⟨timely, -⟩, rfl, rfl⟩
    simp only [forall_mem_map, timely_capped_iff positive] at timely
    exact ⟨⟨present, timely⟩, by rw [evidenceEntries_map_capped positive], rfl⟩
  · rintro ⟨⟨present, timely⟩, rfl, rfl⟩
    refine ⟨_, ⟨present, rfl⟩, ⟨?_, sameKeys ▸ distinct⟩, ?_, rfl⟩
    · simpa only [forall_mem_map, timely_capped_iff positive] using timely
    · rw [evidenceEntries_map_capped positive]

theorem foldlM_collectObservation_eq_error
    (fresh : ∀ observation ∈ observations, observation.key ∉ collection.seen)
    (failed : observations.foldlM (collectObservation policy nowUnixSeconds) collection =
      .error error) :
    error = .timestampOverflow ∨ RejectsFuture observations nowUnixSeconds error := by
  induction observations generalizing collection with
  | nil => simp [pure, Except.pure] at failed
  | cons first observations ih =>
    rw [forall_mem_cons] at canonical fresh
    rw [map_cons, nodup_cons] at distinct
    rw [foldlM_cons, bind_eq_error] at failed
    rw [RejectsFuture, exists_mem_cons_iff]
    rcases failed with firstFailed | ⟨middle, collected, restFailed⟩
    · rcases collectObservation_eq_error canonical.1 fresh.1 firstFailed with
        overflow | future
      · exact .inl overflow
      · exact .inr (.inl future)
    · have unseen (observation : EgressDnsObservation) (member : observation ∈ observations) :
          observation.key ∉ middle.seen := by
        rw [collectObservation, canonical.1.normalizeObservation_eq] at collected
        split at collected
        next =>
          obtain ⟨-, rfl⟩ := (collectNormalized_eq_ok _ _ _).mp collected
          rw [FqdnCollection.record, mem_set_insert, not_or]
          refine ⟨fun same => distinct.1 ?_, fresh.2 observation member⟩
          exact mem_map.mpr ⟨observation, member, same.symm⟩
        next => cases collected
      rcases ih canonical.2 distinct.2 unseen restFailed with
        overflow | future
      · exact .inl overflow
      · exact .inr (.inr future)

/-- Canonical observations without repeats fail for a time, or as observations from the
future. -/
theorem collectObservations_eq_error
    (failed : collectObservations policy observations nowUnixSeconds = .error error) :
    error = .timestampOverflow ∨ RejectsFuture observations nowUnixSeconds error := by
  rcases bind_eq_error.mp failed with collectFailed | ⟨_, -, returned⟩
  · exact foldlM_collectObservation_eq_error canonical distinct (by simp) collectFailed
  · cases returned

end Collection

section Leases

theorem compileLease_eq_error {progress : List EgressFqdnDestinationLease × Nat}
    {group : FqdnLeaseKey × List EgressFqdnLeaseProvenance}
    (failed : compileLease policy nowUnixSeconds progress group = .error error) :
    error = .timestampOverflow := by
  rw [compileLease] at failed
  split at failed
  next => cases failed
  next =>
    rcases bind_eq_error.mp failed with overflow | ⟨_, -, placed⟩
    · exact (elim_checkedAdd_eq_error overflow).1
    · split at placed <;> cases placed

theorem compileLeases_eq_error {grouped : FqdnEvidenceGroups} {report : EgressFqdnCompilationReport}
    (failed : compileLeases policy grouped nowUnixSeconds report = .error error) :
    error = .timestampOverflow ∨ ∃ actual, error = .capacityExceeded actual
      policy.maxAddresses := by
  rcases bind_eq_error.mp failed with loopFailed | ⟨_, -, failed⟩
  · obtain ⟨_, -, _, groupFailed⟩ := exists_foldlM_eq_error loopFailed
    exact .inl (compileLease_eq_error groupFailed)
  · rcases bind_eq_error.mp failed with exceeded | ⟨_, -, returned⟩
    · exact .inr ⟨_, (failIf_eq_error.mp exceeded).2⟩
    · cases returned

variable (required : policy.requiredObservers ≠ 0)

include required

theorem drainsTimely_groups_iff :
    DrainsTimely policy (groupEntries (evidenceEntries policy observations)) ↔
      ∀ name address, DrainTimely policy (evidenceFor policy observations name address) := by
  simp only [DrainsTimely, getElem?_groupEntries_eq_some_iff]
  constructor
  · intro drains name address quorum
    refine drains (toLex (name, address)) _ ⟨valuesAt_evidenceEntries.symm, ?_⟩ quorum
    intro empty
    rw [empty, EgressFqdnPolicy.HasQuorum, length_nil, Nat.le_zero] at quorum
    exact required (UInt16.toNat_inj.mp quorum)
  · rintro drains key _ ⟨rfl, -⟩
    obtain ⟨⟨name, address⟩, rfl⟩ := toLex.surjective key
    rw [valuesAt_evidenceEntries]
    exact drains name address

variable (timely : ∀ observation ∈ observations, Timely policy observation)
  (drains : ∀ name address, DrainTimely policy (evidenceFor policy observations name address))

include timely drains

/-- The leases on ledger observations are those on the live destinations. -/
theorem mem_retainedLeases_reports {lease : EgressFqdnDestinationLease} :
    lease ∈ retainedLeases policy nowUnixSeconds
        (groupEntries (evidenceEntries policy observations)) ↔
      ∃ name address, Live policy observations nowUnixSeconds name address ∧
        lease = groupLease policy (toLex (name, address),
          evidenceFor policy observations name address) := by
  simp only [mem_retainedLeases, getElem?_groupEntries_eq_some_iff]
  constructor
  · rintro ⟨key, _, ⟨rfl, -⟩, quorum, lasting, rfl⟩
    obtain ⟨⟨name, address⟩, rfl⟩ := toLex.surjective key
    rw [valuesAt_evidenceEntries] at quorum lasting ⊢
    exact ⟨name, address, (live_iff required timely (drains name address)).mp
      ⟨quorum, lasting⟩, rfl⟩
  · rintro ⟨name, address, live, rfl⟩
    obtain ⟨quorum, lasting⟩ := (live_iff required timely (drains name address)).mpr live
    refine ⟨toLex (name, address), _, ⟨valuesAt_evidenceEntries.symm, ?_⟩, quorum, lasting, rfl⟩
    rw [ne_eq, map_eq_nil_iff]
    exact reports_ne_nil_of_live required live

/-- The leases fit when the live destinations do. -/
theorem length_retainedLeases_le_iff {limit : Nat} : (retainedLeases policy nowUnixSeconds
        (groupEntries (evidenceEntries policy observations))).length ≤ limit ↔
      ∀ destinations : Finset (String × IpAddr),
        (∀ destination ∈ destinations, Live policy observations nowUnixSeconds destination.1
          destination.2) → destinations.card ≤ limit := by
  have members (lease : EgressFqdnDestinationLease) :
      lease ∈ retainedLeases policy nowUnixSeconds
        (groupEntries (evidenceEntries policy observations)) ↔ _ :=
    mem_retainedLeases_reports required timely drains
  have keys : ((retainedLeases policy nowUnixSeconds
      (groupEntries (evidenceEntries policy observations))).map
        EgressFqdnDestinationLease.key).Nodup :=
    (retainedLeases_ascending _).imp fun ordered => ordered.ne
  generalize retainedLeases policy nowUnixSeconds
    (groupEntries (evidenceEntries policy observations)) = retained at members keys
  have distinct : (retained.map fun lease => ofLex lease.key).Nodup := by
    have mapped := keys.map ofLex.injective
    rwa [map_map] at mapped
  constructor
  · intro bounded destinations live
    refine le_trans ?_ bounded
    have listed : destinations ⊆ (retained.map fun lease => ofLex lease.key).toFinset := by
      intro destination member
      rw [mem_toFinset, mem_map]
      exact ⟨_, (members _).mpr ⟨destination.1, destination.2, live destination member, rfl⟩, rfl⟩
    have counted := (Finset.card_le_card listed).trans (toFinset_card_le _)
    rwa [length_map] at counted
  · intro bounded
    have fits := bounded (retained.map fun lease => ofLex lease.key).toFinset ?_
    · rwa [toFinset_card_of_nodup distinct, length_map] at fits
    · intro destination member
      rw [mem_toFinset, mem_map] at member
      obtain ⟨lease, listed, rfl⟩ := member
      obtain ⟨name, address, live, rfl⟩ := (members lease).mp listed
      exact live

omit timely drains in
/-- Admissible observations are those whose leases can be compiled. -/
theorem admissible_iff_groups : Admissible policy observations nowUnixSeconds ↔
      ((∀ observation ∈ observations, observation.observedAtUnixSeconds ≤
          saturatingAdd nowUnixSeconds maxEgressFqdnFutureSkewSeconds) ∧
        ∀ observation ∈ observations, Timely policy observation) ∧
      DrainsTimely policy (groupEntries (evidenceEntries policy observations)) ∧
      (retainedLeases policy nowUnixSeconds
        (groupEntries (evidenceEntries policy observations))).length ≤
          policy.maxAddresses.toNat := by
  rw [admissible_iff, drainsTimely_groups_iff required, and_assoc]
  refine and_congr_right fun _ => and_congr_right fun timely => ?_
  simp only [← drainTimely_evidenceFor_iff required timely]
  refine and_congr_right fun drains => ?_
  exact (length_retainedLeases_le_iff required timely drains).symm

end Leases

variable {Digest : Type} [DecidableEq Digest] {snapshotDigest : FqdnSnapshotMaterial → Digest}

section Snapshots

theorem verifyLease_eq_error {lease : EgressFqdnDestinationLease}
    (named : normalizeDnsName lease.queryName = .ok lease.queryName)
    (timely : (quorumExpiry policy lease.provenance).toNat +
      policy.establishedFlowGraceSeconds.toNat < 2 ^ 64)
    (failed : verifyLease policy lease nowUnixSeconds = .error error) :
    ∃ reason, error = .invalidSnapshot reason := by
  simp only [verifyLease, named, ok_bind, bind_eq_error, failIf_eq_error, eq_ok_iffs] at failed
  rcases failed with ⟨-, rfl⟩ | ⟨-, ⟨-, rfl⟩ | ⟨-, ⟨-, rfl⟩ | ⟨-, replayed | ⟨_, -, rest⟩⟩⟩⟩
  · exact ⟨_, rfl⟩
  · exact ⟨_, rfl⟩
  · exact ⟨_, rfl⟩
  · obtain ⟨_, -, _, evidenceFailed⟩ := exists_foldlM_eq_error replayed
    rcases bind_eq_error.mp evidenceFailed with invalid | ⟨_, -, returned⟩
    · exact ⟨_, (failIf_eq_error.mp invalid).2⟩
    · cases returned
  · rcases rest with overflow | ⟨_, -, -, rfl⟩
    · have overruns := (elim_checkedAdd_eq_error overflow).2
      rw [UInt32.toNat_toUInt64] at overruns
      omega
    · exact ⟨_, rfl⟩

variable {snapshot : EgressFqdnSnapshot Digest}

/-- Replay of leases with canonical names and bounded times fails as an invalid
snapshot. -/
theorem replayEgressFqdnSnapshot_eq_error
    (normalized : normalizePolicy snapshot.policy = .ok snapshot.policy)
    (leases : ∀ lease ∈ snapshot.leases, normalizeDnsName lease.queryName = .ok lease.queryName ∧
        (quorumExpiry snapshot.policy lease.provenance).toNat +
          snapshot.policy.establishedFlowGraceSeconds.toNat < 2 ^ 64)
    (failed : replayEgressFqdnSnapshot snapshotDigest snapshot = .error error) :
    ∃ reason, error = .invalidSnapshot reason := by
  simp only [replayEgressFqdnSnapshot, normalized, ok_bind, bind_eq_error, failIf_eq_error,
    eq_ok_iffs] at failed
  rcases failed with ⟨-, rfl⟩ | ⟨-, ⟨-, rfl⟩ | ⟨-, ⟨-, rfl⟩ | ⟨-, ⟨-, rfl⟩ | ⟨-,
    leaseFailed | ⟨_, -, -, rfl⟩⟩⟩⟩⟩
  · exact ⟨_, rfl⟩
  · exact ⟨_, rfl⟩
  · exact ⟨_, rfl⟩
  · exact ⟨_, rfl⟩
  · obtain ⟨lease, member, failed⟩ := exists_forM_eq_error leaseFailed
    obtain ⟨named, timely⟩ := leases lease member
    rcases bind_eq_error.mp failed with invalid | ⟨_, -, expired⟩
    · exact verifyLease_eq_error named timely invalid
    · exact ⟨_, (failIf_eq_error.mp expired).2⟩
  · exact ⟨_, rfl⟩

theorem verifyEgressFqdnSnapshot_eq_error :
    verifyEgressFqdnSnapshot snapshotDigest snapshot = .error error ↔
      replayEgressFqdnSnapshot snapshotDigest snapshot = .error error := by
  rw [verifyEgressFqdnSnapshot]
  split
  next other failed => simp [failed]
  next replayed => simp [replayed]

/-- Compilation fails as the first of its stages that fails. -/
theorem compileEgressFqdnSnapshot_eq_error {canonical : EgressFqdnPolicy}
    (normalized : normalizePolicy policy = .ok canonical)
    (bounded : observations.length ≤ maxEgressFqdnObservations) :
    compileEgressFqdnSnapshot snapshotDigest policy observations nowUnixSeconds = .error error ↔
      collectObservations canonical observations nowUnixSeconds = .error error ∨ ∃ grouped report,
        collectObservations canonical observations nowUnixSeconds = .ok (grouped, report) ∧
        (compileLeases canonical grouped nowUnixSeconds report = .error error ∨
          (DrainsTimely canonical grouped ∧
            (retainedLeases canonical nowUnixSeconds grouped).length ≤
              canonical.maxAddresses.toNat) ∧ replayEgressFqdnSnapshot snapshotDigest
            (evidenceSnapshot snapshotDigest canonical grouped nowUnixSeconds) = .error error) := by
  have small : decide (maxEgressFqdnObservations < observations.length) = false :=
    decide_eq_false (not_lt.mpr bounded)
  simp only [compileEgressFqdnSnapshot, normalized, ok_bind, small, bind_eq_error, failIf_eq_error,
    eq_ok_iffs, Bool.false_eq_true, false_and, false_or, true_and, Prod.exists, compileLeases_eq_ok,
    verifyEgressFqdnSnapshot_eq_error, pure, Except.pure, reduceCtorEq, and_false, exists_false,
    or_false]
  refine or_congr_right (exists₂_congr fun grouped report => and_congr_right fun _ =>
    or_congr_right ?_)
  constructor
  · rintro ⟨_, _, ⟨leased, rfl, rfl⟩, failed⟩
    exact ⟨leased, failed⟩
  · rintro ⟨leased, failed⟩
    exact ⟨_, _, ⟨leased, rfl, rfl⟩, failed⟩

end Snapshots

/-! ## The theorem -/

section Ledger

variable {canonical : EgressFqdnPolicy} (normalized : normalizePolicy canonical = .ok canonical)
  (valid : ∀ observation ∈ observations, observation.Canonical)
  (admissible : Admissible canonical observations nowUnixSeconds)

include normalized valid admissible

/-- The snapshot of admissible observations is replayed when no observation lists a live
address with two lifetimes. -/
theorem replay_evidenceSnapshot_iff (distinct : (observations.map key).Nodup) :
    replayEgressFqdnSnapshot snapshotDigest (evidenceSnapshot snapshotDigest canonical
        (groupEntries (evidenceEntries canonical observations)) nowUnixSeconds) = .ok ⟨⟩ ↔
      SingleAnswers canonical observations nowUnixSeconds := by
  obtain ⟨required, positive⟩ := normalizePolicy_positive normalized
  obtain ⟨⟨present, timely⟩, groups, fits⟩ := (admissible_iff_groups required).mp admissible
  have drains := (drainsTimely_groups_iff required).mp groups
  have replays (name : String) (address : IpAddr)
      (live : Live canonical observations nowUnixSeconds name address) :
      (groupLease canonical (toLex (name, address),
          evidenceFor canonical observations name address)).Replays canonical
            nowUnixSeconds ↔
        ∀ observation ∈ observations,
          (observation.answersFor canonical name address).length ≤ 1 := by
    obtain ⟨quorum, -⟩ := (live_iff required timely (drains name address)).mpr live
    exact replays_iff positive valid present timely distinct (drains name address)
      (reports_ne_nil_of_live required live) quorum
  rw [replayEgressFqdnSnapshot_eq_ok]
  constructor
  · rintro ⟨-, -, -, -, leases, -⟩ name address live
    exact (replays name address live).mp (leases _ ((mem_retainedLeases_reports required timely
      drains).mpr ⟨name, address, live, rfl⟩)).1
  · intro single
    refine ⟨⟨rfl, rfl⟩, normalized, fits, retainedLeases_ascending _, fun lease member => ?_, rfl⟩
    obtain ⟨name, address, live, rfl⟩ :=
      (mem_retainedLeases_reports required timely drains).mp member
    exact ⟨(replays name address live).mpr (single name address live),
      ((live_iff required timely (drains name address)).mpr live).2⟩

/-- A lease on ledger observations can be replayed as far as its name and its times. -/
theorem retained_named_timely {lease : EgressFqdnDestinationLease}
    (member : lease ∈ retainedLeases canonical nowUnixSeconds
      (groupEntries (evidenceEntries canonical observations))) :
    normalizeDnsName lease.queryName = .ok lease.queryName ∧
      (quorumExpiry canonical lease.provenance).toNat +
        canonical.establishedFlowGraceSeconds.toNat < 2 ^ 64 := by
  obtain ⟨required, -⟩ := normalizePolicy_positive normalized
  obtain ⟨⟨-, timely⟩, groups, -⟩ := (admissible_iff_groups required).mp admissible
  have drains := (drainsTimely_groups_iff required).mp groups
  obtain ⟨name, address, live, rfl⟩ := (mem_retainedLeases_reports required timely drains).mp member
  constructor
  · obtain ⟨report, listed⟩ := exists_mem_of_ne_nil _ (reports_ne_nil_of_live required live)
    obtain ⟨observed, counted⟩ := mem_reports.mp listed
    obtain ⟨⟨-, rfl⟩, -⟩ := mem_answersFor.mp counted
    exact (valid report.1 observed).named.normalizeDnsName_eq
  · rw [groupLease, quorumExpiry_sort]
    exact drains name address ((live_iff required timely (drains name address)).mpr live).1

omit normalized valid admissible

/-- Whatever failures are expected, as long as they include those for times and numbers of
addresses and no invalid snapshot: canonical observations without repeats fail as expected
unless one of them lists a live address with two lifetimes. -/
theorem forall_failure_expected_iff {expected : EgressFqdnError → Prop}
    (overflowExpected : expected .timestampOverflow)
    (exceededExpected : ∀ actual limit, expected (.capacityExceeded actual limit))
    (futureExpected : ∀ error, RejectsFuture observations nowUnixSeconds error → expected error)
    (invalidUnexpected : ∀ reason, ¬expected (.invalidSnapshot reason))
    (normalized : normalizePolicy policy = .ok canonical)
    (bounded : observations.length ≤ maxEgressFqdnObservations)
    (valid : ∀ observation ∈ observations, observation.Canonical)
    (distinct : (observations.map key).Nodup) :
    (∀ error, compileEgressFqdnSnapshot snapshotDigest policy observations nowUnixSeconds =
        .error error → expected error) ↔ (Admissible canonical observations nowUnixSeconds →
        SingleAnswers canonical observations nowUnixSeconds) := by
  obtain ⟨required, positive⟩ := normalizePolicy_positive normalized
  have again := normalizePolicy_again normalized
  have collects {grouped : FqdnEvidenceGroups} {report : EgressFqdnCompilationReport} :
      collectObservations canonical observations nowUnixSeconds = .ok (grouped, report) ↔ _ :=
    collectObservations_canonical_eq_ok valid distinct positive
  simp only [compileEgressFqdnSnapshot_eq_error normalized bounded]
  constructor
  · intro allExpected admissible
    obtain ⟨inTime, leased⟩ := (admissible_iff_groups required).mp admissible
    cases replayed : replayEgressFqdnSnapshot snapshotDigest (evidenceSnapshot snapshotDigest
        canonical (groupEntries (evidenceEntries canonical observations)) nowUnixSeconds) with
    | ok result =>
      exact (replay_evidenceSnapshot_iff again valid admissible distinct).mp replayed
    | error error =>
      have failure := allExpected error
        (.inr ⟨_, _, collects.mpr ⟨inTime, rfl, rfl⟩, .inr ⟨leased, replayed⟩⟩)
      obtain ⟨reason, rfl⟩ : ∃ reason, error = .invalidSnapshot reason := by
        refine replayEgressFqdnSnapshot_eq_error ?_ (fun lease member => ?_) replayed
        · exact again
        · exact retained_named_timely again valid admissible member
      exact absurd failure (invalidUnexpected reason)
  · rintro single error (collectFailed | ⟨_, _, collected, leaseFailed | ⟨leased, replayFailed⟩⟩)
    · rcases collectObservations_eq_error valid distinct collectFailed with rfl | future
      · exact overflowExpected
      · exact futureExpected error future
    · rcases compileLeases_eq_error leaseFailed with rfl | ⟨actual, rfl⟩
      · exact overflowExpected
      · exact exceededExpected actual _
    · obtain ⟨inTime, rfl, -⟩ := collects.mp collected
      have admissible := (admissible_iff_groups required).mpr ⟨inTime, leased⟩
      rw [(replay_evidenceSnapshot_iff again valid admissible distinct).mpr
        (single admissible)] at replayFailed
      cases replayFailed

/-- An observation that is too far in the future now was adopted at a later time. -/
theorem exists_later_call {ledger : EgressFqdnObservationLedger}
    {calls : List EgressFqdnObservationCall} {view : String} (normal : ledger.Normal calls)
    (member : observation ∈ ledger.observationsForView view)
    (future : saturatingAdd nowUnixSeconds maxEgressFqdnFutureSkewSeconds <
      observation.observedAtUnixSeconds) :
    ∃ call ∈ calls, nowUnixSeconds < call.nowUnixSeconds := by
  obtain ⟨call, made, observed⟩ :=
    EgressFqdnObservationLedger.observed_of_mem_observationsForView normal observation member
  refine ⟨call, made, ?_⟩
  have later := future.trans_le observed
  rw [lt_iff_toNat_lt, toNat_saturatingAdd, toNat_saturatingAdd] at later
  rw [lt_iff_toNat_lt]
  omega

/-- Compilation of the observations that a ledger has for a view fails only as a caller has
to expect, exactly when no observation lists a live address with two lifetimes (or a
time or the number of addresses stands in the way before that matters). -/
theorem compileEgressFqdnSnapshot_ledger_iff (snapshotDigest : FqdnSnapshotMaterial → Digest)
    {policy : EgressFqdnPolicy} (normalized : normalizePolicy policy = .ok canonical)
    {calls : List EgressFqdnObservationCall} {ledger : EgressFqdnObservationLedger}
    (ran : EgressFqdnObservationLedger.run {} calls = .ok ledger) (view : String)
    (bounded : (ledger.observationsForView view).length ≤ maxEgressFqdnObservations)
    (nowUnixSeconds : UInt64) :
    (∀ error, compileEgressFqdnSnapshot snapshotDigest policy (ledger.observationsForView view)
        nowUnixSeconds = .error error → ExpectedFailure calls nowUnixSeconds error) ↔
      (Admissible canonical (ledger.observationsForView view) nowUnixSeconds →
        SingleAnswers canonical (ledger.observationsForView view) nowUnixSeconds) := by
  have normal := EgressFqdnObservationLedger.normal_of_run ran
  refine forall_failure_expected_iff trivial (fun _ _ => trivial) ?_ (fun _ => not_false)
    normalized bounded
    (EgressFqdnObservationLedger.canonical_of_mem_observationsForView normal)
    (EgressFqdnObservationLedger.nodup_keys_observationsForView normal view)
  rintro error ⟨observation, member, future, rfl⟩
  exact ⟨rfl, exists_later_call normal member future⟩

end Ledger

/-- A call by the agent of a node, with the lifetimes that it reports for one address. -/
def apiCall (node : String) (ttls : List UInt32) : EgressFqdnObservationCall where
  principal := ⟨"unf-system", egressAgentServiceAccount, "agent", "pod", node, node,
    egressAgentTokenAudience⟩
  batch := {
    schemaVersion := egressFqdnObservationBatchSchemaVersion
    observerNodeUid := node
    sourceEpoch := 1
    batchRevision := ⟨1⟩
    view := "cluster-default"
    collectedAtUnixSeconds := 1000
    observations := [apiObservation node ttls] }
  nowUnixSeconds := 1000

/-- Runs calls and then compiles what the ledger has. -/
def compileAfter (calls : List EgressFqdnObservationCall) :
    Option (FqdnResult (EgressFqdnCompilation Unit)) :=
  (EgressFqdnObservationLedger.run {} calls).toOption.map fun ledger =>
    compileEgressFqdnSnapshot (fun _ => ()) apiPolicy
      (ledger.observationsForView "cluster-default") 1000

theorem compileEgressFqdnSnapshot_ledger_iff_api :
    ∃ canonical ledger, normalizePolicy apiPolicy = .ok canonical ∧
      EgressFqdnObservationLedger.run {} [apiCall "node-a" [60], apiCall "node-b" [120]] =
        .ok ledger ∧ ((∀ error, compileEgressFqdnSnapshot (fun _ => ()) apiPolicy
          (ledger.observationsForView "cluster-default") 1000 = .error error →
            ExpectedFailure [apiCall "node-a" [60], apiCall "node-b" [120]] 1000 error) ↔
        (Admissible canonical (ledger.observationsForView "cluster-default") 1000 →
          SingleAnswers canonical (ledger.observationsForView "cluster-default") 1000)) := by
  have normalizes : normalizePolicy apiPolicy = .ok apiPolicy := by decide +kernel
  have small : ((EgressFqdnObservationLedger.run {}
      [apiCall "node-a" [60], apiCall "node-b" [120]]).toOption.any fun ledger => decide
        ((ledger.observationsForView "cluster-default").length ≤
          maxEgressFqdnObservations)) = true := by decide +kernel
  cases ran : EgressFqdnObservationLedger.run {}
      [apiCall "node-a" [60], apiCall "node-b" [120]] with
  | error error =>
    rw [ran] at small
    cases small
  | ok ledger =>
    rw [ran] at small
    exact ⟨apiPolicy, ledger, normalizes, rfl, compileEgressFqdnSnapshot_ledger_iff
      (fun _ => ()) normalizes ran "cluster-default" (of_decide_eq_true small) 1000⟩

/-- Two agents agree on an address. The batch of a third, which lists the address with two
lifetimes, is adopted as well, and no snapshot can be compiled any more. -/
theorem compile_fails_on_own_evidence :
    (∃ compilation, compileAfter [apiCall "node-a" [60], apiCall "node-b" [120]] =
      some (.ok compilation)) ∧
    compileAfter [apiCall "node-a" [60], apiCall "node-b" [120], apiCall "node-c" [60, 120]] =
      some (.error (.invalidSnapshot "provenance replay failed")) ∧
    normalizePolicy apiPolicy = .ok apiPolicy ∧
    ¬ExpectedFailure [apiCall "node-a" [60], apiCall "node-b" [120],
      apiCall "node-c" [60, 120]] 1000 (.invalidSnapshot "provenance replay failed") := by
  refine ⟨?_, by decide +kernel, by decide +kernel, not_false⟩
  have compiles : ((compileAfter [apiCall "node-a" [60], apiCall "node-b" [120]]).any
      Except.isOk) = true := by decide +kernel
  cases result : compileAfter [apiCall "node-a" [60], apiCall "node-b" [120]] with
  | none =>
    rw [result] at compiles
    cases compiles
  | some outcome =>
    rw [result] at compiles
    cases outcome with
    | error error => cases compiles
    | ok compilation => exact ⟨compilation, rfl⟩

end Unf.Egress
