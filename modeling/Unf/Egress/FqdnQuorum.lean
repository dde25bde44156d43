import Unf.Egress.FqdnReplay

/-!
# Leases follow the quorum

A destination is open to new flows as long as a quorum of observers supports it, and to
established ones for the grace period after that, whatever the order in which the
observations arrived.
-/

namespace Unf.Egress

open Std (ExtTreeMap)
open Unf.Lib List EgressFqdnDecision EgressFqdnDestinationLease UInt64

/-! ## Support by observations -/

/-- An observation supports an address under a name at a time: it comes from the view and
a resolver of the policy, and has the address with a lifetime that reaches past it. -/
structure EgressDnsObservation.Supports (observation : EgressDnsObservation)
    (policy : EgressFqdnPolicy) (name : String) (address : IpAddr) (time : UInt64) :
    Prop where
  view : observation.source.view = policy.view
  resolver : policy.resolverAddresses = [] ∨
    observation.source.resolver ∈ policy.resolverAddresses
  named : normalizeDnsName observation.queryName = .ok name
  answered : ∃ answer ∈ observation.answers, answer.address = address ∧
    0 < answer.ttlSeconds ∧ time.toNat < observation.observedAtUnixSeconds.toNat +
      (min answer.ttlSeconds policy.maxTtlSeconds).toNat

/-- As many distinct observers as the policy requires support an address. -/
def SupportedByQuorum (policy : EgressFqdnPolicy) (observations : List EgressDnsObservation)
    (name : String) (address : IpAddr) (time : UInt64) : Prop :=
  ∃ observers : Finset String, policy.requiredObservers.toNat ≤ observers.card ∧
    ∀ observer ∈ observers, ∃ observation ∈ observations,
      observation.source.observerUid = observer ∧
        observation.Supports policy name address time

/-- A name that the policy selects, and that it names or lists for discovery. -/
def EgressFqdnPolicy.Authorizes (policy : EgressFqdnPolicy) (name : String) : Prop :=
  (∃ pattern ∈ policy.patterns, pattern.matches name = true) ∧
    (.exact name ∈ policy.patterns ∨ name ∈ policy.discoveryNames)

variable {Digest : Type} [DecidableEq Digest] {snapshotDigest : FqdnSnapshotMaterial → Digest}
  {policy : EgressFqdnPolicy} {observations : List EgressDnsObservation}
  {nowUnixSeconds time : UInt64} {address : IpAddr}

section Policy

variable {observation : EgressDnsObservation}

theorem accepts_iff : policy.accepts observation = true ↔
      observation.source.view = policy.view ∧ (policy.resolverAddresses = [] ∨
        observation.source.resolver ∈ policy.resolverAddresses) ∧
      policy.Authorizes observation.queryName := by
  simp [EgressFqdnPolicy.accepts, EgressFqdnPolicy.admitsResolver,
    EgressFqdnPolicy.Authorizes, observationNameIsAuthorized, and_assoc]

theorem mem_observationEntries {key : FqdnLeaseKey} {evidence : EgressFqdnLeaseProvenance} :
    (key, evidence) ∈ observationEntries policy observation ↔
      policy.accepts observation = true ∧ ∃ answer ∈ observation.answers,
        answer.ttlSeconds ≠ 0 ∧ answerEntry policy observation answer = (key, evidence) := by
  rw [observationEntries]
  split
  next accepted => simp [accepted, EgressDnsObservation.positiveAnswers, and_assoc]
  next rejected => simp [rejected]

theorem ttl_capped (policy : EgressFqdnPolicy) (answer : EgressDnsAnswer) :
    policy.ttl (answer.capped policy.maxTtlSeconds) = policy.ttl answer := by
  simp [EgressFqdnPolicy.ttl, EgressDnsAnswer.capped]

variable (positive : policy.maxTtlSeconds ≠ 0)

include positive

theorem capped_ttlSeconds_eq_zero_iff (answer : EgressDnsAnswer) :
    (answer.capped policy.maxTtlSeconds).ttlSeconds = 0 ↔ answer.ttlSeconds = 0 := by
  rw [EgressDnsAnswer.capped]
  rcases min_choice answer.ttlSeconds policy.maxTtlSeconds with same | same
  · rw [same]
  · simp only [same, positive, false_iff]
    intro zero
    rw [zero] at same
    exact positive (le_antisymm (min_eq_right_iff.mp same) UInt32.zero_le)

variable {provenance : List EgressFqdnLeaseProvenance} {name observer : String}

/-- The observation with normalized names and the raw one support the same addresses. -/
theorem exists_entry_iff_supports {raw : EgressDnsObservation}
    (normalized : normalizeObservation raw policy.maxTtlSeconds nowUnixSeconds = .ok observation)
    (timely : Timely policy observation) :
    (∃ evidence, (toLex (name, address), evidence) ∈ observationEntries policy observation ∧
        evidence.source.observerUid = observer ∧ time < evidence.expiresAtUnixSeconds) ↔
      policy.Authorizes name ∧ raw.source.observerUid = observer ∧
        raw.Supports policy name address time := by
  obtain ⟨-, queryName, chain, named, -, -, -, rfl⟩ := normalizeObservation_eq_ok.mp normalized
  have zeroTtl (answer : EgressDnsAnswer) :
      (answer.capped policy.maxTtlSeconds).ttlSeconds ≠ 0 ↔ 0 < answer.ttlSeconds := by
    rw [UInt32.pos_iff_ne_zero, ne_eq, capped_ttlSeconds_eq_zero_iff positive]
  have expires (answer : EgressDnsAnswer) (member : answer ∈ raw.answers)
      (lasting : 0 < answer.ttlSeconds)
      (accepted : policy.accepts (raw.normalized policy.maxTtlSeconds queryName chain) = true) :
      (raw.observedAtUnixSeconds + (policy.ttl answer).toUInt64).toNat =
        raw.observedAtUnixSeconds.toNat + (policy.ttl answer).toNat := by
    have fits := timely accepted (answer.capped policy.maxTtlSeconds) (mem_filter.mpr
      ⟨mem_map_of_mem (mem_sort.mpr member), by simpa using (zeroTtl answer).mpr lasting⟩)
    rw [ttl_capped] at fits
    exact Nat.mod_eq_of_lt fits
  constructor
  · rintro ⟨evidence, member, rfl, reaches⟩
    obtain ⟨accepted, _, listed, lasting, entry⟩ := mem_observationEntries.mp member
    obtain ⟨answer, answerMember, rfl⟩ := mem_map.mp listed
    obtain ⟨view, resolver, authorized⟩ := accepts_iff.mp accepted
    obtain ⟨sameKey, rfl⟩ := Prod.mk.inj entry
    obtain ⟨rfl, rfl⟩ := Prod.mk.inj (toLex.injective sameKey)
    have positiveTtl := (zeroTtl answer).mp lasting
    refine ⟨authorized, rfl, view, resolver, named, answer, mem_sort.mp answerMember, rfl,
      positiveTtl, ?_⟩
    rw [lt_iff_toNat_lt, ttl_capped] at reaches
    exact reaches.trans_eq (expires answer (mem_sort.mp answerMember) positiveTtl accepted)
  · rintro ⟨authorized, rfl, view, resolver, sameName, answer, answerMember, rfl, positiveTtl,
      reaches⟩
    obtain rfl := Except.ok.inj (named.symm.trans sameName)
    have accepted : policy.accepts (raw.normalized policy.maxTtlSeconds queryName chain) =
        true := accepts_iff.mpr ⟨view, resolver, authorized⟩
    refine ⟨_, mem_observationEntries.mpr ⟨accepted, _, mem_map_of_mem
      (mem_sort.mpr answerMember), (zeroTtl answer).mpr positiveTtl, rfl⟩, rfl, ?_⟩
    change time.toNat < (raw.observedAtUnixSeconds +
      (policy.ttl (answer.capped policy.maxTtlSeconds)).toUInt64).toNat
    rw [ttl_capped, expires answer answerMember positiveTtl accepted]
    exact reaches

/-- The evidence in a group that lasts past a time, observer by observer. -/
theorem exists_evidence_iff_supports {observations normalized : List EgressDnsObservation}
    (computed : observations.mapM (fun observation => normalizeObservation observation
      policy.maxTtlSeconds nowUnixSeconds) = .ok normalized)
    (timely : ∀ observation ∈ normalized, Timely policy observation) :
    (∃ evidence ∈ valuesAt (evidenceEntries policy normalized) (toLex (name, address)),
        evidence.source.observerUid = observer ∧
          decide (time < evidence.expiresAtUnixSeconds) = true) ↔
      ∃ observation ∈ observations, policy.Authorizes name ∧
        observation.source.observerUid = observer ∧
          observation.Supports policy name address time := by
  simp only [mem_valuesAt, evidenceEntries, mem_flatMap, decide_eq_true_eq]
  constructor
  · rintro ⟨evidence, ⟨observation, member, listed⟩, sameObserver, reaches⟩
    obtain ⟨raw, rawMember, normalizes⟩ := exists_mem_of_mem_mapM computed member
    exact ⟨raw, rawMember, (exists_entry_iff_supports positive normalizes
      (timely observation member)).mp ⟨evidence, listed, sameObserver, reaches⟩⟩
  · rintro ⟨raw, rawMember, supports⟩
    obtain ⟨observation, member, normalizes⟩ := exists_mem_mapM_of_mem computed rawMember
    obtain ⟨evidence, listed, sameObserver, reaches⟩ := (exists_entry_iff_supports positive
      normalizes (timely observation member)).mpr supports
    exact ⟨evidence, ⟨observation, member, listed⟩, sameObserver, reaches⟩

/-! ## Order statistics of the evidence -/

omit positive

/-- The quorum lasts past a time when enough pieces of evidence do. -/
theorem lt_quorumExpiry_iff (required : policy.requiredObservers ≠ 0) :
    time < quorumExpiry policy provenance ↔ policy.requiredObservers.toNat ≤
        (provenance.filter fun evidence => time < evidence.expiresAtUnixSeconds).length := by
  have positive : policy.requiredObservers.toNat ≠ 0 := by
    intro zero
    exact required (UInt16.toNat_inj.mp zero)
  have ranked : time < quorumExpiry policy provenance ↔ ∃ expiry,
      (sortDescending (provenance.map EgressFqdnLeaseProvenance.expiresAtUnixSeconds))[
        policy.requiredObservers.toNat - 1]? = some expiry ∧ time < expiry := by
    rw [quorumExpiry, getD_eq_getElem?_getD]
    cases (sortDescending (provenance.map EgressFqdnLeaseProvenance.expiresAtUnixSeconds))[
      policy.requiredObservers.toNat - 1]? <;> simp
  rw [ranked, lt_sortDescending_iff, filter_map, length_map]
  exact ⟨fun below => by simp only [Function.comp_def] at below; omega,
    fun enough => by simp only [Function.comp_def]; omega⟩

/-- Among evidence from distinct observers, the quorum lasts past a time when so many
observers support it. -/
theorem lt_quorumExpiry_iff_observers (required : policy.requiredObservers ≠ 0)
    (distinct : (provenance.map fun evidence => evidence.source.observerUid).Nodup) :
    time < quorumExpiry policy provenance ↔ ∃ observers : Finset String,
      policy.requiredObservers.toNat ≤ observers.card ∧ ∀ observer ∈ observers,
        ∃ evidence ∈ provenance, evidence.source.observerUid = observer ∧
          decide (time < evidence.expiresAtUnixSeconds) = true := by
  rw [lt_quorumExpiry_iff required]
  constructor
  · intro enough
    obtain ⟨observers, sameCard, supported⟩ := exists_owners_of_distinct distinct
      fun evidence => decide (time < evidence.expiresAtUnixSeconds)
    exact ⟨observers, sameCard.symm ▸ enough, supported⟩
  · rintro ⟨observers, enough, supported⟩
    exact enough.trans (card_le_length_filter supported)

end Policy

/-! ## Decisions -/

section Decisions

def EgressFqdnDecision.allows : EgressFqdnDecision Digest → Bool
  | .allowActive .. => true
  | .allowEstablishedDrain .. => true
  | .deny _ => false

theorem newFlows_le_of_rank_le {left right : EgressFqdnDestinationLease}
    (ranked : left.rank ≤ right.rank) :
    left.newFlowsUntilUnixSeconds ≤ right.newFlowsUntilUnixSeconds :=
  Prod.Lex.monotone_fst left.rank right.rank ranked

theorem EgressFqdnDestinationLease.Replays.toNat_establishedFlows
    {lease : EgressFqdnDestinationLease} {policy : EgressFqdnPolicy}
    {compiledAtUnixSeconds : UInt64} (replays : lease.Replays policy compiledAtUnixSeconds) :
    lease.establishedFlowsUntilUnixSeconds.toNat = lease.newFlowsUntilUnixSeconds.toNat +
      policy.establishedFlowGraceSeconds.toNat := by
  rw [replays.establishedFlows, replays.newFlows, drainExpiry, UInt64.toNat_add,
    UInt32.toNat_toUInt64, Nat.mod_eq_of_lt replays.timely]

variable (verified : VerifiedEgressFqdnSnapshot snapshotDigest)

theorem VerifiedEgressFqdnSnapshot.replays :
    ∀ lease ∈ verified.snapshot.leases, lease.Replays verified.snapshot.policy
      verified.snapshot.compiledAtUnixSeconds :=
  fun lease member =>
    ((replayEgressFqdnSnapshot_eq_ok.mp verified.replayed).2.2.2.2.1 lease member).1

/-- New flows are allowed while some lease on the address is open to them. -/
theorem decide_new_allows_iff :
    (decideEgressFqdnDestination verified address .new time).allows = true ↔
      ∃ lease ∈ verified.snapshot.leases, lease.address = address ∧
        time < lease.newFlowsUntilUnixSeconds := by
  have upward (left : EgressFqdnDestinationLease) (_ : left ∈ verified.snapshot.leases.filter
      fun lease => lease.address == address) (right : EgressFqdnDestinationLease)
      (_ : right ∈ verified.snapshot.leases.filter fun lease => lease.address == address)
      (ranked : left.rank ≤ right.rank) (reaches : time < left.newFlowsUntilUnixSeconds) :
      time < right.newFlowsUntilUnixSeconds :=
    reaches.trans_le (newFlows_le_of_rank_le ranked)
  have best := exists_mem_iff_maxByKey rank
    (fun lease => time < lease.newFlowsUntilUnixSeconds) upward
  simp only [mem_filter, beq_iff_eq, and_assoc] at best
  rw [best, decideEgressFqdnDestination]
  cases maxByKey rank (verified.snapshot.leases.filter fun lease => lease.address == address) with
  | none => simp [allows]
  | some lease =>
    by_cases active : time < lease.newFlowsUntilUnixSeconds <;>
      simp [active, allows]

/-- Established flows are allowed while some lease on the address is open to them. -/
theorem decide_established_allows_iff :
    (decideEgressFqdnDestination verified address .established time).allows = true ↔
      ∃ lease ∈ verified.snapshot.leases, lease.address = address ∧
        time < lease.establishedFlowsUntilUnixSeconds := by
  have upward (left : EgressFqdnDestinationLease) (leftMember : left ∈
      verified.snapshot.leases.filter fun lease => lease.address == address)
      (right : EgressFqdnDestinationLease) (rightMember : right ∈
        verified.snapshot.leases.filter fun lease => lease.address == address)
      (ranked : left.rank ≤ right.rank)
      (reaches : time < left.establishedFlowsUntilUnixSeconds) :
      time < right.establishedFlowsUntilUnixSeconds := by
    have leftSum := (verified.replays left (mem_filter.mp leftMember).1).toNat_establishedFlows
    have rightSum := (verified.replays right (mem_filter.mp rightMember).1).toNat_establishedFlows
    have later := newFlows_le_of_rank_le ranked
    rw [le_iff_toNat_le] at later
    rw [lt_iff_toNat_lt] at reaches ⊢
    omega
  have best := exists_mem_iff_maxByKey rank
    (fun lease => time < lease.establishedFlowsUntilUnixSeconds) upward
  simp only [mem_filter, beq_iff_eq, and_assoc] at best
  rw [best, decideEgressFqdnDestination]
  cases found : maxByKey rank
      (verified.snapshot.leases.filter fun lease => lease.address == address) with
  | none => simp [allows]
  | some lease =>
    have member := (mem_filter.mp (maxByKey_spec found).1).1
    have sum := (verified.replays lease member).toNat_establishedFlows
    by_cases active : time < lease.newFlowsUntilUnixSeconds
    · have draining : time < lease.establishedFlowsUntilUnixSeconds := by
        rw [lt_iff_toNat_lt] at active ⊢
        omega
      simp [active, draining, allows]
    · by_cases draining : time < lease.establishedFlowsUntilUnixSeconds <;>
        simp [active, draining, allows]

end Decisions

/-! ## Leases and the quorum -/

section Leases

variable {normalized : List EgressDnsObservation}
  (required : policy.requiredObservers ≠ 0) (positive : policy.maxTtlSeconds ≠ 0)
  (computed : observations.mapM (fun observation => normalizeObservation observation
    policy.maxTtlSeconds nowUnixSeconds) = .ok normalized)
  (timely : ∀ observation ∈ normalized, Timely policy observation)

include required positive computed timely

/-- A name with the support of a quorum has a group whose quorum lasts as long. -/
theorem exists_group_of_supported {name : String} (authorized : policy.Authorizes name)
    (supported : SupportedByQuorum policy observations name address time) :
    ∃ provenance : List EgressFqdnLeaseProvenance,
      (groupEntries (evidenceEntries policy normalized))[toLex (name, address)]? =
        some provenance ∧ policy.HasQuorum provenance ∧ time < quorumExpiry policy provenance := by
  obtain ⟨observers, enough, supports⟩ := supported
  have evidenced (observer : String) (member : observer ∈ observers) :
      ∃ evidence ∈ valuesAt (evidenceEntries policy normalized) (toLex (name, address)),
        evidence.source.observerUid = observer ∧
          decide (time < evidence.expiresAtUnixSeconds) = true := by
    obtain ⟨observation, listed, sameObserver, supported⟩ := supports observer member
    exact (exists_evidence_iff_supports positive computed timely).mpr
      ⟨observation, listed, authorized, sameObserver, supported⟩
  have counted := enough.trans (card_le_length_filter evidenced)
  have bounded := counted.trans (length_filter_le _ _)
  have nonempty : valuesAt (evidenceEntries policy normalized) (toLex (name, address)) ≠ [] := by
    intro empty
    rw [empty, length_nil, Nat.le_zero] at bounded
    exact required (UInt16.toNat_inj.mp bounded)
  exact ⟨_, getElem?_groupEntries_eq_some_iff.mpr ⟨rfl, nonempty⟩, bounded,
    (lt_quorumExpiry_iff required).mpr counted⟩

variable {lease : EgressFqdnDestinationLease}

/-- A lease that is open to new flows has the support of a quorum. -/
theorem supported_of_lease (retained : lease ∈ retainedLeases policy nowUnixSeconds
      (groupEntries (evidenceEntries policy normalized)))
    (replays : lease.Replays policy nowUnixSeconds)
    (active : time < lease.newFlowsUntilUnixSeconds) : policy.Authorizes lease.queryName ∧
      SupportedByQuorum policy observations lease.queryName lease.address time := by
  obtain ⟨key, provenance, found, -, -, rfl⟩ := mem_retainedLeases.mp retained
  obtain ⟨rfl, -⟩ := getElem?_groupEntries_eq_some_iff.mp found
  have distinct := ((sort_perm _).map _).nodup_iff.mp replays.observers
  obtain ⟨observers, enough, supports⟩ :=
    (lt_quorumExpiry_iff_observers required distinct).mp active
  have supported (observer : String) (member : observer ∈ observers) :=
    (exists_evidence_iff_supports positive computed timely).mp (supports observer member)
  have present : observers.Nonempty := by
    rw [← Finset.card_pos]
    have some : policy.requiredObservers.toNat ≠ 0 := fun zero =>
      required (UInt16.toNat_inj.mp zero)
    omega
  obtain ⟨first, member⟩ := present
  obtain ⟨_, -, authorized, -⟩ := supported first member
  refine ⟨authorized, observers, enough, fun observer listed => ?_⟩
  obtain ⟨observation, observationMember, -, sameObserver, supports⟩ := supported observer listed
  exact ⟨observation, observationMember, sameObserver, supports⟩

omit positive computed timely in
/-- Evidence never expires at the beginning of time. -/
theorem EgressFqdnDestinationLease.Replays.newFlows_pos {compiledAtUnixSeconds : UInt64}
    (replays : lease.Replays policy compiledAtUnixSeconds) :
    0 < lease.newFlowsUntilUnixSeconds := by
  have later (evidence : EgressFqdnLeaseProvenance) (member : evidence ∈ lease.provenance) :
      decide (0 < evidence.expiresAtUnixSeconds) = true := by
    have valid := replays.evidence evidence member
    simp only [evidenceInvalid, eq_false_iffs, ne_eq, checkedAdd_eq_some_iff, UInt32.toNat_toUInt64]
      at valid
    have lasting : evidence.ttlSeconds.toNat ≠ 0 := fun zero =>
      valid.1.1.1.2 (UInt32.toNat_inj.mp zero)
    have sum := valid.2
    rw [decide_eq_true_eq, lt_iff_toNat_lt]
    change 0 < _
    omega
  rw [replays.newFlows, lt_quorumExpiry_iff required, filter_eq_self.mpr later]
  exact replays.quorum

end Leases

/-! ## The order of observations -/

section Reordered

/-- The groups with the evidence of each in ascending order. -/
def sortedGroups (grouped : FqdnEvidenceGroups) : FqdnEvidenceGroups :=
  grouped.map fun _ => sort

theorem toList_sortedGroups (grouped : FqdnEvidenceGroups) : (sortedGroups grouped).toList =
      grouped.toList.map fun group => (group.1, sort group.2) :=
  ExtTreeMap.toList_map

theorem hasQuorum_sort {provenance : List EgressFqdnLeaseProvenance} :
    policy.HasQuorum (sort provenance) ↔ policy.HasQuorum provenance := by
  rw [EgressFqdnPolicy.HasQuorum, EgressFqdnPolicy.HasQuorum, length_sort]

theorem quorumExpiry_sort (provenance : List EgressFqdnLeaseProvenance) :
    quorumExpiry policy (sort provenance) = quorumExpiry policy provenance :=
  quorumExpiry_eq_of_perm (sort_perm provenance)

theorem retainedLeases_sortedGroups (grouped : FqdnEvidenceGroups) :
    retainedLeases policy nowUnixSeconds (sortedGroups grouped) =
      retainedLeases policy nowUnixSeconds grouped := by
  rw [retainedLeases, toList_sortedGroups, filterMap_map]
  congr 1
  funext group
  apply Option.ext
  intro lease
  simp only [Function.comp_def, retainedLease_eq_some_iff, hasQuorum_sort, drainExpiry,
    quorumExpiry_sort, groupLease, sort_sort]

theorem countP_sortedGroups (grouped : FqdnEvidenceGroups) :
    ((sortedGroups grouped).toList.countP fun group => ¬policy.HasQuorum group.2) =
      grouped.toList.countP fun group => ¬policy.HasQuorum group.2 := by
  rw [toList_sortedGroups, countP_map]
  simp only [Function.comp_def, hasQuorum_sort]

theorem drainsTimely_sortedGroups {grouped : FqdnEvidenceGroups} :
    DrainsTimely policy (sortedGroups grouped) ↔ DrainsTimely policy grouped := by
  have sortedTimely (provenance : List EgressFqdnLeaseProvenance) :
      DrainTimely policy (sort provenance) ↔ DrainTimely policy provenance := by
    rw [DrainTimely, DrainTimely, hasQuorum_sort, quorumExpiry_sort]
  have lookup (key : FqdnLeaseKey) : (sortedGroups grouped)[key]? = grouped[key]?.map sort :=
    ExtTreeMap.getElem?_map
  simp only [DrainsTimely, lookup, Option.map_eq_some_iff, forall_exists_index, and_imp,
    forall_apply_eq_imp_iff₂, sortedTimely]

theorem evidenceEntries_perm {left right : List EgressDnsObservation} (perm : left.Perm right) :
    (evidenceEntries policy left).Perm (evidenceEntries policy right) :=
  perm.flatMap_right _

variable {reordered : List EgressDnsObservation} {compilation : EgressFqdnCompilation Digest}

/-- Reordered observations compile to the same snapshot. -/
theorem compileEgressFqdnSnapshot_of_perm (perm : observations.Perm reordered)
    (compiled : compileEgressFqdnSnapshot snapshotDigest policy observations nowUnixSeconds =
      .ok compilation) : compileEgressFqdnSnapshot snapshotDigest policy reordered nowUnixSeconds =
      .ok compilation := by
  rw [compileEgressFqdnSnapshot_eq_ok] at compiled ⊢
  obtain ⟨canonical, _, _, normalizes, bounded, collected, ⟨timely, fits⟩, replayed, rfl⟩ :=
    compiled
  obtain ⟨normalized, computed, ⟨expiring, distinct⟩, rfl, rfl⟩ :=
    collectObservations_eq_ok.mp collected
  obtain ⟨renormalized, recomputed, same⟩ :=
    perm_comp_forall₂ perm.symm (mapM_eq_ok_iff.mp computed)
  have sameGroups : sortedGroups (groupEntries (evidenceEntries canonical renormalized)) =
      sortedGroups (groupEntries (evidenceEntries canonical normalized)) :=
    sort_groupEntries_eq_of_perm (evidenceEntries_perm same)
  have sameLeases : retainedLeases canonical nowUnixSeconds
      (groupEntries (evidenceEntries canonical renormalized)) =
        retainedLeases canonical nowUnixSeconds
          (groupEntries (evidenceEntries canonical normalized)) := by
    rw [← retainedLeases_sortedGroups, sameGroups, retainedLeases_sortedGroups]
  have sameSnapshot : evidenceSnapshot snapshotDigest canonical
      (groupEntries (evidenceEntries canonical renormalized)) nowUnixSeconds =
        evidenceSnapshot snapshotDigest canonical
          (groupEntries (evidenceEntries canonical normalized)) nowUnixSeconds := by
    rw [evidenceSnapshot, evidenceMaterial, sameLeases]
    rfl
  refine ⟨canonical, _, _, normalizes, perm.length_eq ▸ bounded,
    collectObservations_eq_ok.mpr ⟨renormalized, mapM_eq_ok_iff.mpr recomputed, ⟨?_, ?_⟩, rfl, rfl⟩,
    ⟨?_, sameLeases ▸ fits⟩, sameSnapshot ▸ replayed, ?_⟩
  · exact fun observation member => expiring observation (same.mem_iff.mp member)
  · exact (same.map _).nodup_iff.mpr distinct
  · rwa [← drainsTimely_sortedGroups, sameGroups, drainsTimely_sortedGroups]
  · rw [sameSnapshot, finishedReport, finishedReport, sameLeases,
      collectedReport_eq_of_perm same, ← countP_sortedGroups, ← sameGroups, countP_sortedGroups]

end Reordered

/-! ## The theorem -/

section Snapshots

variable {compilation : EgressFqdnCompilation Digest}

theorem toNat_drainExpiry {provenance : List EgressFqdnLeaseProvenance}
    (quorum : policy.HasQuorum provenance) (timely : DrainTimely policy provenance) :
    (drainExpiry policy provenance).toNat = (quorumExpiry policy provenance).toNat +
      policy.establishedFlowGraceSeconds.toNat := by
  rw [drainExpiry, UInt64.toNat_add, UInt32.toNat_toUInt64, Nat.mod_eq_of_lt (timely quorum)]

/-- A compiled snapshot allows a new flow to an address exactly while some authorized name
has the support of a quorum for it, and an established flow for the grace period after the
last such time. Any order of the observations gives the same snapshot. -/
theorem compileEgressFqdnSnapshot_quorum
    (compiled : compileEgressFqdnSnapshot snapshotDigest policy observations nowUnixSeconds =
      .ok compilation) : ∃ canonical verified, normalizePolicy policy = .ok canonical ∧
      verifyEgressFqdnSnapshot snapshotDigest compilation.snapshot = .ok verified ∧
      (∀ address time, nowUnixSeconds ≤ time →
        ((decideEgressFqdnDestination verified address .new time).allows = true ↔
          ∃ name, canonical.Authorizes name ∧
            SupportedByQuorum canonical observations name address time)) ∧
      (∀ address time, nowUnixSeconds ≤ time →
        ((decideEgressFqdnDestination verified address .established time).allows = true ↔
          ∃ name last, canonical.Authorizes name ∧
            SupportedByQuorum canonical observations name address last ∧
            time.toNat ≤ last.toNat + canonical.establishedFlowGraceSeconds.toNat)) ∧
      ∀ reordered, observations.Perm reordered →
        compileEgressFqdnSnapshot snapshotDigest policy reordered nowUnixSeconds =
          .ok compilation := by
  obtain ⟨canonical, _, _, normalizes, -, collected, ⟨drains, -⟩, replayed, rfl⟩ :=
    compileEgressFqdnSnapshot_eq_ok.mp compiled
  obtain ⟨normalized, computed, ⟨timely, -⟩, rfl, rfl⟩ :=
    collectObservations_eq_ok.mp collected
  obtain ⟨required, positive⟩ := normalizePolicy_positive normalizes
  refine ⟨canonical, ⟨_, replayed⟩, normalizes, verifyEgressFqdnSnapshot_eq_ok.mpr rfl,
    fun address time later => ?_, fun address time later => ?_,
    fun reordered perm => compileEgressFqdnSnapshot_of_perm perm compiled⟩
  · rw [decide_new_allows_iff]
    constructor
    · rintro ⟨lease, member, rfl, active⟩
      exact ⟨lease.queryName, supported_of_lease required positive computed timely member
        (VerifiedEgressFqdnSnapshot.replays ⟨_, replayed⟩ lease member) active⟩
    · rintro ⟨name, authorized, supported⟩
      obtain ⟨provenance, found, quorum, active⟩ :=
        exists_group_of_supported required positive computed timely authorized supported
      refine ⟨_, mem_retainedLeases.mpr ⟨_, provenance, found, quorum, ?_, rfl⟩, rfl, active⟩
      have sum := toNat_drainExpiry quorum (drains _ provenance found)
      rw [UInt64.lt_iff_toNat_lt] at active ⊢
      rw [UInt64.le_iff_toNat_le] at later
      omega
  · rw [decide_established_allows_iff]
    constructor
    · rintro ⟨lease, member, rfl, draining⟩
      have replays := VerifiedEgressFqdnSnapshot.replays ⟨_, replayed⟩ lease member
      have sum := replays.toNat_establishedFlows
      have started := replays.newFlows_pos required
      rw [UInt64.lt_iff_toNat_lt] at started
      have last : (lease.newFlowsUntilUnixSeconds - 1).toNat =
          lease.newFlowsUntilUnixSeconds.toNat - 1 := by
        apply UInt64.toNat_sub_of_le
        exact started
      have active : lease.newFlowsUntilUnixSeconds - 1 < lease.newFlowsUntilUnixSeconds := by
        rw [UInt64.lt_iff_toNat_lt]
        omega
      obtain ⟨authorized, supported⟩ :=
        supported_of_lease required positive computed timely member replays active
      refine ⟨lease.queryName, _, authorized, supported, ?_⟩
      rw [UInt64.lt_iff_toNat_lt] at draining
      change _ = _ + canonical.establishedFlowGraceSeconds.toNat at sum
      omega
    · rintro ⟨name, last, authorized, supported, reaches⟩
      obtain ⟨provenance, found, quorum, active⟩ :=
        exists_group_of_supported required positive computed timely authorized supported
      have sum := toNat_drainExpiry quorum (drains _ provenance found)
      rw [UInt64.lt_iff_toNat_lt] at active
      rw [UInt64.le_iff_toNat_le] at later
      refine ⟨_, mem_retainedLeases.mpr ⟨_, provenance, found, quorum, ?_, rfl⟩, rfl, ?_⟩
      · rw [UInt64.lt_iff_toNat_lt]
        omega
      · change time < drainExpiry canonical provenance
        rw [UInt64.lt_iff_toNat_lt]
        omega

end Snapshots

/-- A policy for one name with two observers. -/
def apiPolicy : EgressFqdnPolicy where
  patterns := [.exact "api.test"]
  view := "cluster-default"
  discoveryNames := []
  resolverAddresses := []
  requiredObservers := 2
  maxAddresses := 16
  maxTtlSeconds := 300
  establishedFlowGraceSeconds := 30
  revision := ⟨7⟩
  owner := ⟨.cluster, "api", "api-uid"⟩

/-- What an observer reports for the name, with the lifetimes of one address. -/
def apiObservation (observer : String) (ttls : List UInt32) : EgressDnsObservation where
  source := ⟨observer, .v4 0x0A60000A, "cluster-default", 1⟩
  observationRevision := ⟨1⟩
  queryName := "api.test"
  canonicalChain := ["api.test"]
  answers := ttls.map (EgressDnsAnswer.mk (.v4 0xC6336401))
  observedAtUnixSeconds := 1000

theorem compileEgressFqdnSnapshot_quorum_api :
    ∃ compilation, compileEgressFqdnSnapshot (fun _ => ()) apiPolicy
        [apiObservation "node-a" [60], apiObservation "node-b" [120]] 1000 = .ok compilation ∧
      ∃ canonical verified, verifyEgressFqdnSnapshot (fun _ => ()) compilation.snapshot =
        .ok verified ∧
      ((decideEgressFqdnDestination verified (.v4 0xC6336401) .new 1030).allows = true ↔
        ∃ name, canonical.Authorizes name ∧ SupportedByQuorum canonical
          [apiObservation "node-a" [60], apiObservation "node-b" [120]] name
            (.v4 0xC6336401) 1030) := by
  have accepts : (compileEgressFqdnSnapshot (fun _ => ()) apiPolicy
      [apiObservation "node-a" [60], apiObservation "node-b" [120]] 1000).isOk = true := by
    decide +kernel
  cases computed : compileEgressFqdnSnapshot (fun _ => ()) apiPolicy
      [apiObservation "node-a" [60], apiObservation "node-b" [120]] 1000 with
  | error error =>
    rw [computed] at accepts
    cases accepts
  | ok compilation =>
    obtain ⟨canonical, verified, -, replayed, newFlows, -⟩ :=
      compileEgressFqdnSnapshot_quorum computed
    exact ⟨compilation, rfl, canonical, verified, replayed,
      newFlows (.v4 0xC6336401) 1030 (by decide)⟩

end Unf.Egress
