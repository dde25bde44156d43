import Unf.Policy.Evaluate

/-!
# Evaluation does not depend on policy order

The decision of a mode depends only on the set of its candidates.  The audit
list is a stable sort, so it also depends on the order of the entries that
share a key; those entries come from one policy as soon as every rule records
the policy that owns it.
-/

namespace Unf.Policy

open Unf.Lib List

variable {left right : List PolicyIr}

theorem mem_candidates_of_subset (same : ∀ policy, policy ∈ left ↔ policy ∈ right)
    (matched : PolicyIr → List PolicyRule) (mode : PolicyEnforcementMode)
    {candidate : RankedDecision} (member : candidate ∈ candidates left matched mode) :
    candidate ∈ candidates right matched mode := by
  have sameRules : ∀ origin rule,
      rule ∈ (left.filter fun policy => policy.hasModeAndOrigin mode origin).flatMap matched ↔
      rule ∈ (right.filter fun policy => policy.hasModeAndOrigin mode origin).flatMap matched := by
    intro origin rule
    simp only [mem_flatMap, mem_filter, same]
  rcases mem_append.mp member with native | compatibility
  · apply mem_append_left
    simpa only [mem_flatMap, mem_filter, same] using native
  · apply mem_append_right
    rcases mem_append.mp compatibility with explicit | default
    · apply mem_append_left
      simpa only [mem_map, sameRules] using explicit
    · apply mem_append_right
      split at default
      · next empty =>
          rw [if_pos]
          · simpa only [mem_map, mem_filter, same] using default
          · simp only [List.isEmpty_iff, List.eq_nil_iff_forall_not_mem] at empty ⊢
            exact fun rule member => empty rule ((sameRules _ rule).mpr member)
      · simp at default

variable (flow : Flow) (destinationAddresses : DestinationAddresses)

/-- The decision of a mode only sees the set of policies. -/
theorem decideForMode_congr (same : ∀ policy, policy ∈ left ↔ policy ∈ right)
    (mode : PolicyEnforcementMode) :
    decideForMode left flow destinationAddresses mode =
      decideForMode right flow destinationAddresses mode := by
  rw [decideForMode_eq, decideForMode_eq]
  congr 1
  apply runningMin_candidates_congr
  intro candidate
  exact ⟨mem_candidates_of_subset same _ mode,
    mem_candidates_of_subset (fun policy => (same policy).symm) _ mode⟩

/-! ## Audits -/

/-- Every rule records the id of the policy that owns it, as `push_rule`
does. -/
def OwnsRules (policy : PolicyIr) : Prop :=
  ∀ rule ∈ policy.rules, rule.provenance.policyId = policy.id

theorem matchingAudits_eq_flatMap (policies : List PolicyIr) :
    matchingAudits policies flow destinationAddresses =
      policies.flatMap fun policy => matchingAudits [policy] flow destinationAddresses := by
  simp only [matchingAudits, filter_flatMap, map_flatMap, flatMap_singleton]

theorem policyId_of_mem_matchingAudits {policy : PolicyIr} (owns : OwnsRules policy)
    {provenance : RuleProvenance}
    (member : provenance ∈ matchingAudits [policy] flow destinationAddresses) :
    provenance.policyId = policy.id := by
  simp only [matchingAudits, flatMap_singleton, mem_map, mem_filter] at member
  obtain ⟨rule, ⟨ruleMember, -⟩, rfl⟩ := member
  exact owns rule ruleMember

/-- The audits of one key come from the policy that the key names. -/
theorem filter_matchingAudits {policies : List PolicyIr}
    (owns : ∀ policy ∈ policies, OwnsRules policy) (key : PolicyId ×ₗ UInt32) :
    (matchingAudits policies flow destinationAddresses).filter
        (fun provenance => provenance.auditKey = key) =
      (policies.filter fun policy => policy.id = (ofLex key).1).flatMap
        fun policy => (matchingAudits [policy] flow destinationAddresses).filter
          fun provenance => provenance.auditKey = key := by
  rw [matchingAudits_eq_flatMap, filter_flatMap]
  induction policies with
  | nil => rfl
  | cons policy rest ih =>
    have restOwns : ∀ policy ∈ rest, OwnsRules policy := fun policy member =>
      owns policy (mem_cons_of_mem _ member)
    rw [flatMap_cons, ih restOwns, filter_cons]
    split
    · rw [flatMap_cons]
    · next different =>
        have none : (matchingAudits [policy] flow destinationAddresses).filter
            (fun provenance => provenance.auditKey = key) = [] := by
          rw [filter_eq_nil_iff]
          intro provenance member equal
          have owner := policyId_of_mem_matchingAudits _ _ (owns policy mem_cons_self) member
          apply different
          rw [decide_eq_true_eq] at equal ⊢
          rw [← owner, ← equal]
          rfl
        rw [none, nil_append]

theorem sortedAudits_perm (perm : left.Perm right) (distinct : (left.map PolicyIr.id).Nodup)
    (owns : ∀ policy ∈ left, OwnsRules policy) :
    sortByKey RuleProvenance.auditKey (matchingAudits left flow destinationAddresses) =
      sortByKey RuleProvenance.auditKey (matchingAudits right flow destinationAddresses) := by
  apply sortByKey_congr
  intro key
  rw [filter_matchingAudits _ _ owns, filter_matchingAudits _ _
    (fun policy member => owns policy (perm.mem_iff.mpr member)),
    filter_eq_of_perm PolicyIr.id perm distinct]

/-! ## Permutations and irrelevant policies -/

/-- Reordering the policies and inserting ones that do not apply to the selected
endpoint leaves the whole decision unchanged. -/
theorem evaluateForDirectionWithAddresses_perm_append {policies inserted reordered : List PolicyIr}
    (direction : PolicyDirection) (flow : Flow) (destinationAddresses : DestinationAddresses)
    (distinct : ∀ direction, ((policies.filter fun policy =>
      policy.direction = direction).map PolicyIr.id).Nodup)
    (owns : ∀ policy ∈ policies, OwnsRules policy)
    (irrelevant : ∀ policy ∈ inserted, policy.direction ≠ direction ∨
      policy.target.matchesEndpoint (flow.selectedEndpoint direction) = false)
    (perm : reordered.Perm (policies ++ inserted)) :
    evaluateForDirectionWithAddresses reordered direction flow destinationAddresses =
      evaluateForDirectionWithAddresses policies direction flow destinationAddresses := by
  let applies : PolicyIr → Bool := fun policy =>
    policy.applies direction (flow.selectedEndpoint direction)
  have insertedInapplicable : inserted.filter applies = [] := by
    rw [filter_eq_nil_iff]
    intro policy member
    rcases irrelevant policy member with opposite | unselected
    · simp [applies, PolicyIr.applies, opposite]
    · simp [applies, PolicyIr.applies, unselected]
  have applicablePerm : (policies.filter applies).Perm (reordered.filter applies) := by
    have filtered := perm.filter applies
    rw [filter_append, insertedInapplicable, append_nil] at filtered
    exact filtered.symm
  have applicableDistinct : ((policies.filter applies).map PolicyIr.id).Nodup := by
    refine List.Nodup.sublist (List.Sublist.map _ ?_) (distinct direction)
    apply monotone_filter_right
    intro policy
    simp only [applies, PolicyIr.applies, Bool.and_eq_true, beq_iff_eq, decide_eq_true_eq]
    exact And.left
  have applicableOwns : ∀ policy ∈ policies.filter applies, OwnsRules policy :=
    fun policy member => owns policy (mem_of_mem_filter member)
  have audits := sortedAudits_perm flow destinationAddresses applicablePerm applicableDistinct
    applicableOwns
  have decisions := decideForMode_congr flow destinationAddresses
    fun policy => applicablePerm.mem_iff
  simp only [applies] at audits decisions
  simp only [evaluateForDirectionWithAddresses, audits, decisions]

/-- An ingress policy with one audit rule that matches every flow and is
attributed to `owner`. -/
def auditPolicy (id owner : UInt32) (name : String) : PolicyIr where
  id := ⟨id⟩
  name := name
  «namespace» := "default"
  priority := 100
  origin := .native
  direction := .ingress
  target := .unconstrained
  defaultAction := .deny
  enforcementMode := .enforce
  rules := [{
    id := ⟨0⟩
    source := .unconstrained
    destination := .unconstrained
    protocol := none
    destinationPort := .any
    action := .audit
    provenance := ⟨⟨owner⟩, name, "default", 0⟩ }]

/-- A flow between two addresses outside the cluster. -/
def externalFlow : Flow where
  source := externalEndpoint
  destination := externalEndpoint
  protocol := .tcp
  destinationPort := 443
  sourceIpv4 := none
  sourceIpv6 := none

theorem evaluate_auditPolicies_swapped :
    evaluateForDirectionWithAddresses
        [{ auditPolicy 3 3 "third" with direction := .egress },
          auditPolicy 2 2 "second", auditPolicy 1 1 "first"]
        .ingress externalFlow {} =
      evaluateForDirectionWithAddresses
        [auditPolicy 1 1 "first", auditPolicy 2 2 "second"]
        .ingress externalFlow {} :=
  evaluateForDirectionWithAddresses_perm_append .ingress externalFlow {}
    (fun direction => by cases direction <;> decide)
    (by simp [OwnsRules, auditPolicy]) (by simp [auditPolicy])
    (show List.Perm _ ([auditPolicy 1 1 "first", auditPolicy 2 2 "second"] ++
      [{ auditPolicy 3 3 "third" with direction := .egress }]) by decide)

/-- Two rules of different policies that both name a third policy are tied in
the audit order, so the audit list keeps the order of the policies. -/
theorem evaluate_auditPolicies_foreign_owner :
    (∀ direction, (([auditPolicy 1 9 "first", auditPolicy 2 9 "second"].filter
        fun policy => policy.direction = direction).map PolicyIr.id).Nodup) ∧
      (∀ policy ∈ [auditPolicy 1 9 "first", auditPolicy 2 9 "second"],
        (policy.rules.map PolicyRule.id).Nodup) ∧
      [auditPolicy 2 9 "second", auditPolicy 1 9 "first"].Perm
        [auditPolicy 1 9 "first", auditPolicy 2 9 "second"] ∧ evaluateForDirectionWithAddresses
          [auditPolicy 2 9 "second", auditPolicy 1 9 "first"] .ingress externalFlow {} ≠
        evaluateForDirectionWithAddresses [auditPolicy 1 9 "first", auditPolicy 2 9 "second"]
          .ingress externalFlow {} := by
  refine ⟨?_, ?_, ?_, ?_⟩
  · intro direction
    cases direction <;> decide
  · decide
  · decide
  · decide

end Unf.Policy
