import Unf.State
import Unf.Policy.Evaluate

/-!
# Recorded decisions

A policy map stores the enforced and the shadow part of a decision.  Both are
functions of the policies that apply and of the rules that match, and a value
carries provenance exactly when some policy contributes a candidate.  Matching
more rules never removes provenance.
-/

namespace Unf.Policy

open Unf.Lib List RankedDecision

/-- What a policy map stores for a decision. -/
structure PolicyValue where
  decision : PolicyDecisionRecord
  shadow : Option PolicyDecisionRecord
  deriving DecidableEq, Repr

/-- The value of traffic that no policy decides. -/
def PolicyValue.unmanaged : PolicyValue where
  decision := ⟨.allow, .noApplicablePolicy, none, none⟩
  shadow := none

variable (policies : List PolicyIr) (decision : PolicyDecision) (direction : PolicyDirection)

def policyDecisionRecord : PolicyDecisionRecord :=
  ⟨decision.verdict, decision.reason, decision.policyId, decision.ruleId⟩

def shadowPolicyDecisionRecord : Option PolicyDecisionRecord :=
  match decision.shadowVerdict, decision.shadowReason with
  | some verdict, some reason =>
    some ⟨verdict, reason, decision.shadowPolicyId, decision.shadowRuleId⟩
  | _, _ => none

def PolicyDecision.value : PolicyValue :=
  ⟨policyDecisionRecord decision, shadowPolicyDecisionRecord decision⟩

def hasPolicyProvenance : Bool :=
  decision.policyId.isSome || decision.shadowPolicyId.isSome

/-! ## Values from candidates -/

def RankedDecision.record (decision : RankedDecision) : PolicyDecisionRecord :=
  ⟨actionVerdict decision.action, decision.reason, some decision.policyId, decision.ruleId⟩

/-- The least candidate of one mode. -/
def leastCandidate (matched : PolicyIr → List PolicyRule) (mode : PolicyEnforcementMode) :
    Option RankedDecision :=
  runningMin RankedDecision.rank (candidates policies matched mode)

/-- The value decided by policies that all apply, when `matched` tells which of
their rules match. -/
def decidedValue (matched : PolicyIr → List PolicyRule) : PolicyValue where
  decision := ((leastCandidate policies matched .enforce).map RankedDecision.record).getD
    PolicyValue.unmanaged.decision
  shadow := (leastCandidate policies matched .shadow).map RankedDecision.record

/-- The policies of a direction that select an endpoint. -/
def applicablePolicies (endpoint : Endpoint) : List PolicyIr :=
  policies.filter fun policy => policy.applies direction endpoint

theorem value_evaluate (flow : Flow) (destinationAddresses : DestinationAddresses) :
    (evaluateForDirectionWithAddresses policies direction flow destinationAddresses).value =
      decidedValue (applicablePolicies policies direction (flow.selectedEndpoint direction))
        (matchedRules flow destinationAddresses) := by
  simp only [evaluateForDirectionWithAddresses, PolicyDecision.value, shadowPolicyDecisionRecord,
    decideForMode_eq, decidedValue, applicablePolicies, leastCandidate]
  congr 1
  · cases runningMin rank _ <;> rfl
  · cases runningMin rank _ <;> rfl

theorem hasPolicyProvenance_evaluate (flow : Flow) (destinationAddresses : DestinationAddresses) :
    hasPolicyProvenance (evaluateForDirectionWithAddresses policies direction flow
      destinationAddresses) = true ↔ decidedValue
        (applicablePolicies policies direction (flow.selectedEndpoint direction))
        (matchedRules flow destinationAddresses) ≠ .unmanaged := by
  simp only [evaluateForDirectionWithAddresses, hasPolicyProvenance, decideForMode_eq,
    decidedValue, applicablePolicies, leastCandidate, PolicyValue.unmanaged]
  cases runningMin rank _ <;> cases runningMin rank _ <;>
    simp [outcome, record]

/-! ## Comparing values -/

variable {policies : List PolicyIr} {left right fewer more : PolicyIr → List PolicyRule}

variable (agree : ∀ policy ∈ policies, left policy = right policy)

include agree

theorem candidates_congr (mode : PolicyEnforcementMode) :
    candidates policies left mode = candidates policies right mode := by
  have pooled : ∀ pool : List PolicyIr, (∀ policy ∈ pool, policy ∈ policies) →
      pool.flatMap left = pool.flatMap right := by
    intro pool contained
    exact flatMap_congr fun policy member => agree policy (contained policy member)
  have filtered : ∀ condition : PolicyIr → Bool,
      ∀ policy ∈ policies.filter condition, policy ∈ policies :=
    fun condition policy member => mem_of_mem_filter member
  rw [candidates, compatibilityCandidates, pooled _ (filtered _)]
  congr 1
  apply flatMap_congr
  intro policy member
  rw [agree policy (filtered _ policy member)]

/-- Decisions agree when the same rules match. -/
theorem decidedValue_congr :
    decidedValue policies left = decidedValue policies right := by
  simp only [decidedValue, leastCandidate, candidates_congr agree]

omit agree

/-- Replacing the rules of every policy only changes which rules match. -/
theorem decidedValue_map_rules (policies : List PolicyIr)
    (rules : PolicyIr → List PolicyRule) (matched : PolicyIr → List PolicyRule) :
    decidedValue (policies.map fun policy => { policy with rules := rules policy })
      matched =
      decidedValue policies fun policy => matched { policy with rules := rules policy } := by
  have same : ∀ mode, candidates
      (policies.map fun policy => { policy with rules := rules policy }) matched mode =
      candidates policies (fun policy => matched { policy with rules := rules policy }) mode := by
    intro mode
    simp only [candidates, compatibilityCandidates, filter_map, flatMap_map, map_map]
    rfl
  simp only [decidedValue, leastCandidate, same]

/-! ## Provenance -/

theorem decidedValue_eq_unmanaged_iff (policies : List PolicyIr)
    (matched : PolicyIr → List PolicyRule) : decidedValue policies matched = .unmanaged ↔
      ∀ mode, candidates policies matched mode = [] := by
  have modes : (∀ mode, candidates policies matched mode = []) ↔
      candidates policies matched .enforce = [] ∧ candidates policies matched .shadow = [] := by
    constructor
    · intro empty
      exact ⟨empty .enforce, empty .shadow⟩
    · rintro ⟨enforce, shadow⟩ (_ | _)
      · exact enforce
      · exact shadow
  rw [modes, ← runningMin_eq_none_iff rank, decidedValue, leastCandidate, leastCandidate,
    PolicyValue.unmanaged]
  cases runningMin rank (candidates policies matched .enforce) <;>
    simp [record]

private theorem nativeCandidates_eq_nil_of_subset {policy : PolicyIr}
    {fewer more : List PolicyRule} (subset : fewer ⊆ more)
    (empty : nativeCandidates policy more = []) : nativeCandidates policy fewer = [] := by
  have noneEnforcing : more.filter (fun rule => rule.action != .audit) = [] := by
    by_contra nonempty
    simp [nativeCandidates, nonempty] at empty
  have noneEnforcingFewer : fewer.filter (fun rule => rule.action != .audit) = [] := by
    rw [filter_eq_nil_iff] at noneEnforcing ⊢
    exact fun rule member => noneEnforcing rule (subset member)
  rw [← empty, nativeCandidates, nativeCandidates, noneEnforcing, noneEnforcingFewer]

variable (subset : ∀ policy ∈ policies, fewer policy ⊆ more policy)

include subset

private theorem compatibilityCandidates_eq_nil_of_subset
    (empty : compatibilityCandidates policies more = []) :
    compatibilityCandidates policies fewer = [] := by
  have noneMatched : policies.flatMap more = [] := by
    by_contra nonempty
    simp [compatibilityCandidates, nonempty] at empty
  have noneMatchedFewer : policies.flatMap fewer = [] := by
    rw [flatMap_eq_nil_iff] at noneMatched ⊢
    intro policy member
    exact subset_nil.mp (noneMatched policy member ▸ subset policy member)
  rw [← empty, compatibilityCandidates, compatibilityCandidates, noneMatched, noneMatchedFewer]

/-- When more rules match, a value keeps its provenance. -/
theorem decidedValue_managed_mono (managed : decidedValue policies fewer ≠ .unmanaged) :
    decidedValue policies more ≠ .unmanaged := by
  contrapose! managed
  rw [decidedValue_eq_unmanaged_iff] at managed ⊢
  intro mode
  obtain ⟨native, compatibility⟩ := append_eq_nil_iff.mp (managed mode)
  apply append_eq_nil_iff.mpr
  constructor
  · rw [flatMap_eq_nil_iff] at native ⊢
    intro policy member
    exact nativeCandidates_eq_nil_of_subset
      (subset policy (mem_of_mem_filter member)) (native policy member)
  · exact compatibilityCandidates_eq_nil_of_subset
      (fun policy member => subset policy (mem_of_mem_filter member)) compatibility

end Unf.Policy
