import Unf.Policy.Decision
import Unf.Policy.NetworkPolicy

/-!
# Decisions of compatibility policies

The policies compiled from NetworkPolicy objects are enforced, deny by default
and contain allow rules only.  Together they decide through the least rule that
matches, ordered by policy and rule, and through the least isolating policy when
no rule matches.
-/

namespace Unf.Policy

open Unf.Lib PolicyRule RankedDecision PolicyDecisionRecord List

/-- The shape that every compiled NetworkPolicy has. -/
structure PolicyIr.IsCompatibility (policy : PolicyIr) : Prop where
  origin : policy.origin = .kubernetesNetworkPolicy
  enforcementMode : policy.enforcementMode = .enforce
  priority : policy.priority = kubernetesNetworkPolicyPriority
  defaultAction : policy.defaultAction = .deny
  allows : ∀ rule ∈ policy.rules, rule.action = .allow

theorem CompiledNetworkPolicy.isCompatibility {policyId : PolicyId}
    {object : NetworkPolicy} (result : CompiledNetworkPolicy policyId object)
    {direction : PolicyDirection} (included : result.directions.includes direction) :
    (result.policy direction).IsCompatibility := by
  refine ⟨rfl, rfl, rfl, rfl, ?_⟩
  refine result.forall_rule included (fun _ pattern => pattern.action = .allow)
    fun _ _ _ _ _ _ _ _ _ _ _ => ?_
  cases direction <;> rfl

/-! ## The least rule and the least policy -/

def PolicyRule.ownerAndId (rule : PolicyRule) : PolicyId ×ₗ RuleId :=
  toLex (rule.provenance.policyId, rule.id)

/-- The rule that decides among matching allow rules. -/
def leastRule (rules : List PolicyRule) : Option PolicyRule :=
  runningMin PolicyRule.ownerAndId rules

/-- The identity under which the least rule is reported. -/
def leastRuleId (rules : List PolicyRule) : Option (PolicyId ×ₗ RuleId) :=
  (leastRule rules).map PolicyRule.ownerAndId

def PolicyRule.allowedValue (rule : PolicyRule) : PolicyValue where
  decision := ⟨.allow, .explicitRule, some rule.provenance.policyId, some rule.id⟩
  shadow := none

def PolicyIr.deniedValue (policy : PolicyIr) : PolicyValue where
  decision := ⟨.deny, .defaultAction, some policy.id, none⟩
  shadow := none

/-- The value decided by compatibility policies: allow rules are additive, and
isolation denies what none of them allows. -/
def compatibilityValue (policies : List PolicyIr) (matched : List PolicyRule) :
    PolicyValue :=
  match leastRule matched with
  | some rule => rule.allowedValue
  | none => ((runningMin PolicyIr.id policies).map PolicyIr.deniedValue).getD .unmanaged

variable {policies : List PolicyIr}

variable (compatibility : ∀ policy ∈ policies, policy.IsCompatibility)

include compatibility

private theorem candidates_of_isCompatibility (matched : PolicyIr → List PolicyRule) :
    candidates policies matched .enforce = compatibilityCandidates policies matched ∧
      candidates policies matched .shadow = [] := by
  have noNative : ∀ mode, policies.filter
      (fun policy => policy.hasModeAndOrigin mode .native) = [] := by
    intro mode
    rw [filter_eq_nil_iff]
    intro policy member
    simp [PolicyIr.hasModeAndOrigin, (compatibility policy member).origin]
  have enforced : policies.filter (fun policy =>
      policy.hasModeAndOrigin .enforce .kubernetesNetworkPolicy) = policies := by
    rw [filter_eq_self]
    intro policy member
    simp [PolicyIr.hasModeAndOrigin, (compatibility policy member).origin,
      (compatibility policy member).enforcementMode]
  have noShadow : policies.filter (fun policy =>
      policy.hasModeAndOrigin .shadow .kubernetesNetworkPolicy) = [] := by
    rw [filter_eq_nil_iff]
    intro policy member
    simp [PolicyIr.hasModeAndOrigin, (compatibility policy member).enforcementMode]
  constructor
  · simp only [candidates, noNative, enforced, flatMap_nil, nil_append]
  · simp only [candidates, noNative, noShadow]
    rfl

omit compatibility in
private theorem leastCandidate_of_rules {rules : List PolicyRule}
    (allows : ∀ rule ∈ rules, rule.action = .allow) :
    runningMin rank (rules.map fun rule =>
        rule.explicitDecision kubernetesNetworkPolicyPriority rule.provenance.policyId) =
      (leastRule rules).map fun rule =>
        rule.explicitDecision kubernetesNetworkPolicyPriority rule.provenance.policyId := by
  apply runningMin_map
  intro left leftMember right rightMember
  simp only [rank, explicitDecision, allows left leftMember, allows right rightMember, ruleRank,
    ownerAndId, Prod.Lex.toLex_lt_toLex, lt_irrefl, true_and, false_or, WithBot.coe_lt_coe]

private theorem leastCandidate_of_defaults :
    runningMin rank (policies.map PolicyIr.defaultDecision) =
      (runningMin PolicyIr.id policies).map PolicyIr.defaultDecision := by
  apply runningMin_map
  intro left leftMember right rightMember
  have leftShape := compatibility left leftMember
  have rightShape := compatibility right rightMember
  simp only [rank, PolicyIr.defaultDecision, leftShape.priority, rightShape.priority,
    leftShape.defaultAction, rightShape.defaultAction, Prod.Lex.toLex_lt_toLex, lt_irrefl,
    true_and, false_or, and_false, or_false]

/-- Compatibility policies decide by their least matching rule, or else by the
least policy. -/
theorem decidedValue_compatibility {matched : PolicyIr → List PolicyRule}
    (owned : ∀ policy ∈ policies, matched policy ⊆ policy.rules) : decidedValue policies matched =
      compatibilityValue policies (policies.flatMap matched) := by
  have allows : ∀ rule ∈ policies.flatMap matched, rule.action = .allow := by
    intro rule member
    obtain ⟨policy, policyMember, ruleMember⟩ := mem_flatMap.mp member
    exact (compatibility policy policyMember).allows rule (owned policy policyMember ruleMember)
  have defaults : policies.filter (fun policy => policy.defaultAction != .audit) =
      policies := by
    rw [filter_eq_self]
    intro policy member
    rw [(compatibility policy member).defaultAction]
    rfl
  obtain ⟨enforced, shadow⟩ := candidates_of_isCompatibility compatibility matched
  simp only [decidedValue, leastCandidate, enforced, shadow, compatibilityCandidates,
    defaults, compatibilityValue]
  cases found : leastRule (policies.flatMap matched) with
  | some rule =>
    have member := mem_of_runningMin _ found
    have nonempty : ¬(policies.flatMap matched).isEmpty = true := by
      simpa only [List.isEmpty_iff] using List.ne_nil_of_mem member
    rw [if_neg nonempty, List.append_nil, leastCandidate_of_rules allows, found]
    simp [record, explicitDecision, allowedValue, allows rule member, actionVerdict]
  | none =>
    rw [(runningMin_eq_none_iff _ _).mp found]
    simp only [map_nil, nil_append, isEmpty_nil, if_true, leastCandidate_of_defaults compatibility]
    cases least : runningMin PolicyIr.id policies with
    | none => rfl
    | some policy =>
      simp [record, PolicyIr.defaultDecision, PolicyIr.deniedValue,
        (compatibility policy (mem_of_runningMin _ least)).defaultAction, actionVerdict]

omit compatibility

/-- Isolated traffic is allowed exactly when some rule matches it. -/
theorem compatibilityValue_verdict (policies : List PolicyIr) (matched : List PolicyRule) :
    (compatibilityValue policies matched).decision.verdict = .allow ↔
      policies = [] ∨ matched ≠ [] := by
  cases found : leastRule matched with
  | some rule =>
    simp [compatibilityValue, found, allowedValue, List.ne_nil_of_mem (mem_of_runningMin _ found)]
  | none =>
    rw [compatibilityValue, found, (runningMin_eq_none_iff _ _).mp found,
      ← runningMin_eq_none_iff PolicyIr.id]
    cases runningMin PolicyIr.id policies with
    | none => simp [PolicyValue.unmanaged]
    | some policy => simp [PolicyIr.deniedValue]

/-- Two sets of matching rules lead the same policies to the same decision exactly
when their least rules have the same identity. -/
theorem compatibilityValue_attribution_iff (policies : List PolicyIr)
    (left right : List PolicyRule) : (compatibilityValue policies left).decision.attribution =
        (compatibilityValue policies right).decision.attribution ↔
      leastRuleId left = leastRuleId right := by
  have denied : (((runningMin PolicyIr.id policies).map PolicyIr.deniedValue).getD
      .unmanaged).decision.ruleId = none := by
    cases runningMin PolicyIr.id policies <;> rfl
  rw [compatibilityValue, compatibilityValue, leastRuleId, leastRuleId]
  cases leastRule left with
  | none =>
    cases leastRule right with
    | none => simp
    | some rule =>
      simp [attribution, denied, allowedValue]
  | some first =>
    cases leastRule right with
    | none => simp [attribution, denied, allowedValue]
    | some second =>
      simp [attribution, allowedValue, ownerAndId]

end Unf.Policy
