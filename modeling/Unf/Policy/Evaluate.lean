import Unf.Policy.Ir

/-!
# Deterministic policy evaluation

Evaluation filters the policies that select an endpoint, scans their candidate
decisions for the smallest one under the order priority, action, policy and
rule, and does so once for the enforced and once for the shadow policies.  The
result is described through the list of candidates, so that later modules
compare two evaluations by comparing the rules that match.
-/

namespace Unf.Policy

open Unf.Lib List

/-- Priority shared by every rule of a Kubernetes NetworkPolicy. -/
def kubernetesNetworkPolicyPriority : UInt32 := 1000000

/-! ## Ranked decisions -/

structure RankedDecision where
  priority : UInt32
  action : PolicyAction
  policyId : PolicyId
  ruleId : Option RuleId
  reason : PolicyReason
  deriving DecidableEq, Repr

def actionRank : PolicyAction → UInt8
  | .deny => 0
  | .allow => 1
  | .audit => 2

def actionVerdict : PolicyAction → Verdict
  | .allow => .allow
  | .deny => .deny
  | .audit => .audit

/-- The order of optional rules, in which the absent rule of a default action
comes first. -/
def compareRuleIds : Option RuleId → Option RuleId → Ordering
  | none, none => .eq
  | none, some _ => .lt
  | some _, none => .gt
  | some left, some right => compare left right

/-- An optional rule as a point of the order with a least element. -/
def ruleRank : Option RuleId → WithBot RuleId
  | none => ⊥
  | some ruleId => ruleId

theorem ruleRank_injective : Function.Injective ruleRank := by
  intro left right equal
  cases left <;> cases right <;> simp_all [ruleRank]

theorem compareRuleIds_eq_lt (left right : Option RuleId) :
    compareRuleIds left right = .lt ↔ ruleRank left < ruleRank right := by
  cases left <;> cases right <;> simp [compareRuleIds, ruleRank, compare_lt_iff_lt]

def compareDecisions (left right : RankedDecision) : Ordering :=
  (compare left.priority right.priority).then <|
    (compare (actionRank left.action) (actionRank right.action)).then <|
      (compare left.policyId right.policyId).then <|
        compareRuleIds left.ruleId right.ruleId

variable (policies : List PolicyIr) (decision : RankedDecision) (flow : Flow)
  (destinationAddresses : DestinationAddresses) (best : Option RankedDecision) (policy : PolicyIr)
  (mode : PolicyEnforcementMode)

def consider (candidate : RankedDecision) : Option RankedDecision :=
  if best.all fun current => (compareDecisions candidate current).isLT then
    some candidate
  else
    best

namespace RankedDecision

/-- The position of a decision in the order of `compareDecisions`. -/
def rank : UInt32 ×ₗ UInt8 ×ₗ PolicyId ×ₗ WithBot RuleId :=
  toLex (decision.priority, toLex (actionRank decision.action,
    toLex (decision.policyId, ruleRank decision.ruleId)))

/-- A decision's reason says whether it comes from a rule. -/
def WellFormed : Prop :=
  decision.reason =
    if decision.ruleId.isSome then .explicitRule else .defaultAction

theorem actionRank_injective : Function.Injective actionRank := by
  intro left right
  cases left <;> cases right <;> decide

/-- The rank and the reason convention determine a decision. -/
theorem eq_of_rank_eq {left right : RankedDecision}
    (leftWellFormed : left.WellFormed) (rightWellFormed : right.WellFormed)
    (equal : left.rank = right.rank) : left = right := by
  obtain ⟨priority, equal⟩ := Prod.mk.inj (toLex.injective equal)
  obtain ⟨action, equal⟩ := Prod.mk.inj (toLex.injective equal)
  obtain ⟨policyId, ruleId⟩ := Prod.mk.inj (toLex.injective equal)
  replace ruleId := ruleRank_injective ruleId
  have reason : left.reason = right.reason := by
    rw [leftWellFormed, rightWellFormed, ruleId]
  rw [mk.injEq]
  exact ⟨priority, actionRank_injective action, policyId, ruleId, reason⟩

end RankedDecision

theorem compareDecisions_isLT (left right : RankedDecision) :
    (compareDecisions left right).isLT = decide (left.rank < right.rank) := by
  rw [Bool.eq_iff_iff, decide_eq_true_iff]
  simp only [compareDecisions, RankedDecision.rank, Prod.Lex.lt_iff, ofLex_toLex,
    Ordering.isLT_iff_eq_lt, Ordering.then_eq_lt, compare_lt_iff_lt,
    compare_eq_iff_eq, compareRuleIds_eq_lt]

theorem consider_eq_keepSmaller (candidate : RankedDecision) :
    consider best candidate = keepSmaller RankedDecision.rank best candidate := by
  cases best with
  | none => rfl
  | some current =>
    simp only [consider, keepSmaller, Option.all_some, compareDecisions_isLT, decide_eq_true_eq]

/-! ## Decisions for one enforcement mode -/

def PolicyRule.explicitDecision (rule : PolicyRule) (priority : UInt32)
    (policyId : PolicyId) : RankedDecision :=
  ⟨priority, rule.action, policyId, some rule.id, .explicitRule⟩

def PolicyIr.defaultDecision : RankedDecision :=
  ⟨policy.priority, policy.defaultAction, policy.id, none, .defaultAction⟩

def PolicyIr.hasModeAndOrigin (origin : PolicyOrigin) : Bool :=
  policy.enforcementMode == mode && policy.origin == origin

/-- The rules of a policy that match a flow. -/
def matchedRules : List PolicyRule :=
  policy.rules.filter fun rule => ruleMatches rule flow destinationAddresses

theorem matchedRules_subset : matchedRules flow destinationAddresses policy ⊆ policy.rules :=
  fun _ member => mem_of_mem_filter member

/-- The candidates of one native policy, which falls back to its own default
action when none of its enforcing rules matches. -/
def considerNativePolicy : Option RankedDecision :=
  let matched := matchedRules flow destinationAddresses policy
  let enforcingRules := matched.filter fun rule => rule.action != .audit
  if !enforcingRules.isEmpty then
    enforcingRules.foldl (fun best rule =>
      consider best (rule.explicitDecision policy.priority policy.id)) best
  else if policy.defaultAction != .audit then
    consider best policy.defaultDecision
  else
    best

/-- The decision taken by the policies of one mode, if any of them takes one.
The rules of all compatibility policies are pooled before any of their defaults
applies. -/
def decideForMode : Option (Verdict × PolicyReason × Option PolicyId × Option RuleId) :=
  let native := policies.filter fun policy => policy.hasModeAndOrigin mode .native
  let best := native.foldl (considerNativePolicy flow destinationAddresses) none
  let compatibility := policies.filter fun policy =>
    policy.hasModeAndOrigin mode .kubernetesNetworkPolicy
  let compatibilityRules := (compatibility.flatMap PolicyIr.rules).filter fun rule =>
    ruleMatches rule flow destinationAddresses
  let best := compatibilityRules.foldl (fun best rule =>
    consider best (rule.explicitDecision kubernetesNetworkPolicyPriority
      rule.provenance.policyId)) best
  let best :=
    if compatibilityRules.isEmpty then
      (compatibility.filter fun policy => policy.defaultAction != .audit).foldl
        (fun best policy => consider best policy.defaultDecision) best
    else
      best
  best.map fun candidate =>
    (actionVerdict candidate.action, candidate.reason, some candidate.policyId, candidate.ruleId)

/-! ## Evaluation -/

/-- The outcome for a flow. -/
structure PolicyDecision where
  direction : PolicyDirection
  verdict : Verdict
  shadowVerdict : Option Verdict
  shadowReason : Option PolicyReason
  shadowPolicyId : Option PolicyId
  shadowRuleId : Option RuleId
  reason : PolicyReason
  policyId : Option PolicyId
  ruleId : Option RuleId
  audits : List RuleProvenance
  deriving DecidableEq, Repr

def matchingAudits : List RuleProvenance :=
  ((policies.flatMap PolicyIr.rules).filter fun rule =>
    rule.action == .audit && ruleMatches rule flow destinationAddresses).map
      PolicyRule.provenance

/-- The endpoint that the policies of a direction select. -/
def Flow.selectedEndpoint : PolicyDirection → Endpoint
  | .ingress => flow.destination
  | .egress => flow.source

def PolicyIr.applies (direction : PolicyDirection) (endpoint : Endpoint) : Bool :=
  policy.direction == direction && policy.target.matchesEndpoint endpoint

/-- Sort key of the audit list. -/
def RuleProvenance.auditKey (provenance : RuleProvenance) : PolicyId ×ₗ UInt32 :=
  toLex (provenance.policyId, provenance.ruleIndex)

/-- The decision of all policies for a flow. -/
def evaluateForDirectionWithAddresses (direction : PolicyDirection) (flow : Flow)
    (destinationAddresses : DestinationAddresses) : PolicyDecision :=
  let applicable := policies.filter fun policy =>
    policy.applies direction (flow.selectedEndpoint direction)
  let audits := sortByKey RuleProvenance.auditKey
    (matchingAudits applicable flow destinationAddresses)
  let enforced := decideForMode applicable flow destinationAddresses .enforce
  let shadow := decideForMode applicable flow destinationAddresses .shadow
  let (verdict, reason, policyId, ruleId) :=
    enforced.getD (.allow, .noApplicablePolicy, none, none)
  let (shadowVerdict, shadowReason, shadowPolicyId, shadowRuleId) :=
    match shadow with
    | none => (none, none, none, none)
    | some (verdict, reason, policyId, ruleId) =>
      (some verdict, some reason, policyId, ruleId)
  { direction, verdict, shadowVerdict, shadowReason, shadowPolicyId, shadowRuleId,
    reason, policyId, ruleId, audits }

def evaluateForDirection (direction : PolicyDirection) (flow : Flow) : PolicyDecision :=
  evaluateForDirectionWithAddresses policies direction flow {}

def evaluate : PolicyDecision :=
  evaluateForDirection policies .ingress flow

/-! ## Candidates

The scan of `decideForMode` is a running minimum over a list of candidates that
depends on the flow only through the rules that match it. -/

/-- What a native policy contributes when the given rules match. -/
def nativeCandidates (matched : List PolicyRule) : List RankedDecision :=
  let enforcingRules := matched.filter fun rule => rule.action != .audit
  if !enforcingRules.isEmpty then
    enforcingRules.map fun rule => rule.explicitDecision policy.priority policy.id
  else if policy.defaultAction != .audit then
    [policy.defaultDecision]
  else
    []

/-- What the compatibility policies contribute together. -/
def compatibilityCandidates (matched : PolicyIr → List PolicyRule) : List RankedDecision :=
  let compatibilityRules := policies.flatMap matched
  compatibilityRules.map (fun rule =>
    rule.explicitDecision kubernetesNetworkPolicyPriority rule.provenance.policyId) ++
  if compatibilityRules.isEmpty then
    (policies.filter fun policy => policy.defaultAction != .audit).map
      PolicyIr.defaultDecision
  else
    []

/-- All candidates of one mode. -/
def candidates (matched : PolicyIr → List PolicyRule) (mode : PolicyEnforcementMode) :
    List RankedDecision :=
  ((policies.filter fun policy => policy.hasModeAndOrigin mode .native).flatMap
    fun policy => nativeCandidates policy (matched policy)) ++
  compatibilityCandidates
    (policies.filter fun policy => policy.hasModeAndOrigin mode .kubernetesNetworkPolicy) matched

/-- The part of a ranked decision that the evaluator reports. -/
def RankedDecision.outcome : Verdict × PolicyReason × Option PolicyId × Option RuleId :=
  (actionVerdict decision.action, decision.reason, some decision.policyId, decision.ruleId)

private theorem foldl_consider (candidates : List RankedDecision) (best : Option RankedDecision) :
    candidates.foldl consider best = candidates.foldl (keepSmaller RankedDecision.rank) best := by
  congr 1
  funext best candidate
  exact consider_eq_keepSmaller best candidate

private theorem foldl_considerNativePolicy :
    policies.foldl (considerNativePolicy flow destinationAddresses) best =
      (policies.flatMap fun policy => nativeCandidates policy
        (matchedRules flow destinationAddresses policy)).foldl consider best := by
  induction policies generalizing best with
  | nil => rfl
  | cons policy rest ih =>
    rw [foldl_cons, ih, flatMap_cons, foldl_append]
    simp only [considerNativePolicy, nativeCandidates]
    split_ifs
    · rw [foldl_map]
    · rfl
    · rfl

/-- A mode's decision is the least of its candidates. -/
theorem decideForMode_eq :
    decideForMode policies flow destinationAddresses mode = (runningMin RankedDecision.rank
        (candidates policies (matchedRules flow destinationAddresses) mode)).map
          RankedDecision.outcome := by
  have pooled : ∀ pool : List PolicyIr, ((pool.flatMap PolicyIr.rules).filter fun rule =>
        ruleMatches rule flow destinationAddresses) =
      pool.flatMap (matchedRules flow destinationAddresses) := by
    intro pool
    rw [filter_flatMap]
    rfl
  simp only [decideForMode, pooled, foldl_considerNativePolicy, candidates,
    compatibilityCandidates, runningMin]
  rw [← foldl_consider, foldl_append, foldl_append, foldl_map]
  congr 1
  split
  · rw [foldl_map]
  · rfl

variable {candidate : RankedDecision} {mode : PolicyEnforcementMode}

theorem nativeCandidates_wellFormed {policy : PolicyIr} {matched : List PolicyRule}
    (member : candidate ∈ nativeCandidates policy matched) : candidate.WellFormed := by
  simp only [nativeCandidates] at member
  split at member
  · obtain ⟨rule, -, rfl⟩ := mem_map.mp member
    rfl
  · split at member
    · rw [mem_singleton.mp member]
      rfl
    · simp at member

theorem candidates_wellFormed {policies : List PolicyIr} {matched : PolicyIr → List PolicyRule}
    (member : candidate ∈ candidates policies matched mode) : candidate.WellFormed := by
  rcases mem_append.mp member with native | compatibility
  · obtain ⟨policy, -, member⟩ := mem_flatMap.mp native
    exact nativeCandidates_wellFormed member
  · rcases mem_append.mp compatibility with explicit | default
    · obtain ⟨rule, -, rfl⟩ := mem_map.mp explicit
      rfl
    · split at default
      · obtain ⟨policy, -, rfl⟩ := mem_map.mp default
        rfl
      · simp at default

/-- Two sets of policies with the same candidates decide alike. -/
theorem runningMin_candidates_congr {left right : List PolicyIr}
    {leftMatched rightMatched : PolicyIr → List PolicyRule}
    (same : ∀ candidate, candidate ∈ candidates left leftMatched mode ↔
      candidate ∈ candidates right rightMatched mode) :
    runningMin RankedDecision.rank (candidates left leftMatched mode) =
      runningMin RankedDecision.rank (candidates right rightMatched mode) := by
  apply runningMin_congr _ _ same
  intro first firstMember second secondMember
  exact RankedDecision.eq_of_rank_eq (candidates_wellFormed firstMember)
    (candidates_wellFormed secondMember)

end Unf.Policy
