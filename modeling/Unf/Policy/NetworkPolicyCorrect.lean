import Unf.Policy.Compatibility
import Unf.Policy.SelectorCorrectness

/-!
# Correctness of NetworkPolicy compilation

The decision for a Pod's traffic is that of the Kubernetes semantics, unless a
rule admits the traffic only through a peer or port that compilation widens.
-/

namespace Unf.Policy

open Unf.Lib List IdentitySelector PodTraffic CompiledNetworkPolicy Except

/-! ## Rules -/

/-- The part of a rule that decides whether it matches. -/
def RulePattern.matchesFlow (pattern : RulePattern) (flow : Flow)
    (destinationAddresses : DestinationAddresses) : Bool :=
  pattern.source.matchesSource flow.source flow.sourceIpv4 flow.sourceIpv6 &&
    pattern.destination.matchesDestination flow.destination destinationAddresses &&
    pattern.protocol.all (fun value => value == flow.protocol) &&
    pattern.destinationPort.matchesPort flow.destination flow.protocol
      flow.destinationPort

variable (rule : NetworkPolicyRule) (policyNamespace : String) (traffic : PodTraffic)
  {ruleIndex : Nat}

/-- In both directions a compiled rule compares its peer with the other end and
its target with the Pod. -/
theorem compatibilityPattern_matchesFlow (target peer : IdentitySelector) (port : PortTuple) :
    (compatibilityPattern traffic.direction target peer port).matchesFlow traffic.flow
        traffic.destinationAddresses = true ↔ target.matchesAddressed traffic.pod.endpoint
          (traffic.podAddress.bind PeerAddress.toIpv4)
          (traffic.podAddress.bind PeerAddress.toIpv6) = true ∧
        peer.matchesAddressed traffic.other.endpoint traffic.otherAddress.toIpv4
          traffic.otherAddress.toIpv6 = true ∧
        port.1.all (fun value => value == traffic.protocol) = true ∧
        port.2.matchesPort traffic.destination traffic.protocol traffic.port = true := by
  obtain ⟨direction, pod, podAddress, other, otherAddress, protocol, number⟩ := traffic
  cases direction with
  | ingress =>
    simp only [RulePattern.matchesFlow, Bool.and_eq_true, and_assoc]
    exact and_left_comm
  | egress =>
    simp only [compatibilityPattern, RulePattern.matchesFlow, flow, destinationAddresses,
      destination, matchesSource, matchesDestination, Bool.and_eq_true, and_assoc]

namespace NetworkPolicyRule

/-- What a rule admits once compiled: a peer that selects every namespace also
admits the outside, and a full port range also admits port zero. -/
def AdmitsWidened : Prop :=
  EmptyOrSome rule.peers (fun peer =>
    peer.Matches policyNamespace traffic.other traffic.otherAddress ∨
      traffic.other = .external ∧ peer.SelectsEveryNamespace) ∧
  EmptyOrSome rule.ports fun port =>
    port.Matches traffic.destination traffic.protocol traffic.port ∨
      port.IsFullRange traffic.protocol ∧ traffic.port = 0

end NetworkPolicyRule

private theorem emptyOrSome_iff_zipIdx {α : Type} {items : Option (List α)}
    {holds : α → Prop} (nonempty : ¬(items.getD []).isEmpty = true) :
    EmptyOrSome items holds ↔ ∃ entry ∈ (items.getD []).zipIdx, holds entry.1 := by
  rw [exists_mem_zipIdx_iff, EmptyOrSome, or_iff_right]
  simpa using nonempty

theorem peerSelectors_match {peers : Option (List NetworkPolicyPeer)}
    {policyNamespace : String} {selectors : List IdentitySelector}
    (compiled : peerSelectors peers policyNamespace ruleIndex = .ok selectors)
    (other : OtherEnd) (address : PeerAddress) :
    (∃ selector ∈ selectors, selector.matchesAddressed other.endpoint address.toIpv4
        address.toIpv6 = true) ↔
      EmptyOrSome peers fun peer => peer.Matches policyNamespace other address ∨
        other = .external ∧ peer.SelectsEveryNamespace := by
  simp only [peerSelectors] at compiled
  split at compiled
  next empty =>
    obtain rfl := ok.inj compiled
    have everything : unconstrained.matchesAddressed other.endpoint
        address.toIpv4 address.toIpv6 = true :=
      (matchesAddressed_of_no_blocks rfl rfl other.endpoint (some address)).mpr
        ⟨.inr (by simp [isUnconstrained, unconstrained]), by simp [matchesEndpoint, unconstrained]⟩
    simp [EmptyOrSome, isEmpty_iff.mp empty, everything]
  next nonempty =>
    rw [emptyOrSome_iff_zipIdx nonempty]
    exact exists_mem_mapM_iff (fun entry _ selector entryCompiled =>
      peerSelector_matches entryCompiled other address) compiled

theorem ports_match {policyPorts : Option (List NetworkPolicyPort)}
    {tuples : List PortTuple} (compiled : ports policyPorts ruleIndex = .ok tuples)
    (destination : Endpoint) (protocol : Protocol) (number : UInt16) :
    (∃ tuple ∈ tuples, tuple.1.all (fun value => value == protocol) = true ∧
        tuple.2.matchesPort destination protocol number = true) ↔
      EmptyOrSome policyPorts fun port => port.Matches destination protocol number ∨
        port.IsFullRange protocol ∧ number = 0 := by
  simp only [ports] at compiled
  split at compiled
  next empty =>
    obtain rfl := ok.inj compiled
    simp [EmptyOrSome, isEmpty_iff.mp empty, DestinationPort.matchesPort]
  next nonempty =>
    rw [emptyOrSome_iff_zipIdx nonempty]
    exact exists_mem_mapM_iff (fun entry _ tuple entryCompiled =>
      portTuple_matches entryCompiled destination protocol number) compiled

/-! ## Objects -/

private theorem policyDirections_ok {policyTypes : Option (List String)}
    {egress : Option (List NetworkPolicyRule)} {directions : PolicyDirections}
    (compiled : policyDirections policyTypes egress = .ok directions) :
    (directions.ingress = true ↔ policyTypes.getD [] = [] ∨ "Ingress" ∈ policyTypes.getD []) ∧
    (directions.egress = true ↔ policyTypes.getD [] = [] ∧ egress.getD [] ≠ [] ∨
        "Egress" ∈ policyTypes.getD []) := by
  rw [policyDirections] at compiled
  split at compiled
  next omitted =>
    obtain rfl := ok.inj compiled
    have empty : policyTypes.getD [] = [] := by
      cases policyTypes <;> simp_all
    cases egress <;> simp [empty]
  next listed =>
    have nonempty : policyTypes.getD [] ≠ [] := by
      cases policyTypes <;> simp_all
    -- The loop only ever sets a flag, when it meets the name of its direction.
    suffices scan : ∀ (types : List String) (before after : PolicyDirections),
        types.foldlM includePolicyType before = .ok after →
        (after.ingress = true ↔ before.ingress = true ∨ "Ingress" ∈ types) ∧
          (after.egress = true ↔ before.egress = true ∨ "Egress" ∈ types) by
      simpa [nonempty] using scan _ _ _ compiled
    intro types
    induction types with
    | nil =>
      intro before after computed
      obtain rfl := ok.inj computed
      simp
    | cons policyType rest ih =>
      intro before after computed
      rw [foldlM_cons, bind_eq_ok] at computed
      obtain ⟨middle, step, restComputed⟩ := computed
      obtain ⟨ingress, egress⟩ := ih middle after restComputed
      rw [ingress, egress]
      rw [includePolicyType] at step
      split_ifs at step with isIngress isEgress
      · obtain rfl := ok.inj step
        simp [beq_iff_eq.mp isIngress]
      · obtain rfl := ok.inj step
        simp [beq_iff_eq.mp isEgress]

namespace CompiledNetworkPolicy

variable {policyId : PolicyId} {object : NetworkPolicy}
  (result : CompiledNetworkPolicy policyId object)

include result

theorem includes_iff (direction : PolicyDirection) :
    result.directions.includes direction = true ↔ result.spec.HasDirection direction := by
  obtain ⟨ingress, egress⟩ := policyDirections_ok result.directions_eq
  cases direction with
  | ingress => exact ingress
  | egress => exact egress

/-- The target is a selector on namespace and labels alone. -/
theorem target_shape :
    ∃ expressions, labelExpressions "podSelector"
        (result.spec.podSelector.getD ⟨none, none⟩) = .ok expressions ∧
      result.target = { unconstrained with
        «namespace» := some result.namespace
        matchLabels := (result.spec.podSelector.getD ⟨none, none⟩).matchLabels.getD ∅
        matchExpressions := expressions } := by
  obtain ⟨expressions, expressionsCompiled, returned⟩ := bind_eq_ok.mp result.target_eq
  exact ⟨expressions, expressionsCompiled, (ok.inj returned).symm⟩

/-- The compiled target selects a Pod exactly when the object isolates it. -/
theorem isolates_iff (direction : PolicyDirection) (pod : Pod) :
    object.Isolates direction pod ↔ result.directions.includes direction = true ∧
      result.target.matchesEndpoint pod.endpoint = true := by
  obtain ⟨expressions, expressionsCompiled, target⟩ := result.target_shape
  have selects : (∀ selector ∈ result.spec.podSelector, selector.Selects pod.endpoint.labels) ↔
      (result.spec.podSelector.getD ⟨none, none⟩).Selects pod.endpoint.labels := by
    cases result.spec.podSelector <;> simp [LabelSelector.Selects]
  rw [result.includes_iff, target, matchesEndpoint_iff rfl rfl]
  simp only [selects_iff expressionsCompiled, NetworkPolicy.Isolates, result.spec_eq,
    Option.some_inj, exists_eq_left', result.namespace_eq, selects, unconstrained, Option.all_some,
    beq_iff_eq, matchesAllLabels_empty, all_nil, and_true]

/-- Some compiled rule matches a selected Pod's traffic exactly when some rule of
the object admits it, after widening. -/
theorem exists_ruleMatches_iff (traffic : PodTraffic)
    (included : result.directions.includes traffic.direction = true)
    (selected : result.target.matchesEndpoint traffic.pod.endpoint = true) :
    (∃ rule ∈ result.rules traffic.direction,
        ruleMatches rule traffic.flow traffic.destinationAddresses = true) ↔
      object.HasRule traffic.direction fun «namespace» rule =>
        rule.AdmitsWidened «namespace» traffic := by
  have targetMatches : result.target.matchesAddressed traffic.pod.endpoint
      (traffic.podAddress.bind PeerAddress.toIpv4)
      (traffic.podAddress.bind PeerAddress.toIpv6) = true := by
    obtain ⟨expressions, -, target⟩ := result.target_shape
    refine (matchesAddressed_of_no_blocks ?_ ?_ _ _).mpr ⟨.inl traffic.pod.identified, selected⟩
    · rw [target]
      rfl
    · rw [target]
      rfl
  refine (result.exists_rule_iff included
    (fun _ pattern => pattern.matchesFlow traffic.flow traffic.destinationAddresses = true)
    (fun rule => rule.AdmitsWidened result.namespace traffic) ?_).trans ?_
  · intro rule _ ruleIndex selectors tuples peersCompiled portsCompiled
    simp only [compatibilityPattern_matchesFlow, targetMatches, true_and,
      NetworkPolicyRule.AdmitsWidened, ← peerSelectors_match peersCompiled,
      ← ports_match portsCompiled]
    constructor
    · rintro ⟨peer, peerMember, port, portMember, peerMatches, portMatches⟩
      exact ⟨⟨peer, peerMember, peerMatches⟩, ⟨port, portMember, portMatches⟩⟩
    · rintro ⟨⟨peer, peerMember, peerMatches⟩, ⟨port, portMember, portMatches⟩⟩
      exact ⟨peer, peerMember, port, portMember, peerMatches, portMatches⟩
  · simp [NetworkPolicy.HasRule, result.namespace_eq, result.spec_eq]

end CompiledNetworkPolicy

/-! ## Sets of objects -/

section Decision

variable {objects : List (PolicyId × NetworkPolicy)} {policies : List PolicyIr}
  (compiled : compileNetworkPolicies objects = .ok policies)

include compiled

private theorem applicable_isCompatibility (direction : PolicyDirection) (endpoint : Endpoint) :
    ∀ policy ∈ applicablePolicies policies direction endpoint, policy.IsCompatibility := by
  intro policy member
  exact (forall_mem_compileNetworkPolicies compiled
    fun _ _ result _ included => result.isCompatibility included) policy (mem_of_mem_filter member)

private theorem isolated_iff (traffic : PodTraffic) :
    applicablePolicies policies traffic.direction traffic.pod.endpoint ≠ [] ↔
      ∃ object ∈ objects.map Prod.snd, object.Isolates traffic.direction traffic.pod := by
  rw [← exists_mem_compileNetworkPolicies_iff compiled
    (fun policy => policy.applies traffic.direction traffic.pod.endpoint = true)
    (fun object => object.Isolates traffic.direction traffic.pod)]
  · simp [applicablePolicies]
  · intro policyId object result
    rw [result.isolates_iff]
    simp [PolicyIr.applies, policy, compatibilityPolicyIr]

private theorem admitted_iff (traffic : PodTraffic) :
    (applicablePolicies policies traffic.direction traffic.pod.endpoint).flatMap
        (matchedRules traffic.flow traffic.destinationAddresses) ≠ [] ↔
      ∃ object ∈ objects.map Prod.snd, object.Isolates traffic.direction traffic.pod ∧
        object.HasRule traffic.direction fun «namespace» rule =>
          rule.AdmitsWidened «namespace» traffic := by
  rw [← exists_mem_compileNetworkPolicies_iff compiled
    (fun policy => policy.applies traffic.direction traffic.pod.endpoint = true ∧
      ∃ rule ∈ policy.rules, ruleMatches rule traffic.flow traffic.destinationAddresses = true)
    (fun object => object.Isolates traffic.direction traffic.pod ∧
      object.HasRule traffic.direction fun «namespace» rule =>
        rule.AdmitsWidened «namespace» traffic)]
  · simp only [applicablePolicies, matchedRules, ne_eq, flatMap_eq_nil_iff,
      mem_filter, filter_eq_nil_iff]
    push Not
    simp only [and_assoc]
  · intro policyId object result
    rw [result.isolates_iff]
    constructor
    · rintro ⟨direction, included, applies, matching⟩
      obtain ⟨rfl, selected⟩ : direction = traffic.direction ∧
          result.target.matchesEndpoint traffic.pod.endpoint = true := by
        simpa [PolicyIr.applies, policy, compatibilityPolicyIr] using applies
      exact ⟨⟨included, selected⟩,
        (result.exists_ruleMatches_iff traffic included selected).mp matching⟩
    · rintro ⟨⟨included, selected⟩, admits⟩
      refine ⟨traffic.direction, included, ?_,
        (result.exists_ruleMatches_iff traffic included selected).mpr admits⟩
      simpa [PolicyIr.applies, policy, compatibilityPolicyIr] using selected

omit compiled

theorem PodTraffic.selectedEndpoint_flow (traffic : PodTraffic) :
    traffic.flow.selectedEndpoint traffic.direction = traffic.pod.endpoint := by
  obtain ⟨direction, _⟩ := traffic
  cases direction <;> rfl

include compiled in
/-- The evaluator allows a Pod's traffic when nothing isolates the Pod or a rule
admits it after widening. -/
theorem evaluate_verdict_iff (traffic : PodTraffic) :
    (evaluateForDirectionWithAddresses policies traffic.direction traffic.flow
        traffic.destinationAddresses).verdict = .allow ↔
      (∀ object ∈ objects.map Prod.snd, ¬object.Isolates traffic.direction traffic.pod) ∨
      ∃ object ∈ objects.map Prod.snd, object.Isolates traffic.direction traffic.pod ∧
        object.HasRule traffic.direction fun «namespace» rule =>
          rule.AdmitsWidened «namespace» traffic := by
  have value := value_evaluate policies traffic.direction traffic.flow
    traffic.destinationAddresses
  rw [traffic.selectedEndpoint_flow,
    decidedValue_compatibility (applicable_isCompatibility compiled _ _)
      fun policy _ => matchedRules_subset _ _ policy] at value
  have notIsolated : (∀ object ∈ objects.map Prod.snd,
      ¬object.Isolates traffic.direction traffic.pod) ↔
      applicablePolicies policies traffic.direction traffic.pod.endpoint = [] := by
    rw [← not_ne_iff, isolated_iff compiled]
    push Not
    rfl
  rw [← admitted_iff compiled, notIsolated, ← compatibilityValue_verdict, ← value]
  rfl

end Decision

/-! ## Agreement with Kubernetes -/

/-- The rule admits the traffic through a peer or a port that compilation
widens: a peer that selects every namespace, for an end outside the cluster, or
a full port range, for port zero. -/
def NetworkPolicyRule.AdmitsThroughWidening : Prop :=
  rule.AdmitsWidened policyNamespace traffic ∧
    ((traffic.other = .external ∧ ∃ peer ∈ rule.peers.getD [], peer.SelectsEveryNamespace) ∨
      (traffic.port = 0 ∧ ∃ port ∈ rule.ports.getD [], port.IsFullRange traffic.protocol))

private theorem admitsWidened_iff : rule.AdmitsWidened policyNamespace traffic ↔
      rule.Admits policyNamespace traffic ∨ rule.AdmitsThroughWidening policyNamespace traffic := by
  constructor
  · intro admits
    by_cases widened : (traffic.other = .external ∧
        ∃ peer ∈ rule.peers.getD [], peer.SelectsEveryNamespace) ∨
      (traffic.port = 0 ∧ ∃ port ∈ rule.ports.getD [], port.IsFullRange traffic.protocol)
    · exact .inr ⟨admits, widened⟩
    · refine .inl ⟨?_, ?_⟩
      · rcases admits.1 with empty | ⟨peer, member, given | ⟨outside, every⟩⟩
        · exact .inl empty
        · exact .inr ⟨peer, member, given⟩
        · exact absurd (.inl ⟨outside, peer, member, every⟩) widened
      · rcases admits.2 with empty | ⟨port, member, given | ⟨full, zero⟩⟩
        · exact .inl empty
        · exact .inr ⟨port, member, given⟩
        · exact absurd (.inr ⟨zero, port, member, full⟩) widened
  · rintro (⟨peers, ports⟩ | ⟨admits, -⟩)
    · exact ⟨peers.imp_right fun ⟨peer, member, given⟩ => ⟨peer, member, .inl given⟩,
        ports.imp_right fun ⟨port, member, given⟩ => ⟨port, member, .inl given⟩⟩
    · exact admits

/-- Traffic that an isolating object admits through widening. -/
def AdmittedThroughWidening (objects : List NetworkPolicy) (traffic : PodTraffic) : Prop :=
  ∃ object ∈ objects, object.Isolates traffic.direction traffic.pod ∧
    object.HasRule traffic.direction fun «namespace» rule =>
      rule.AdmitsThroughWidening «namespace» traffic

/-- The decision agrees with Kubernetes exactly when whatever is admitted through
widening is allowed by Kubernetes anyway. -/
theorem evaluate_agrees_with_kubernetes_iff {objects : List (PolicyId × NetworkPolicy)}
    {policies : List PolicyIr}
    (compiled : compileNetworkPolicies objects = .ok policies) (traffic : PodTraffic) :
    ((evaluateForDirectionWithAddresses policies traffic.direction traffic.flow
        traffic.destinationAddresses).verdict = .allow ↔
      KubernetesAllows (objects.map Prod.snd) traffic) ↔
      (AdmittedThroughWidening (objects.map Prod.snd) traffic →
        KubernetesAllows (objects.map Prod.snd) traffic) := by
  have characterised : (evaluateForDirectionWithAddresses policies traffic.direction
      traffic.flow traffic.destinationAddresses).verdict = .allow ↔
      KubernetesAllows (objects.map Prod.snd) traffic ∨
        AdmittedThroughWidening (objects.map Prod.snd) traffic := by
    rw [evaluate_verdict_iff compiled, KubernetesAllows, AdmittedThroughWidening, or_assoc]
    simp only [NetworkPolicy.HasRule, admitsWidened_iff, and_or_left, exists_or]
  rw [characterised]
  exact or_iff_left_iff_imp

/-- An ingress policy whose only peer selects all Pods of all namespaces. -/
def allNamespacesPolicy : NetworkPolicy where
  name := some "from-every-namespace"
  «namespace» := some "apps"
  spec := some {
    podSelector := none
    policyTypes := none
    ingress := some [{
      peers := some [{
        ipBlock := none
        namespaceSelector := some ⟨none, none⟩
        podSelector := none }]
      ports := none }]
    egress := none }

def appsPod : Pod where
  endpoint := {
    identity := ⟨7⟩
    «namespace» := "apps"
    namespaceLabels := (∅ : Labels).insert namespaceNameLabel "apps"
    serviceAccount := "default"
    application := none
    labels := ∅
    namedPorts := ∅ }
  identified := by decide
  namespaceNamed := by simp

/-- Traffic that reaches the Pod from a given end. -/
def trafficToAppsPod (other : OtherEnd) : PodTraffic where
  direction := .ingress
  pod := appsPod
  podAddress := none
  other := other
  otherAddress := .ipv4 0xc6336407
  protocol := .tcp
  port := 443

/-- Pods of the cluster are treated as Kubernetes treats them. -/
theorem evaluate_agrees_for_appsPod :
    ∃ policies, compileNetworkPolicies [(⟨1⟩, allNamespacesPolicy)] = .ok policies ∧
      ((evaluateForDirectionWithAddresses policies .ingress
          (trafficToAppsPod (.pod appsPod)).flow {}).verdict = .allow ↔
        KubernetesAllows [allNamespacesPolicy] (trafficToAppsPod (.pod appsPod))) := by
  refine ⟨_, rfl, (@evaluate_agrees_with_kubernetes_iff [(⟨1⟩, allNamespacesPolicy)] _
    rfl (trafficToAppsPod (.pod appsPod))).mpr ?_⟩
  rintro ⟨object, -, -, «namespace», spec, -, -, rule, -, -, ⟨⟨⟩, -⟩ | ⟨⟨⟩, -⟩⟩

/-- The evaluator also allows the outside of the cluster, which Kubernetes
denies. -/
theorem evaluate_allows_external_to_appsPod :
    ∃ policies, compileNetworkPolicies [(⟨1⟩, allNamespacesPolicy)] = .ok policies ∧
      (evaluateForDirectionWithAddresses policies .ingress
        (trafficToAppsPod .external).flow {}).verdict = .allow ∧
      ¬KubernetesAllows [allNamespacesPolicy] (trafficToAppsPod .external) := by
  refine ⟨_, rfl, by decide +kernel, ?_⟩
  rintro (notIsolated | ⟨object, member, -, «namespace», spec, -, given, rule,
    ruleMember, peers, -⟩)
  · refine notIsolated allNamespacesPolicy mem_cons_self ⟨_, rfl, .inl rfl, rfl, ?_⟩
    simp
  · obtain rfl := mem_singleton.mp member
    obtain rfl := Option.some.inj given
    obtain rfl := mem_singleton.mp ruleMember
    rcases peers with empty | ⟨peer, peerMember, admits⟩
    · simp at empty
    · obtain rfl := mem_singleton.mp peerMember
      rcases admits with ⟨absent, -⟩ | ⟨pod, ⟨⟩, -⟩
      simp at absent

end Unf.Policy
