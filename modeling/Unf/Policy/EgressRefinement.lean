import Unf.Policy.IngressRefinement

/-!
# Egress lowering refines evaluation

The IPv4 maps written by the egress compiler decide as evaluation does.  The IPv6
maps are searched tuple by tuple before prefixes are compared, so a wider prefix
answers for a narrower one that lacks the tuple; the decision is the evaluated one
exactly when the two are matched by the same least rule.
-/

namespace Unf.Policy

open Std (ExtTreeMap ExtTreeSet)
open Unf.Lib List Option

/-! ## Policies that apply -/

/-- The policy is one of those compiled from some NetworkPolicy object. -/
def PolicyIr.FromNetworkPolicy (policy : PolicyIr) : Prop :=
  ∃ policyId object policies, compileDirections policyId object = .ok policies ∧
    policy ∈ policies

theorem PolicyIr.FromNetworkPolicy.lowerable {policy : PolicyIr}
    (compiled : policy.FromNetworkPolicy) : policy.Lowerable := by
  obtain ⟨policyId, object, policies, compiled, member⟩ := compiled
  exact (PolicyIr.Compiled.networkPolicy compiled member).lowerable

theorem PolicyIr.FromNetworkPolicy.isCompatibility {policy : PolicyIr}
    (compiled : policy.FromNetworkPolicy) : policy.IsCompatibility := by
  obtain ⟨policyId, object, policies, compiled, member⟩ := compiled
  obtain ⟨result, mem_iff⟩ := compileDirections_ok compiled
  obtain ⟨direction, included, rfl⟩ := (mem_iff policy).mp member
  exact result.isCompatibility included

section Egress

variable {policies : List PolicyIr} {source destination : Endpoint}
  {destinationAddresses : DestinationAddresses}

theorem tierValue_managed_of_isTargeted (compiled : ∀ policy ∈ policies, policy.FromNetworkPolicy)
    (egress : ∀ policy ∈ policies, policy.direction = .egress)
    (targeted : isTargeted policies source = true) (key : TierKey Protocol UInt16) :
    ((egressView policies source destination destinationAddresses).tierValue
      key).managed = true := by
  obtain ⟨policy, member, target⟩ := List.any_eq_true.mp targeted
  have applies : policy ∈ applicablePolicies policies .egress source :=
    List.mem_filter.mpr ⟨member, by simp [PolicyIr.applies, egress policy member, target]⟩
  exact decidedValue_managed_of_isCompatibility applies (compiled policy member).isCompatibility _

/-- Sources that no policy selects are not decided about. -/
theorem valueAt_of_not_isTargeted (untargeted : ¬isTargeted policies source = true)
    (protocol : Protocol) (port : UInt16) :
    (egressView policies source destination destinationAddresses).valueAt protocol port =
      .unmanaged := by
  have noPolicy : (egressView policies source destination destinationAddresses).policies = [] := by
    refine filter_eq_nil_iff.mpr fun policy member applies => ?_
    exact untargeted (List.any_eq_true.mpr ⟨policy, member, (Bool.and_eq_true_iff.mp applies).2⟩)
  rw [PairView.valueAt, noPolicy]
  rfl

/-! ## The IPv4 map -/

theorem egressView_fallback {ipv4Endpoints : List Ipv4Endpoint} {addresses : ExtTreeSet Ipv4Addr}
    {address : Ipv4Addr} (lowerable : ∀ policy ∈ policies, policy.Lowerable)
    (lists : ListsAddresses ipv4Endpoints (ipv4DestinationBlocks policies) addresses)
    (nonzero : address ≠ 0) (unlisted : address ∉ addresses) (protocol : Protocol) (port : UInt16) :
    (egressView policies source destination
        { ipv4 := fallbackAddress (ipv4DestinationBlocks policies) addresses }).valueAt
          protocol port =
      (egressView policies source destination { ipv4 := some address }).valueAt protocol
        port := by
  apply PairView.valueAt_congr_reaches
  intro policy applies rule ruleMember
  congr 1
  exact matchesAddressed_of_unlisted
    (fun policy member => (lowerable policy member).destinationBlocks) rfl lists nonzero
    unlisted (mem_of_mem_filter applies) ruleMember destination

end Egress

/-- The lookup for an IPv4 destination returns the evaluated decision. -/
theorem lookupEgressPolicy_ipv4_eq {policies : List PolicyIr} {endpoints : List Endpoint}
    {ipv4Endpoints : List Ipv4Endpoint} {entries : List EgressIpv4PolicyMapEntry}
    {maps : EgressMaps} (compiled : ∀ policy ∈ policies, policy.FromNetworkPolicy)
    (identities : ∀ endpoint ∈ endpoints, endpoint.identity.get ≠ 0)
    (namesNonzero : ∀ item ∈ ipv4Endpoints, item.endpoint.NamesNonzeroPorts)
    (unspecified : ∀ endpoint, ⟨0, endpoint⟩ ∉ ipv4Endpoints)
    (ipv4Compiled : compileEgressIpv4DataplaneEntries policies endpoints ipv4Endpoints =
      .ok entries) (ipv4Map : maps.ipv4 = installEntries entries)
    {source : Endpoint} (sourceMember : source ∈ endpoints)
    {address : Ipv4Addr} (nonzero : address ≠ 0) {destination : Endpoint}
    (registered : RegisteredAt ipv4Endpoints address destination)
    (protocol : Protocol) {port : UInt16} (portNonzero : port ≠ 0) :
    (lookupEgressPolicy maps (some address) none source.identity port
        protocol.number).getD .unmanaged = (evaluateForDirectionWithAddresses policies .egress
        (dataplaneFlow source destination protocol port) { ipv4 := some address }).value := by
  have lowerable := fun policy member => (compiled policy member).lowerable
  have wellFormed := transportsWellFormed_of_lowerable lowerable
  have egress := direction_of_ensured ipv4Compiled
  obtain ⟨known, addresses, knownBuilt, lists, stores⟩ :=
    compileEgressIpv4DataplaneEntries_ok wellFormed namesNonzero unspecified ipv4Compiled
  have destinationAt := registered.endpointAt_eq knownBuilt
  have namesAt := endpointAt_namesNonzeroPorts knownBuilt namesNonzero
  have zeroFree := lists.zero_notMem unspecified
  -- No entry belongs to the identity of a node.
  have nodeFree : (installEntries entries)[EgressIpv4PolicyMapKey.mk ⟨0⟩ address 0 0]? =
      none := by
    apply stores.getElem?_eq_none
    rintro ⟨endpoint, other⟩ member number otherPort equal
    simp only [egressIpv4Key, EgressIpv4PolicyMapKey.mk.injEq] at equal
    exact identities endpoint member (by rw [equal.1])
  have value_eq : (evaluateForDirectionWithAddresses policies .egress
      (dataplaneFlow source destination protocol port) { ipv4 := some address }).value =
      (egressView policies source destination { ipv4 := some address }).valueAt protocol
        port :=
    value_evaluate_eq_valueAt policies .egress _ _
  have searched : lookupEgressIpv4 maps source.identity port protocol.number address =
      (installedTiers entries (egressIpv4Key (source, address)) protocol port).or
        (installedTiers entries (egressIpv4Key (source, 0)) protocol port) := by
    rw [lookupEgressIpv4, ipv4Map, nodeFree]
    rfl
  have atListed (listed : address ∈ addresses) :
      installedTiers entries (egressIpv4Key (source, address)) protocol port =
        (some ((egressView policies source destination { ipv4 := some address }).valueAt protocol
          port)).filter PolicyValue.managed := by
    rw [← destinationAt]
    exact stores.installedTiers_some (source, address) sourceMember protocol portNonzero
      (if_pos listed) (egressPair_lowers wellFormed source _ _) (namesAt address)
  have atUnlisted (unlisted : address ∉ addresses) :
      installedTiers entries (egressIpv4Key (source, address)) protocol port = none := by
    apply stores.installedTiers_none (source, address) sourceMember protocol portNonzero
    rw [egressIpv4PairAt, if_neg unlisted, if_neg fun both => nonzero both.1]
  simp only [lookupEgressPolicy, identities source sourceMember, if_false, bind_some,
    bind_none, or_none, searched, value_eq]
  by_cases targeted : isTargeted policies source = true
  · have managed : ((egressView policies source destination
        { ipv4 := some address }).valueAt protocol port).managed = true :=
      tierValue_managed_of_isTargeted compiled egress targeted (.exact protocol port)
    by_cases listed : address ∈ addresses
    · rw [atListed listed, filter_managed managed, some_or, getD_some]
    · obtain rfl := lists.eq_external listed registered
      have placed : egressIpv4PairAt policies known addresses (source, 0) = some _ :=
        (if_neg zeroFree).trans (if_pos ⟨rfl, targeted⟩)
      rw [atUnlisted listed, none_or, stores.installedTiers_some (source, 0) sourceMember protocol
        portNonzero placed (egressPair_lowers wellFormed source _ _)
        externalEndpoint_namesNonzeroPorts, egressView_fallback lowerable lists nonzero listed,
        filter_managed managed, getD_some]
  · have noEntry : installedTiers entries (egressIpv4Key (source, address)) protocol port =
        none := by
      by_cases listed : address ∈ addresses
      · rw [atListed listed, valueAt_of_not_isTargeted targeted]
        rfl
      · exact atUnlisted listed
    have noFallback : egressIpv4PairAt policies known addresses (source, 0) = none := by
      rw [egressIpv4PairAt, if_neg zeroFree, if_neg fun both => targeted both.2]
    rw [noEntry, stores.installedTiers_none (source, 0) sourceMember protocol portNonzero
      noFallback, valueAt_of_not_isTargeted targeted]
    rfl

/-! ### Named ports -/

/-- The maps written for the given policies and endpoints. -/
def egressMaps (policies : List PolicyIr) (endpoints : List Endpoint)
    (ipv4Endpoints : List Ipv4Endpoint) (ipv6Endpoints : List Ipv6Endpoint) :
    EgressMaps where
  ipv4 := installEntries
    (entriesOf (compileEgressIpv4DataplaneEntries policies endpoints ipv4Endpoints))
  ipv6 := installEntries
    (entriesOf (compileEgressIpv6DataplaneEntries policies endpoints ipv6Endpoints))

theorem egressMaps_ipv6 (policies : List PolicyIr) (endpoints : List Endpoint)
    (ipv4Endpoints : List Ipv4Endpoint) (ipv6Endpoints : List Ipv6Endpoint) :
    (egressMaps policies endpoints ipv4Endpoints ipv6Endpoints).ipv6 = installEntries
      (entriesOf (compileEgressIpv6DataplaneEntries policies endpoints ipv6Endpoints)) :=
  rfl

/-- A policy that lets the workloads of `apps` out through one port only. -/
def egressObject (peers : Option (List NetworkPolicyPeer)) (port : IntOrString) :
    NetworkPolicy where
  name := some "restricted-egress"
  «namespace» := some "apps"
  spec := some {
    podSelector := none
    policyTypes := some ["Egress"]
    ingress := none
    egress := some [{ peers := peers, ports := some [⟨some "TCP", some port, none⟩] }] }

def egressPolicies (peers : Option (List NetworkPolicyPeer)) (port : IntOrString) :
    List PolicyIr :=
  (compileDirections ⟨1⟩ (egressObject peers port)).toOption.getD []

theorem egressPolicies_fromNetworkPolicy {peers : Option (List NetworkPolicyPeer)}
    {port : IntOrString}
    (succeeds : (compileDirections ⟨1⟩ (egressObject peers port)).isOk = true) :
    ∀ policy ∈ egressPolicies peers port, policy.FromNetworkPolicy := by
  intro policy member
  refine ⟨⟨1⟩, egressObject peers port, egressPolicies peers port, ?_, member⟩
  rw [egressPolicies]
  cases compiled : compileDirections ⟨1⟩ (egressObject peers port) with
  | error failure => simp [compiled, Except.toBool] at succeeds
  | ok policies => rfl

/-- A workload whose metrics are served at the given port. -/
def metricsWorkload (port : UInt16) : Endpoint :=
  { workload 5 "batch" with
    namedPorts := (∅ : ExtTreeMap NamedPort UInt16).insert ⟨"metrics", .tcp⟩ port }

theorem metricsWorkload_namesNonzeroPorts {port : UInt16} (nonzero : port ≠ 0) :
    (metricsWorkload port).NamesNonzeroPorts := by
  intro namedPort other found
  simp only [metricsWorkload, ExtTreeMap.getElem?_insert] at found
  split at found
  · exact Option.some.inj found ▸ nonzero
  · simp at found

/-- The named port is open as evaluation decides. -/
theorem lookupEgressPolicy_ipv4_of_metrics :
    (lookupEgressPolicy (egressMaps (egressPolicies none (.string "metrics"))
        [workload 7 "apps"] [⟨0x0a000005, metricsWorkload 9090⟩] [])
        (some 0x0a000005) none (workload 7 "apps").identity 9090
          Protocol.tcp.number).getD .unmanaged =
      (evaluateForDirectionWithAddresses (egressPolicies none (.string "metrics")) .egress
        (dataplaneFlow (workload 7 "apps") (metricsWorkload 9090) .tcp 9090)
        { ipv4 := some 0x0a000005 }).value := by
  have succeeds : (compileEgressIpv4DataplaneEntries (egressPolicies none (.string "metrics"))
      [workload 7 "apps"] [⟨0x0a000005, metricsWorkload 9090⟩]).isOk = true := by
    decide +kernel
  have compiled := egressPolicies_fromNetworkPolicy
    (show (compileDirections ⟨1⟩ (egressObject none (.string "metrics"))).isOk = true by
      decide +kernel)
  have identities : ∀ endpoint ∈ [workload 7 "apps"], endpoint.identity.get ≠ 0 := by
    decide
  have namesNonzero : ∀ item ∈ [AddressedEndpoint.mk (0x0a000005 : Ipv4Addr)
      (metricsWorkload 9090)], item.endpoint.NamesNonzeroPorts := by
    simpa using metricsWorkload_namesNonzeroPorts (by decide)
  have registered : RegisteredAt [⟨0x0a000005, metricsWorkload 9090⟩]
      (0x0a000005 : Ipv4Addr) (metricsWorkload 9090) := .inl mem_cons_self
  exact lookupEgressPolicy_ipv4_eq compiled identities namesNonzero (by simp)
    (eq_ok_entriesOf succeeds) rfl mem_cons_self (by decide) registered .tcp (by decide)

/-- A named port of zero shares its key with the whole protocol, so every port of
the protocol is opened. -/
theorem lookupEgressPolicy_ipv4_differs :
    (compileDirections ⟨1⟩ (egressObject none (.string "metrics"))).isOk = true ∧
    (compileEgressIpv4DataplaneEntries (egressPolicies none (.string "metrics"))
      [workload 7 "apps"] [⟨0x0a000005, metricsWorkload 0⟩]).isOk = true ∧
    ((lookupEgressPolicy (egressMaps (egressPolicies none (.string "metrics"))
      [workload 7 "apps"] [⟨0x0a000005, metricsWorkload 0⟩] []) (some 0x0a000005) none
        ⟨7⟩ 443 6).getD .unmanaged).decision.verdict = .allow ∧
    (evaluateForDirectionWithAddresses (egressPolicies none (.string "metrics")) .egress
      (dataplaneFlow (workload 7 "apps") (metricsWorkload 0) .tcp 443)
        { ipv4 := some 0x0a000005 }).verdict = .deny := by
  refine ⟨?_, ?_, ?_, ?_⟩ <;> decide +kernel

/-! ## The IPv6 map -/

instance (considered : List PolicyRule) (destination : Endpoint) :
    ∀ key : TierKey Protocol UInt16, Decidable (TierDefined considered destination key)
  | .global => inferInstanceAs (Decidable True)
  | .wide _ => inferInstanceAs (Decidable (_ ∨ _))
  | .exact _ _ => inferInstanceAs (Decidable (_ ∧ _))

section Ipv6

variable (policies : List PolicyIr) (known : ExtTreeMap Ipv6Addr Endpoint) (source : Endpoint)

/-- The prefixes that the egress map distinguishes. -/
def egressBoundaries : List Ipv6Cidr :=
  ipv6Boundaries (ipv6DestinationBlocks policies) known

variable (key : TierKey Protocol UInt16) (address : Ipv6Addr)

/-- The view of traffic to an IPv6 address. -/
def egressIpv6View : PairView :=
  egressView policies source (endpointAt known address) { ipv6 := some address }

/-- Some rule that reaches the address gives the tier a value. -/
def DefinesTierAt (key : TierKey Protocol UInt16) (address : Ipv6Addr) : Prop :=
  TierDefined (egressRulesForPair policies source (endpointAt known address)
    { ipv6 := some address }) (endpointAt known address) key

instance (key : TierKey Protocol UInt16) (address : Ipv6Addr) :
    Decidable (DefinesTierAt policies known source key address) :=
  inferInstanceAs (Decidable (TierDefined _ _ _))

/-- The boundaries under which the tier is stored. -/
def tierBoundaries : List Ipv6Cidr :=
  (egressBoundaries policies known).filter fun boundary =>
    (representative (egressBoundaries policies known) boundary).any fun address =>
      decide (DefinesTierAt policies known source key address)

/-- The rules of all selecting policies that match the flows of a tier. -/
def tierRules : List PolicyRule :=
  (applicablePolicies policies .egress source).flatMap
    ((egressIpv6View policies known source address).tierMatched key)

/-- The boundary that answers for a tier is represented by an address with the same
least rule as the tuple has at the destination address itself. -/
def TierAgrees (protocol : Protocol) (port : UInt16) : Prop :=
  ∀ boundary, Cidr.Narrowest (tierBoundaries policies known source key) address boundary →
    ∀ stand, representative (egressBoundaries policies known) boundary = some stand →
      leastRuleId (tierRules policies known source key stand) =
        leastRuleId (tierRules policies known source (.exact protocol port) address)

/-- The tier that answers agrees: the tuple's own if some boundary around the address
stores it, and else that of the protocol. -/
def LongestTierAgrees (protocol : Protocol) (port : UInt16) : Prop :=
  TierAgrees policies known source (.exact protocol port) address protocol port ∧
    ((∀ boundary ∈ tierBoundaries policies known source (.exact protocol port),
        ¬boundary.contains address = true) →
      TierAgrees policies known source (.wide protocol) address protocol port)

/-- What a lookup finds for a tier of an address. -/
def egressAnswer : Option PolicyValue :=
  Cidr.longestMatch (fun cidr => tableOf PairDecisions.kept (egressIpv6PairAt policies known
    (egressBoundaries policies known) (source, cidr)) key) address

end Ipv6

section Ipv6

variable {policies : List PolicyIr} {known : ExtTreeMap Ipv6Addr Endpoint}
  {source : Endpoint} {boundary : Ipv6Cidr} {key : TierKey Protocol UInt16} {address : Ipv6Addr}

/-- Addresses with the same narrowest boundary are reached by the same rules. -/
theorem egressIpv6View_within_of_narrowest {left right : Ipv6Addr}
    (leftNarrowest : Cidr.Narrowest (egressBoundaries policies known) left boundary)
    (rightNarrowest : Cidr.Narrowest (egressBoundaries policies known) right boundary) :
    (egressIpv6View policies known source left).Within
      (egressIpv6View policies known source right) := by
  have sameEndpoint := endpointAt_of_narrowest leftNarrowest rightNarrowest
  refine ⟨rfl, sameEndpoint, fun policy applies rule ruleMember reached => ?_⟩
  obtain ⟨fromSource, toDestination⟩ := Bool.and_eq_true_iff.mp reached
  refine Bool.and_eq_true_iff.mpr ⟨fromSource, ?_⟩
  change rule.destination.matchesAddressed (endpointAt known right) none (some right) = true
  rw [← sameEndpoint, ← matchesAddressed_of_narrowest leftNarrowest rightNarrowest]
  · exact toDestination
  · intro block blockMember
    exact mem_ruleBlocks.mpr ⟨policy, mem_of_mem_filter applies, rule, ruleMember, blockMember⟩

theorem mem_tierBoundaries : boundary ∈ tierBoundaries policies known source key ↔
      boundary ∈ egressBoundaries policies known ∧ ∃ stand,
        representative (egressBoundaries policies known) boundary = some stand ∧
          DefinesTierAt policies known source key stand := by
  simp only [tierBoundaries, List.mem_filter, Option.any_eq_true, decide_eq_true_eq]

/-- Two narrowest boundaries around an address are the same. -/
theorem eq_of_narrowest {boundaries : List Ipv6Cidr} {left right : Ipv6Cidr}
    (leftNarrowest : Cidr.Narrowest boundaries address left)
    (rightNarrowest : Cidr.Narrowest boundaries address right) : left = right :=
  Cidr.eq_of_contains leftNarrowest.contains rightNarrowest.contains
    (le_antisymm (rightNarrowest.longest left leftNarrowest.member leftNarrowest.contains)
      (leftNarrowest.longest right rightNarrowest.member rightNarrowest.contains))

variable (known) in
/-- The narrowest boundary around an address has a representative that is reached
by the same rules. -/
theorem exists_egressLeaf (lowerable : ∀ policy ∈ policies, policy.Lowerable) (address : Ipv6Addr) :
    ∃ leaf stand, Cidr.Narrowest (egressBoundaries policies known) address leaf ∧
      representative (egressBoundaries policies known) leaf = some stand ∧
      Cidr.Narrowest (egressBoundaries policies known) stand leaf :=
  exists_leaf known (ruleBlocks_canonical fun policy member =>
    (lowerable policy member).destinationBlocks) address

variable (compiled : ∀ policy ∈ policies, policy.FromNetworkPolicy)
  (egress : ∀ policy ∈ policies, policy.direction = .egress)
  (targeted : isTargeted policies source = true)

include compiled egress targeted

/-- What is stored for a tier at a boundary. -/
theorem tableOf_egressIpv6_eq_some_iff {value : PolicyValue} :
    tableOf PairDecisions.kept (egressIpv6PairAt policies known
        (egressBoundaries policies known) (source, boundary)) key = some value ↔
      boundary ∈ egressBoundaries policies known ∧ ∃ stand,
        representative (egressBoundaries policies known) boundary = some stand ∧
          DefinesTierAt policies known source key stand ∧
          (egressIpv6View policies known source stand).tierValue key = value := by
  have lowerable := fun policy member => (compiled policy member).lowerable
  have stored : ∀ stand, (egressPair policies source (endpointAt known stand)
      { ipv6 := some stand }).kept key = some value ↔
      DefinesTierAt policies known source key stand ∧
        (egressIpv6View policies known source stand).tierValue key = value := by
    intro stand
    have lowers := egressPair_lowers (transportsWellFormed_of_lowerable lowerable) source
      (endpointAt known stand) { ipv6 := some stand }
    rw [PairDecisions.kept, Tiers.kept, filter_eq_some_iff, lowers.value_eq_some_iff]
    apply and_iff_left_of_imp
    rintro ⟨-, rfl⟩
    exact tierValue_managed_of_isTargeted compiled egress targeted key
  simp only [tableOf, egressIpv6PairAt, targeted, true_and, bind_eq_some_iff,
    ite_none_right_eq_some, map_eq_some_iff]
  constructor
  · rintro ⟨pair, ⟨member, stand, found, rfl⟩, kept⟩
    exact ⟨member, stand, found, (stored stand).mp kept⟩
  · rintro ⟨member, stand, found, kept⟩
    exact ⟨_, ⟨member, stand, found, rfl⟩, (stored stand).mpr kept⟩

/-- A tier is answered by the narrowest boundary that stores it. -/
theorem egressAnswer_of_narrowest {stand : Ipv6Addr}
    (narrowest : Cidr.Narrowest (tierBoundaries policies known source key) address boundary)
    (represented : representative (egressBoundaries policies known) boundary = some stand) :
    egressAnswer policies known source key address =
      some ((egressIpv6View policies known source stand).tierValue key) := by
  obtain ⟨member, other, otherFound, defined⟩ := mem_tierBoundaries.mp narrowest.member
  obtain rfl := Option.some.inj (otherFound.symm.trans represented)
  refine Cidr.longestMatch_eq_some ((tableOf_egressIpv6_eq_some_iff compiled egress
    targeted).mpr ⟨member, other, otherFound, defined, rfl⟩) narrowest.contains ?_
  intro longer contained isLonger
  by_contra present
  obtain ⟨value, stored⟩ := ne_none_iff_exists'.mp present
  obtain ⟨longerMember, longerStand, longerFound, longerDefined, -⟩ :=
    (tableOf_egressIpv6_eq_some_iff compiled egress targeted).mp stored
  exact absurd (narrowest.longest longer (mem_tierBoundaries.mpr
    ⟨longerMember, longerStand, longerFound, longerDefined⟩) contained) (not_le.mpr isLonger)

theorem egressAnswer_eq_none (absent : ∀ boundary ∈ tierBoundaries policies known source key,
      ¬boundary.contains address = true) :
    egressAnswer policies known source key address = none := by
  apply Cidr.longestMatch_eq_none
  intro cidr contained
  by_contra present
  obtain ⟨value, stored⟩ := ne_none_iff_exists'.mp present
  obtain ⟨member, stand, found, defined, -⟩ :=
    (tableOf_egressIpv6_eq_some_iff compiled egress targeted).mp stored
  exact absent cidr (mem_tierBoundaries.mpr ⟨member, stand, found, defined⟩) contained

/-- The fallback of all protocols is stored under the narrowest boundary. -/
theorem egressAnswer_global (address : Ipv6Addr) :
    egressAnswer policies known source .global address =
      some ((egressIpv6View policies known source address).tierValue .global) := by
  obtain ⟨leaf, stand, narrowest, represented, standNarrowest⟩ :=
    exists_egressLeaf known (fun policy member => (compiled policy member).lowerable) address
  have stored : Cidr.Narrowest (tierBoundaries policies known source .global) address leaf :=
    ⟨mem_tierBoundaries.mpr ⟨narrowest.member, stand, represented, trivial⟩,
      narrowest.contains, fun other member =>
        narrowest.longest other (mem_tierBoundaries.mp member).1⟩
  rw [egressAnswer_of_narrowest compiled egress targeted stored represented,
    PairView.tierValue_congr (egressIpv6View_within_of_narrowest standNarrowest narrowest)
      (egressIpv6View_within_of_narrowest narrowest standNarrowest)]

omit egress targeted in
/-- Where neither the tuple nor its protocol is stored, the fallback decides. -/
theorem valueAt_eq_global_of_absent {protocol : Protocol} {port : UInt16} (portNonzero : port ≠ 0)
    (noExact : ∀ boundary ∈ tierBoundaries policies known source (.exact protocol port),
      ¬boundary.contains address = true)
    (noWide : ∀ boundary ∈ tierBoundaries policies known source (.wide protocol),
      ¬boundary.contains address = true) :
    (egressIpv6View policies known source address).valueAt protocol port =
      (egressIpv6View policies known source address).tierValue .global := by
  have lowerable := fun policy member => (compiled policy member).lowerable
  obtain ⟨leaf, stand, narrowest, represented, standNarrowest⟩ :=
    exists_egressLeaf known lowerable address
  have forth : (egressIpv6View policies known source address).Within
      (egressIpv6View policies known source stand) :=
    egressIpv6View_within_of_narrowest narrowest standNarrowest
  have back : (egressIpv6View policies known source stand).Within
      (egressIpv6View policies known source address) :=
    egressIpv6View_within_of_narrowest standNarrowest narrowest
  have undefinedAt : ∀ key, (∀ boundary ∈ tierBoundaries policies known source key,
      ¬boundary.contains address = true) →
      ¬DefinesTierAt policies known source key stand := by
    intro key absent defined
    exact absent leaf (mem_tierBoundaries.mpr
      ⟨narrowest.member, stand, represented, defined⟩) narrowest.contains
  have lowers := egressPair_lowers (transportsWellFormed_of_lowerable lowerable) source
    (endpointAt known stand) { ipv6 := some stand }
  rw [PairView.valueAt_congr forth back, PairView.tierValue_congr forth back]
  refine lowers.valueAt_eq_fallbackValue ?_ ?_
  · rw [lowers.exactTuples]
    exact fun named => undefinedAt _ noExact ⟨portNonzero, named⟩
  · rw [lowers.wildcardProtocols]
    exact fun wildcard => undefinedAt _ noWide (.inl wildcard)

omit egress targeted in
/-- Two tiers decide alike exactly when their least rules have the same identity. -/
theorem tierValue_attribution_iff (left right : TierKey Protocol UInt16)
    (leftAddress rightAddress : Ipv6Addr) :
    ((egressIpv6View policies known source leftAddress).tierValue left).decision.attribution =
        ((egressIpv6View policies known source rightAddress).tierValue right).decision.attribution ↔
      leastRuleId (tierRules policies known source left leftAddress) =
        leastRuleId (tierRules policies known source right rightAddress) := by
  have compatibility : ∀ policy ∈ applicablePolicies policies .egress source,
      policy.IsCompatibility :=
    fun policy applies => (compiled policy (mem_of_mem_filter applies)).isCompatibility
  have value_eq : ∀ key address, (egressIpv6View policies known source address).tierValue key =
        compatibilityValue (applicablePolicies policies .egress source)
          (tierRules policies known source key address) := by
    intro key address
    exact decidedValue_compatibility compatibility
      fun policy _ rule => mem_of_mem_filter
  rw [value_eq, value_eq, compatibilityValue_attribution_iff]

/-- An answer from the narrowest boundary that stores the tier agrees with evaluation
exactly when the tier agrees. -/
theorem egressAnswer_agrees_iff (member : boundary ∈ tierBoundaries policies known source key)
    (contained : boundary.contains address = true) (protocol : Protocol) (port : UInt16) :
    ∃ value, egressAnswer policies known source key address = some value ∧
      (value.decision.attribution = ((egressIpv6View policies known source address).valueAt protocol
          port).decision.attribution ↔
        TierAgrees policies known source key address protocol port) := by
  obtain ⟨narrow, narrowest⟩ := Cidr.exists_narrowest member contained
  obtain ⟨-, stand, represented, -⟩ := mem_tierBoundaries.mp narrowest.member
  refine ⟨_, egressAnswer_of_narrowest compiled egress targeted narrowest represented, ?_⟩
  refine (tierValue_attribution_iff compiled key (.exact protocol port) stand address).trans ?_
  constructor
  · intro same other otherNarrowest otherStand otherRepresented
    obtain rfl := eq_of_narrowest otherNarrowest narrowest
    obtain rfl := Option.some.inj (otherRepresented.symm.trans represented)
    exact same
  · intro agrees
    exact agrees narrow narrowest stand represented

end Ipv6

/-- The lookup for an IPv6 destination makes the evaluated decision exactly when the
tier that answers agrees. -/
theorem lookupEgressPolicy_ipv6_iff {policies : List PolicyIr} {endpoints : List Endpoint}
    {ipv6Endpoints : List Ipv6Endpoint} {entries : List EgressIpv6PolicyMapEntry}
    {known : ExtTreeMap Ipv6Addr Endpoint} (maps : EgressMaps)
    (compiled : ∀ policy ∈ policies, policy.FromNetworkPolicy)
    (identities : ∀ endpoint ∈ endpoints, endpoint.identity.get ≠ 0)
    (ipv6Compiled : compileEgressIpv6DataplaneEntries policies endpoints ipv6Endpoints =
      .ok entries)
    (knownBuilt : knownEndpoints .egressIpv6MetadataConflict ipv6Endpoints = .ok known)
    (ipv6Map : maps.ipv6 = installEntries entries)
    {source : Endpoint} (sourceMember : source ∈ endpoints)
    (targeted : isTargeted policies source = true) {address : Ipv6Addr} {destination : Endpoint}
    (registered : RegisteredAt ipv6Endpoints address destination)
    (protocol : Protocol) {port : UInt16} (portNonzero : port ≠ 0) :
    ((lookupEgressPolicy maps none (some address) source.identity port
        protocol.number).map fun value => value.decision.attribution) =
      some (evaluateForDirectionWithAddresses policies .egress
        (dataplaneFlow source destination protocol port)
        { ipv6 := some address }).value.decision.attribution ↔
      LongestTierAgrees policies known source address protocol port := by
  have lowerable := fun policy member => (compiled policy member).lowerable
  have egress := direction_of_ensured ipv6Compiled
  obtain ⟨_, otherBuilt, stores⟩ := compileEgressIpv6DataplaneEntries_ok
    (transportsWellFormed_of_lowerable lowerable) ipv6Compiled
  obtain rfl := Except.ok.inj (knownBuilt.symm.trans otherBuilt)
  -- No entry belongs to the identity of a node.
  have nodeFree : lookupEgressIpv6PolicyValue (installEntries entries) ⟨0⟩ address 0 0 =
      none := by
    apply Cidr.longestMatch_eq_none
    intro cidr _
    apply stores.getElem?_eq_none
    rintro ⟨endpoint, other⟩ member number otherPort equal
    simp only [egressIpv6Key, EgressIpv6PolicyMapKey.mk.injEq] at equal
    exact identities endpoint member (by rw [equal.1])
  have tier : ∀ key, TierKeyProper key →
      lookupEgressIpv6PolicyValue (installEntries entries) source.identity address
        (tupleKey key).1 (tupleKey key).2 =
      egressAnswer policies known source key address := by
    intro key proper
    rw [lookupEgressIpv6PolicyValue]
    congr 1
    funext cidr
    exact stores.getElem?_installEntries (source, cidr) sourceMember proper
  have value_eq : (evaluateForDirectionWithAddresses policies .egress
      (dataplaneFlow source destination protocol port) { ipv6 := some address }).value =
      (egressIpv6View policies known source address).valueAt protocol port := by
    rw [egressIpv6View, registered.endpointAt_eq knownBuilt]
    exact value_evaluate_eq_valueAt policies .egress _ _
  simp only [lookupEgressPolicy, identities source sourceMember, if_false, bind_none, bind_some,
    none_or, lookupEgressIpv6, ipv6Map, nodeFree, value_eq,
    lookupTiers_eq_search tier protocol portNonzero, Tiers.search]
  by_cases exactStored : ∃ boundary ∈
      tierBoundaries policies known source (.exact protocol port),
      boundary.contains address = true
  · obtain ⟨boundary, member, contained⟩ := exactStored
    obtain ⟨value, answered, agrees_iff⟩ := egressAnswer_agrees_iff
      compiled egress targeted member contained protocol port
    rw [answered, some_or, map_some, Option.some.injEq, agrees_iff]
    exact (and_iff_left fun absent => absurd contained (absent boundary member)).symm
  · have noExact : ∀ boundary ∈ tierBoundaries policies known source (.exact protocol port),
        ¬boundary.contains address = true := by
      simpa using exactStored
    have exactAgrees : TierAgrees policies known source (.exact protocol port) address
        protocol port :=
      fun boundary narrowest => absurd narrowest.contains (noExact boundary narrowest.member)
    rw [egressAnswer_eq_none compiled egress targeted noExact, none_or]
    by_cases wideStored : ∃ boundary ∈ tierBoundaries policies known source (.wide protocol),
        boundary.contains address = true
    · obtain ⟨boundary, member, contained⟩ := wideStored
      obtain ⟨value, answered, agrees_iff⟩ := egressAnswer_agrees_iff
        compiled egress targeted member contained protocol port
      rw [answered, some_or, map_some, Option.some.injEq, agrees_iff]
      exact ⟨fun agrees => ⟨exactAgrees, fun _ => agrees⟩, fun both => both.2 noExact⟩
    · have noWide : ∀ boundary ∈ tierBoundaries policies known source (.wide protocol),
          ¬boundary.contains address = true := by
        simpa using wideStored
      rw [egressAnswer_eq_none compiled egress targeted noWide,
        egressAnswer_global compiled egress targeted,
        ← valueAt_eq_global_of_absent compiled portNonzero noExact noWide]
      refine ⟨fun _ => ⟨exactAgrees, fun _ boundary narrowest => ?_⟩, fun _ => rfl⟩
      exact absurd narrowest.contains (noWide boundary narrowest.member)

/-! ### An exception of a block with a port -/

def documentationBlock : NetworkPolicyPeer where
  ipBlock := some ⟨"2001:db8::/32", some ["2001:db8:1::/48"]⟩
  namespaceSelector := none
  podSelector := none

/-- The tiers agree inside the block and not inside its exception. -/
theorem longestTierAgrees_documentationBlock :
    LongestTierAgrees (egressPolicies (some [documentationBlock]) (.int 443)) ∅
        (workload 7 "apps") 0x20010db8000200000000000000000005 .tcp 443 ∧
      ¬LongestTierAgrees (egressPolicies (some [documentationBlock]) (.int 443)) ∅
        (workload 7 "apps") 0x20010db8000100000000000000000005 .tcp 443 := by
  have compiled := egressPolicies_fromNetworkPolicy (show (compileDirections ⟨1⟩
    (egressObject (some [documentationBlock]) (.int 443))).isOk = true by decide +kernel)
  have identities : ∀ endpoint ∈ [workload 7 "apps"], endpoint.identity.get ≠ 0 := by
    decide
  have succeeds : (compileEgressIpv6DataplaneEntries
      (egressPolicies (some [documentationBlock]) (.int 443)) [workload 7 "apps"] []).isOk =
        true := by
    decide +kernel
  have targeted : isTargeted (egressPolicies (some [documentationBlock]) (.int 443))
      (workload 7 "apps") = true := by
    decide +kernel
  have knownBuilt : knownEndpoints .egressIpv6MetadataConflict ([] : List Ipv6Endpoint) =
      .ok ∅ := rfl
  have decided (address : Ipv6Addr) := lookupEgressPolicy_ipv6_iff (egressMaps
    (egressPolicies (some [documentationBlock]) (.int 443)) [workload 7 "apps"] [] [])
    compiled identities (eq_ok_entriesOf succeeds) knownBuilt (egressMaps_ipv6 _ _ _ _)
    mem_cons_self targeted (.inr ⟨by simp, rfl⟩ : RegisteredAt [] address externalEndpoint) .tcp
    (by decide : (443 : UInt16) ≠ 0)
  refine ⟨(decided _).mp ?_, (decided _).not.mp ?_⟩
  · decide +kernel
  · decide +kernel

/-- A port of the block is open inside its exception too: the exception stores no
entry for the port, so the block answers. -/
theorem lookupEgressPolicy_ipv6_differs :
    (compileDirections ⟨1⟩ (egressObject (some [documentationBlock]) (.int 443))).isOk = true ∧
    (compileEgressIpv6DataplaneEntries
      (egressPolicies (some [documentationBlock]) (.int 443)) [workload 7 "apps"] []).isOk = true ∧
    (lookupEgressPolicy (egressMaps (egressPolicies (some [documentationBlock]) (.int 443))
      [workload 7 "apps"] [] []) none (some 0x20010db8000100000000000000000005) ⟨7⟩ 443
        6).map (fun value => value.decision.verdict) = some .allow ∧
    (evaluateForDirectionWithAddresses
      (egressPolicies (some [documentationBlock]) (.int 443)) .egress
      (dataplaneFlow (workload 7 "apps") externalEndpoint .tcp 443)
        { ipv6 := some 0x20010db8000100000000000000000005 }).verdict = .deny := by
  refine ⟨?_, ?_, ?_, ?_⟩ <;> decide +kernel

end Unf.Policy
