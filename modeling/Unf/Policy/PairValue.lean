import Unf.Policy.PairLowering
import Unf.Policy.SelectorCorrectness

/-!
# Values of one pair

For a fixed pair of ends a flow is decided by the policies that apply and by
those of their rules that reach the pair, filtered by protocol and port.  The
tiers of the pair's lowering resolve every tuple to the value of evaluation, as
long as the tuples of all reaching rules have been considered.
-/

namespace Unf.Policy

open Unf.Lib List Option DestinationPort

/-! ## Transport of a rule -/

namespace PolicyRule

/-- The protocol and port part of a rule. -/
def carries (rule : PolicyRule) (destination : Endpoint) (protocol : Protocol)
    (port : UInt16) : Bool :=
  rule.protocol.all (fun value => value == protocol) &&
    rule.destinationPort.matchesPort destination protocol port

/-- The rule matches a protocol whatever the port. -/
def CarriesEveryPort (rule : PolicyRule) (protocol : Protocol) : Prop :=
  rule.protocol = none ∨ rule.protocol = some protocol ∧ rule.destinationPort = .any

/-- Ports are only named together with a protocol, and never port zero. -/
structure TransportWellFormed (rule : PolicyRule) : Prop where
  anyPort : rule.protocol = none → rule.destinationPort = .any
  number : ∀ port, rule.destinationPort = .number port → port ≠ 0
  range : ∀ start finish, rule.destinationPort = .range start finish → start ≠ 0

end PolicyRule

/-- All ports that the endpoint names are non-zero. -/
def Endpoint.NamesNonzeroPorts (endpoint : Endpoint) : Prop :=
  ∀ (namedPort : NamedPort) (port : UInt16),
    endpoint.namedPorts[namedPort]? = some port → port ≠ 0

theorem externalEndpoint_namesNonzeroPorts : externalEndpoint.NamesNonzeroPorts := by
  intro namedPort port found
  simp [externalEndpoint] at found

/-- The ports that a rule's port names one by one. -/
def DestinationPort.Names (destination : Endpoint) (protocol : Protocol) (port : UInt16) :
    DestinationPort → Prop
  | .any => False
  | .number expected => expected = port
  | .named name => destination.resolveNamedPort name protocol = some port
  | .range start finish => start ≤ port ∧ port ≤ finish

variable {protocol : Protocol} {destination : Endpoint} {tuple : Protocol × UInt16}
  {rules : List PolicyRule} {policies : List PolicyIr} {endpoint : Endpoint}

private theorem mem_portRange {other : Protocol} {start finish port : UInt16} :
    (other, port) ∈ (range' start.toNat (finish.toNat + 1 - start.toNat)).map
        (fun number => (protocol, UInt16.ofNat number)) ↔
      protocol = other ∧ start ≤ port ∧ port ≤ finish := by
  simp only [List.mem_map, List.mem_range'_1, Prod.mk.injEq, UInt16.le_iff_toNat_le]
  constructor
  · rintro ⟨number, ⟨lower, upper⟩, rfl, rfl⟩
    have last : number ≤ finish.toNat := by omega
    have bound : number < 2 ^ 16 := last.trans_lt finish.toNat_lt
    rw [UInt16.toNat_ofNat', Nat.mod_eq_of_lt bound]
    exact ⟨rfl, lower, last⟩
  · rintro ⟨rfl, lower, upper⟩
    refine ⟨port.toNat, ⟨lower, ?_⟩, rfl, ?_⟩
    · omega
    · simp

variable {rule : PolicyRule} {policy : PolicyIr}

theorem mem_exactRulePorts {port : UInt16} : (protocol, port) ∈ exactRulePorts rule destination ↔
      rule.protocol = some protocol ∧ rule.destinationPort.Names destination protocol port := by
  rw [exactRulePorts]
  split
  · rename_i unnamed
    simp [unnamed]
  · rename_i value named
    rw [named, Option.some.injEq]
    cases rule.destinationPort with
    | any => simp [DestinationPort.Names]
    | number expected =>
      simp only [mem_singleton, Prod.mk.injEq, DestinationPort.Names]
      rw [@eq_comm _ protocol, @eq_comm _ port]
    | named name =>
      simp only [DestinationPort.Names]
      split
      · rename_i unresolved
        simp only [not_mem_nil, false_iff, not_and]
        rintro rfl
        simp [unresolved]
      · rename_i number resolved
        simp only [mem_singleton, Prod.mk.injEq]
        constructor
        · rintro ⟨rfl, rfl⟩
          exact ⟨rfl, resolved⟩
        · rintro ⟨rfl, found⟩
          exact ⟨rfl, Option.some.inj (found.symm.trans resolved)⟩
    | range start finish => exact mem_portRange

/-- The tuples that a rule names are the ones it matches beyond whole protocols. -/
theorem PolicyRule.carries_iff (anyPort : rule.protocol = none → rule.destinationPort = .any)
    (destination : Endpoint) (protocol : Protocol) (port : UInt16) :
    rule.carries destination protocol port = true ↔
      rule.CarriesEveryPort protocol ∨ (protocol, port) ∈ exactRulePorts rule destination := by
  rw [carries, CarriesEveryPort, mem_exactRulePorts]
  cases named : rule.protocol with
  | none => simp [anyPort named, matchesPort]
  | some value =>
    cases rule.destinationPort <;>
      simp [matchesPort, DestinationPort.Names, Option.any_eq_true]

theorem exactRulePorts_ne_zero (wellFormed : rule.TransportWellFormed)
    (namesNonzero : destination.NamesNonzeroPorts)
    (member : tuple ∈ exactRulePorts rule destination) : tuple.2 ≠ 0 := by
  obtain ⟨protocol, port⟩ := tuple
  obtain ⟨-, names⟩ := mem_exactRulePorts.mp member
  cases written : rule.destinationPort with
  | any =>
    rw [written] at names
    exact names.elim
  | number expected =>
    rw [written] at names
    obtain rfl : expected = port := names
    exact wellFormed.number expected written
  | named name =>
    rw [written] at names
    exact namesNonzero ⟨name, protocol⟩ port
      ((resolveNamedPort_eq destination name protocol).symm.trans names)
  | range start finish =>
    rw [written] at names
    obtain ⟨lower, -⟩ : start ≤ port ∧ port ≤ finish := names
    rintro rfl
    exact wellFormed.range start finish written (UInt16.le_zero_iff.mp lower)

theorem mem_wildcardProtocols : protocol ∈ wildcardProtocols rules ↔
      ∃ rule ∈ rules, rule.protocol = some protocol ∧ rule.destinationPort = .any := by
  simp only [wildcardProtocols, mem_sortDedup, mem_filterMap, mem_filter, beq_iff_eq, and_assoc]
  exact exists_congr fun rule => and_congr_right fun _ => and_comm

theorem mem_exactTuples : tuple ∈ exactTuples rules destination ↔
      ∃ rule ∈ rules, tuple ∈ exactRulePorts rule destination := by
  simp only [exactTuples, List.mem_map, mem_sortDedup]
  constructor
  · rintro ⟨_, ⟨other, member, rfl⟩, rfl⟩
    exact List.mem_flatMap.mp member
  · intro named
    exact ⟨toLex tuple, ⟨tuple, List.mem_flatMap.mpr named, rfl⟩, rfl⟩

/-! ## Views of a pair -/

/-- What decides the flows between a fixed pair of ends: the policies that apply,
which rules reach the pair, and the endpoint whose named ports count. -/
structure PairView where
  policies : List PolicyIr
  reaches : PolicyRule → Bool
  destination : Endpoint

namespace PairView

def matched (view : PairView) (protocol : Protocol) (port : UInt16) (policy : PolicyIr) :
    List PolicyRule :=
  policy.rules.filter fun rule =>
    view.reaches rule && rule.carries view.destination protocol port

def matchedAlways (view : PairView) (policy : PolicyIr) : List PolicyRule :=
  policy.rules.filter fun rule => view.reaches rule && rule.protocol.isNone

/-- The value of flows with the given protocol and port. -/
def valueAt (view : PairView) (protocol : Protocol) (port : UInt16) : PolicyValue :=
  decidedValue view.policies (view.matched protocol port)

/-- The value decided by the rules that match every protocol. -/
def fallbackValue (view : PairView) : PolicyValue :=
  decidedValue view.policies view.matchedAlways

theorem mem_matched {view : PairView} {protocol : Protocol} {port : UInt16} :
    rule ∈ view.matched protocol port policy ↔ rule ∈ policy.rules ∧
      view.reaches rule = true ∧ rule.carries view.destination protocol port = true := by
  rw [matched, mem_filter, Bool.and_eq_true]

end PairView

/-- A pair's decisions are those of a view, and the tuples of all rules that reach
the pair are among the considered ones. -/
structure PairDecisions.Lowers (pair : PairDecisions) (view : PairView)
    (considered : List PolicyRule) : Prop where
  recorded : pair.Recorded
  fallback : pair.globalFallback.value = view.fallbackValue
  decide : ∀ protocol port, (pair.decide protocol port).value = view.valueAt protocol port
  wildcardProtocols : pair.wildcardProtocols = Policy.wildcardProtocols considered
  exactTuples : pair.exactTuples = Policy.exactTuples considered view.destination
  considers : ∀ policy ∈ view.policies, ∀ rule ∈ policy.rules, view.reaches rule = true →
    rule ∈ considered
  wellFormed : ∀ rule ∈ considered, rule.TransportWellFormed

namespace PairDecisions.Lowers

variable {pair : PairDecisions} {view : PairView} {considered : List PolicyRule}
  (lowers : pair.Lowers view considered) {protocol : Protocol} {port : UInt16}

include lowers

variable (unnamed : (protocol, port) ∉ pair.exactTuples)

include unnamed

/-- Outside the named tuples only rules for a whole protocol match. -/
theorem carries_iff (member : rule ∈ considered) :
    rule.carries view.destination protocol port = true ↔ rule.CarriesEveryPort protocol := by
  have notNamed : (protocol, port) ∉ exactRulePorts rule view.destination := by
    intro named
    rw [lowers.exactTuples, mem_exactTuples] at unnamed
    exact unnamed ⟨rule, member, named⟩
  rw [PolicyRule.carries_iff (lowers.wellFormed rule member).anyPort]
  exact or_iff_left notNamed

omit unnamed in
/-- Rule choices that agree on the considered rules decide the same value. -/
theorem decidedValue_reached_congr {first second : PolicyRule → Bool}
    (agree : ∀ rule ∈ considered, first rule = true ↔ second rule = true) :
    decidedValue view.policies
        (fun policy => policy.rules.filter fun rule => view.reaches rule && first rule) =
      decidedValue view.policies
        (fun policy => policy.rules.filter fun rule => view.reaches rule && second rule) := by
  apply decidedValue_congr
  intro policy policyMember
  apply filter_congr
  intro rule ruleMember
  rw [Bool.eq_iff_iff, Bool.and_eq_true, Bool.and_eq_true]
  apply and_congr_right
  intro reached
  exact agree rule (lowers.considers policy policyMember rule ruleMember reached)

theorem valueAt_of_unnamed (zeroUnnamed : (protocol, 0) ∉ pair.exactTuples) :
    view.valueAt protocol port = view.valueAt protocol 0 := by
  apply lowers.decidedValue_reached_congr
  intro rule member
  rw [lowers.carries_iff unnamed member, lowers.carries_iff zeroUnnamed member]

theorem valueAt_eq_fallbackValue (notWildcard : protocol ∉ pair.wildcardProtocols) :
    view.valueAt protocol port = view.fallbackValue := by
  apply lowers.decidedValue_reached_congr
  intro rule member
  rw [lowers.carries_iff unnamed member, isNone_iff_eq_none]
  apply or_iff_left
  intro everyPort
  rw [lowers.wildcardProtocols, mem_wildcardProtocols] at notWildcard
  exact notWildcard ⟨rule, member, everyPort⟩

variable (nonzero : ∀ tuple ∈ pair.exactTuples, tuple.2 ≠ 0)

omit unnamed

include nonzero in
/-- Every tuple resolves to the value of its flows. -/
theorem resolve_eq (portNonzero : port ≠ 0) :
    pair.tiers.resolve protocol port = view.valueAt protocol port := by
  have zeroUnnamed : (protocol, (0 : UInt16)) ∉ pair.exactTuples := fun named => nonzero _ named rfl
  by_cases named : (protocol, port) ∈ pair.exactTuples
  · simp [Tiers.resolve, tiers, named, portNonzero, lowers.decide]
  · by_cases wildcard : protocol ∈ pair.wildcardProtocols
    · simp [Tiers.resolve, tiers, named, wildcard, lowers.decide,
        lowers.valueAt_of_unnamed named zeroUnnamed]
    · simp [Tiers.resolve, tiers, named, wildcard, zeroUnnamed, lowers.fallback,
        lowers.valueAt_eq_fallbackValue named wildcard]

theorem matchedAlways_subset (protocol : Protocol) (port : UInt16)
    (policyMember : policy ∈ view.policies) :
    view.matchedAlways policy ⊆ view.matched protocol port policy := by
  intro rule member
  rw [PairView.matchedAlways, mem_filter, Bool.and_eq_true, isNone_iff_eq_none] at member
  obtain ⟨ruleMember, reached, always⟩ := member
  have wellFormed := lowers.wellFormed rule
    (lowers.considers policy policyMember rule ruleMember reached)
  rw [PairView.mem_matched, PolicyRule.carries_iff wellFormed.anyPort]
  exact ⟨ruleMember, reached, .inl (.inl always)⟩

theorem matched_zero_subset (zeroUnnamed : (protocol, 0) ∉ pair.exactTuples) (port : UInt16)
    (policyMember : policy ∈ view.policies) :
    view.matched protocol 0 policy ⊆ view.matched protocol port policy := by
  intro rule member
  obtain ⟨ruleMember, reached, carries⟩ := PairView.mem_matched.mp member
  have considered := lowers.considers policy policyMember rule ruleMember reached
  rw [PairView.mem_matched, PolicyRule.carries_iff (lowers.wellFormed rule considered).anyPort]
  exact ⟨ruleMember, reached, .inl ((lowers.carries_iff zeroUnnamed considered).mp carries)⟩

include nonzero

/-- A more specific tuple is matched by more rules, so it keeps its provenance. -/
theorem keepsOverrides : pair.tiers.KeepsOverrides PolicyValue.managed := by
  have zeroUnnamed : ∀ protocol, (protocol, (0 : UInt16)) ∉ pair.exactTuples :=
    fun protocol named => nonzero _ named rfl
  have overFallback : ∀ protocol port, view.fallbackValue.managed = true →
      (view.valueAt protocol port).managed = true := by
    intro protocol port
    simp only [PolicyValue.managed, bne_iff_ne]
    exact decidedValue_managed_mono fun _ => lowers.matchedAlways_subset protocol port
  have overProtocol : ∀ protocol port, (view.valueAt protocol 0).managed = true →
      (view.valueAt protocol port).managed = true := by
    intro protocol port
    simp only [PolicyValue.managed, bne_iff_ne]
    exact decidedValue_managed_mono fun _ =>
      lowers.matched_zero_subset (zeroUnnamed protocol) port
  constructor
  · intro protocol value found managed
    rw [tiers_global, lowers.fallback] at managed
    simp only [tiers, ite_none_right_eq_some, Option.some.injEq, lowers.decide] at found
    rw [← found.2]
    exact overFallback protocol 0 managed
  · intro protocol port value found managed
    simp only [tiers, ite_none_right_eq_some, Option.some.injEq, lowers.decide] at found
    rw [← found.2]
    simp only [tiers] at managed
    split at managed
    · rw [lowers.decide] at managed
      exact overProtocol protocol port managed
    · rw [lowers.fallback] at managed
      exact overFallback protocol port managed

/-- Searching the changed tiers finds the value of the flows, if it has provenance. -/
theorem search_changed (portNonzero : port ≠ 0) :
    Tiers.search (pair.tiers.changed PolicyValue.managed) protocol port =
      (some (view.valueAt protocol port)).filter PolicyValue.managed := by
  rw [Tiers.search_changed (lowers.keepsOverrides nonzero), lowers.resolve_eq nonzero portNonzero]

theorem search_kept (portNonzero : port ≠ 0) :
    Tiers.search (pair.tiers.kept PolicyValue.managed) protocol port =
      (some (view.valueAt protocol port)).filter PolicyValue.managed := by
  rw [Tiers.search_kept (lowers.keepsOverrides nonzero), lowers.resolve_eq nonzero portNonzero]

omit nonzero

theorem exactTuples_ne_zero (namesNonzero : view.destination.NamesNonzeroPorts) :
    ∀ tuple ∈ pair.exactTuples, tuple.2 ≠ 0 := by
  intro tuple member
  rw [lowers.exactTuples, mem_exactTuples] at member
  obtain ⟨rule, ruleMember, named⟩ := member
  exact exactRulePorts_ne_zero (lowers.wellFormed rule ruleMember) namesNonzero named

end PairDecisions.Lowers

/-! ## Tiers of a view -/

namespace PairView

/-- The rules that match the flows of a tier. -/
def carriesTier (view : PairView) (rule : PolicyRule) : TierKey Protocol UInt16 → Bool
  | .global => rule.protocol.isNone
  | .wide protocol => rule.carries view.destination protocol 0
  | .exact protocol port => rule.carries view.destination protocol port

def tierMatched (view : PairView) (key : TierKey Protocol UInt16) (policy : PolicyIr) :
    List PolicyRule :=
  policy.rules.filter fun rule => view.reaches rule && view.carriesTier rule key

/-- The value of a tier. -/
def tierValue (view : PairView) (key : TierKey Protocol UInt16) : PolicyValue :=
  decidedValue view.policies (view.tierMatched key)

/-- Two views of the same policies and destination, the second of which is reached
by at least the rules that reach the first. -/
structure Within (left right : PairView) : Prop where
  policies : left.policies = right.policies
  destination : left.destination = right.destination
  reaches : ∀ policy ∈ left.policies, ∀ rule ∈ policy.rules, left.reaches rule = true →
    right.reaches rule = true

variable {left right : PairView}

theorem Within.tierMatched_subset (within : left.Within right) (key : TierKey Protocol UInt16)
    (member : policy ∈ left.policies) :
    left.tierMatched key policy ⊆ right.tierMatched key policy := by
  intro rule matched
  obtain ⟨ruleMember, both⟩ := mem_filter.mp matched
  obtain ⟨reached, carried⟩ := Bool.and_eq_true_iff.mp both
  refine mem_filter.mpr ⟨ruleMember, Bool.and_eq_true_iff.mpr ⟨?_, ?_⟩⟩
  · exact within.reaches policy member rule ruleMember reached
  · cases key <;> simpa only [carriesTier, ← within.destination] using carried

theorem Within.tierValue_managed (within : left.Within right) {key : TierKey Protocol UInt16}
    (managed : (left.tierValue key).managed = true) : (right.tierValue key).managed = true := by
  rw [PolicyValue.managed, bne_iff_ne] at managed ⊢
  rw [tierValue, ← within.policies]
  exact decidedValue_managed_mono (fun _ => within.tierMatched_subset key) managed

theorem tierValue_congr (forth : left.Within right) (back : right.Within left)
    (key : TierKey Protocol UInt16) : left.tierValue key = right.tierValue key := by
  rw [tierValue, tierValue, ← forth.policies]
  apply decidedValue_congr
  intro policy policyMember
  apply filter_congr
  intro rule ruleMember
  have reaches : left.reaches rule = right.reaches rule := by
    rw [Bool.eq_iff_iff]
    exact ⟨forth.reaches policy policyMember rule ruleMember,
      back.reaches policy (forth.policies ▸ policyMember) rule ruleMember⟩
  rw [reaches]
  cases key <;> simp only [carriesTier, forth.destination]

theorem valueAt_congr (forth : left.Within right) (back : right.Within left) (protocol : Protocol)
    (port : UInt16) : left.valueAt protocol port = right.valueAt protocol port :=
  tierValue_congr forth back (.exact protocol port)

theorem valueAt_congr_reaches {policies : List PolicyIr} {destination : Endpoint}
    {left right : PolicyRule → Bool}
    (same : ∀ policy ∈ policies, ∀ rule ∈ policy.rules, left rule = right rule)
    (protocol : Protocol) (port : UInt16) : (mk policies left destination).valueAt protocol port =
      (mk policies right destination).valueAt protocol port := by
  apply decidedValue_congr
  intro policy policyMember
  apply filter_congr
  intro rule ruleMember
  simp only [same policy policyMember rule ruleMember]

end PairView

/-- The tiers for which the considered rules give a pair a value. -/
def TierDefined (considered : List PolicyRule) (destination : Endpoint) :
    TierKey Protocol UInt16 → Prop
  | .global => True
  | .wide protocol => protocol ∈ wildcardProtocols considered ∨
      (protocol, 0) ∈ exactTuples considered destination
  | .exact protocol port => port ≠ 0 ∧ (protocol, port) ∈ exactTuples considered destination

theorem PairDecisions.Lowers.value_eq_some_iff {pair : PairDecisions} {view : PairView}
    {considered : List PolicyRule} (lowers : pair.Lowers view considered)
    {key : TierKey Protocol UInt16} {value : PolicyValue} : pair.tiers.value key = some value ↔
      TierDefined considered view.destination key ∧ view.tierValue key = value := by
  cases key with
  | global =>
    rw [Tiers.value, tiers_global, lowers.fallback, Option.some.injEq]
    exact (and_iff_right trivial).symm
  | wide protocol =>
    simp only [Tiers.value, tiers, ite_none_right_eq_some, Option.some.injEq,
      lowers.decide, lowers.wildcardProtocols, lowers.exactTuples]
    rfl
  | exact protocol port =>
    simp only [Tiers.value, tiers, ite_none_right_eq_some, Option.some.injEq,
      lowers.decide, lowers.exactTuples]
    rfl

/-! ## Ingress and egress pairs -/

section Flow

variable (policies) (direction : PolicyDirection) (flow : Flow)
  (destinationAddresses : DestinationAddresses)

theorem recorded_evaluate :
    hasPolicyProvenance (evaluateForDirectionWithAddresses policies direction flow
        destinationAddresses) = (evaluateForDirectionWithAddresses policies direction flow
        destinationAddresses).value.managed := by
  rw [Bool.eq_iff_iff, hasPolicyProvenance_evaluate, value_evaluate, PolicyValue.managed,
    bne_iff_ne]

/-- The view of a flow, whatever its protocol and port. -/
def Flow.view : PairView where
  policies := applicablePolicies policies direction (flow.selectedEndpoint direction)
  reaches rule :=
    rule.source.matchesSource flow.source flow.sourceIpv4 flow.sourceIpv6 &&
      rule.destination.matchesDestination flow.destination destinationAddresses
  destination := flow.destination

theorem value_evaluate_eq_valueAt :
    (evaluateForDirectionWithAddresses policies direction flow destinationAddresses).value =
      (flow.view policies direction destinationAddresses).valueAt flow.protocol
        flow.destinationPort := by
  rw [value_evaluate]
  apply decidedValue_congr
  intro policy _
  apply filter_congr
  intro rule _
  rw [ruleMatches, Bool.and_assoc (_ && _)]
  rfl

/-- All rules of the policies name their ports properly. -/
def TransportsWellFormed : Prop :=
  ∀ policy ∈ policies, ∀ rule ∈ policy.rules, rule.TransportWellFormed

/-- The fallback policies decide through the rules that match every protocol. -/
theorem value_evaluate_globalFallbackPolicies (wellFormed : TransportsWellFormed policies) :
    (evaluateForDirectionWithAddresses (globalFallbackPolicies policies) direction flow
        destinationAddresses).value =
      (flow.view policies direction destinationAddresses).fallbackValue := by
  have applicable : applicablePolicies (globalFallbackPolicies policies) direction
        (flow.selectedEndpoint direction) =
      (applicablePolicies policies direction (flow.selectedEndpoint direction)).map
        fun policy =>
          { policy with rules := policy.rules.filter fun rule => rule.protocol.isNone } := by
    rw [applicablePolicies, globalFallbackPolicies, List.filter_map]
    rfl
  rw [value_evaluate, applicable, decidedValue_map_rules]
  apply decidedValue_congr
  intro policy policyMember
  rw [matchedRules, List.filter_filter]
  apply filter_congr
  intro rule ruleMember
  have transport := wellFormed policy (mem_of_mem_filter policyMember) rule ruleMember
  cases named : rule.protocol with
  | none =>
    simp [ruleMatches, Flow.view, named, transport.anyPort named, matchesPort]
  | some protocol => simp

end Flow

/-- The view of ingress traffic between two endpoints. -/
def ingressView (policies : List PolicyIr) (source destination : Endpoint)
    (sourceIpv4 : Option Ipv4Addr) (sourceIpv6 : Option Ipv6Addr) : PairView :=
  (ingressFlow source destination sourceIpv4 sourceIpv6 .tcp 0).view policies .ingress {}

/-- The view of egress traffic between two endpoints. -/
def egressView (policies : List PolicyIr) (source destination : Endpoint)
    (destinationAddresses : DestinationAddresses) : PairView :=
  (dataplaneFlow source destination .tcp 0).view policies .egress destinationAddresses

theorem mem_selectingRules : rule ∈ selectingRules policies endpoint ↔
      ∃ policy ∈ policies, policy.target.matchesEndpoint endpoint = true ∧ rule ∈ policy.rules := by
  simp only [selectingRules, List.mem_flatMap, mem_filter, and_assoc]

theorem applicable_subset_selectingRules {direction : PolicyDirection}
    (policyMember : policy ∈ applicablePolicies policies direction endpoint)
    (ruleMember : rule ∈ policy.rules) : rule ∈ selectingRules policies endpoint := by
  obtain ⟨member, applies⟩ := mem_filter.mp policyMember
  exact mem_selectingRules.mpr ⟨policy, member, (Bool.and_eq_true_iff.mp applies).2, ruleMember⟩

theorem transportWellFormed_of_selectingRules (wellFormed : TransportsWellFormed policies)
    (member : rule ∈ selectingRules policies endpoint) : rule.TransportWellFormed := by
  obtain ⟨policy, policyMember, -, ruleMember⟩ := mem_selectingRules.mp member
  exact wellFormed policy policyMember rule ruleMember

section Pairs

variable {policies : List PolicyIr} (wellFormed : TransportsWellFormed policies)
  (source destination : Endpoint)

include wellFormed

/-- An ingress pair lowers its view when it considers, among the rules that select
the destination, at least those that reach the pair. -/
theorem ingressPair_lowers (sourceIpv4 : Option Ipv4Addr) (sourceIpv6 : Option Ipv6Addr)
    {considers : PolicyRule → Bool}
    (reaching : ∀ rule : PolicyRule, rule.source.matchesSource source sourceIpv4 sourceIpv6 = true →
      rule.destination.matchesEndpoint destination = true → considers rule = true) :
    (ingressPair policies source destination sourceIpv4 sourceIpv6
      ((selectingRules policies destination).filter considers)).Lowers
      (ingressView policies source destination sourceIpv4 sourceIpv6)
      ((selectingRules policies destination).filter considers) := by
  refine ⟨⟨?_, ?_⟩, ?_, ?_, rfl, rfl, ?_, ?_⟩
  · exact recorded_evaluate _ _ _ _
  · exact fun protocol port => recorded_evaluate _ _ _ _
  · exact value_evaluate_globalFallbackPolicies _ _ _ _ wellFormed
  · exact fun protocol port => value_evaluate_eq_valueAt _ _ _ _
  · intro policy policyMember rule ruleMember reached
    obtain ⟨fromSource, toDestination⟩ := Bool.and_eq_true_iff.mp reached
    refine mem_filter.mpr ⟨applicable_subset_selectingRules policyMember ruleMember, ?_⟩
    apply reaching rule fromSource
    simp only [IdentitySelector.matchesDestination, IdentitySelector.matchesAddressed,
      Bool.and_eq_true] at toDestination
    exact toDestination.1.2
  · exact fun rule member => transportWellFormed_of_selectingRules wellFormed
      (mem_of_mem_filter member)

theorem matchedPair_lowers (sourceIpv4 : Option Ipv4Addr) :
    (matchedPair policies source sourceIpv4 destination).Lowers
      (ingressView policies source destination sourceIpv4 none)
      (rulesForPair policies source destination sourceIpv4) :=
  ingressPair_lowers wellFormed source destination sourceIpv4 none fun _ fromSource
    toDestination => Bool.and_eq_true_iff.mpr ⟨fromSource, toDestination⟩

theorem uniformPair_lowers (sourceAddress : Ipv6Addr) :
    (uniformPair policies source sourceAddress destination).Lowers
      (ingressView policies source destination none (some sourceAddress))
      ((selectingRules policies destination).filter fun rule =>
        rule.destination.matchesEndpoint destination) :=
  ingressPair_lowers wellFormed source destination none (some sourceAddress)
    fun _ _ toDestination => toDestination

theorem egressPair_lowers (destinationAddresses : DestinationAddresses) :
    (egressPair policies source destination destinationAddresses).Lowers
      (egressView policies source destination destinationAddresses)
      (egressRulesForPair policies source destination destinationAddresses) := by
  refine ⟨⟨?_, ?_⟩, ?_, ?_, rfl, rfl, ?_, ?_⟩
  · exact recorded_evaluate _ _ _ _
  · exact fun protocol port => recorded_evaluate _ _ _ _
  · exact value_evaluate_globalFallbackPolicies _ _ _ _ wellFormed
  · exact fun protocol port => value_evaluate_eq_valueAt _ _ _ _
  · intro policy policyMember rule ruleMember reached
    exact mem_filter.mpr ⟨applicable_subset_selectingRules policyMember ruleMember, reached⟩
  · exact fun rule member => transportWellFormed_of_selectingRules wellFormed
      (mem_of_mem_filter member)

end Pairs

end Unf.Policy
