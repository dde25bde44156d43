import Unf.Policy.Compatibility
import Unf.Policy.PairValue

/-!
# Shape of compiled policies

What the two policy compilers guarantee and the lowering relies on: ports are
named properly, address blocks are canonical, native policies have no blocks, and
compatibility policies isolate what they select.
-/

namespace Unf.Policy

open Unf.Lib List IdentitySelector Except

/-! ## Selectors -/

/-- The prefixes of a block are canonical. -/
structure Block.Canonical {width : Nat} (block : Block width) : Prop where
  cidr : block.cidr.Canonical
  except : ∀ excluded ∈ block.except, excluded.Canonical

/-- The blocks of a selector are canonical, and a block over all IPv4 addresses
has no exception over all of them. -/
structure IdentitySelector.BlocksCanonical (selector : IdentitySelector) : Prop where
  ipv4 : ∀ block ∈ selector.ipv4Blocks, block.Canonical
  ipv4Global : ∀ block ∈ selector.ipv4Blocks, block.cidr.prefixLen = 0 →
    ∀ excluded ∈ block.except, excluded.prefixLen ≠ 0
  ipv6 : ∀ block ∈ selector.ipv6Blocks, block.Canonical

def IdentitySelector.HasNoBlocks (selector : IdentitySelector) : Prop :=
  selector.ipv4Blocks = [] ∧ selector.ipv6Blocks = []

variable {selector : IdentitySelector} {ruleIndex : Nat} {peerIndex : Nat}

theorem IdentitySelector.HasNoBlocks.blocksCanonical (noBlocks : selector.HasNoBlocks) :
    selector.BlocksCanonical := by
  constructor
  · simp [noBlocks.1]
  · simp [noBlocks.1]
  · simp [noBlocks.2]

/-- What the lowering of a policy relies on. -/
structure PolicyIr.Lowerable (policy : PolicyIr) : Prop where
  transport : ∀ rule ∈ policy.rules, rule.TransportWellFormed
  sourceBlocks : ∀ rule ∈ policy.rules, rule.source.BlocksCanonical
  destinationBlocks : ∀ rule ∈ policy.rules, rule.destination.BlocksCanonical
  nativeSources : policy.origin = .native → ∀ rule ∈ policy.rules, rule.source.HasNoBlocks
  compatibility : policy.origin = .kubernetesNetworkPolicy → policy.IsCompatibility

theorem podIdentitySelector_hasNoBlocks {selector : LabelSelector}
    {«namespace» : Option String} {field : String} {result : IdentitySelector}
    (compiled : podIdentitySelector selector «namespace» field = .ok result) :
    result.HasNoBlocks := by
  simp only [podIdentitySelector, eq_ok_iffs] at compiled
  obtain ⟨expressions, -, rfl⟩ := compiled
  exact ⟨rfl, rfl⟩

theorem canonical_of_parsed {width : Nat} {parseAddress : List Char → Option (BitVec width)}
    {text : String} {cidr : Cidr width} (parsed : parseCidr parseAddress text = some cidr)
    {exceptions : Option (List String)} {except : List (Cidr width)}
    (exceptionsParsed : parseExceptions (parseCidr parseAddress) cidr text exceptions ruleIndex
      peerIndex = .ok except) : Block.Canonical ⟨cidr, except⟩ := by
  refine ⟨parseCidr_canonical parsed, fun excluded member => ?_⟩
  obtain ⟨exceptionText, -, excludedParsed⟩ :=
    ((parseExceptions_ok exceptionsParsed).1 excluded).mp member
  exact parseCidr_canonical excludedParsed

theorem ipBlockSelector_blocksCanonical {ipBlock : IpBlock}
    (compiled : ipBlockSelector ipBlock ruleIndex peerIndex = .ok selector) :
    selector.BlocksCanonical := by
  rcases ipBlockSelector_ok compiled with ⟨cidr, except, parsed, exceptions, rfl⟩ |
    ⟨cidr, except, parsed, exceptions, accepted, rfl⟩
  · refine ⟨by simp [unconstrained], by simp [unconstrained], ?_⟩
    exact forall_mem_singleton.mpr (canonical_of_parsed parsed exceptions)
  · refine ⟨forall_mem_singleton.mpr (canonical_of_parsed parsed exceptions), ?_,
      by simp [unconstrained]⟩
    · intro block member global excluded excludedMember everything
      obtain rfl := mem_singleton.mp member
      -- An exception over all addresses alone exceeds the bound.
      have counted := single_le_sum (fun count _ => Nat.zero_le count) _
        (mem_map_of_mem (f := addressCount) excludedMember)
      have bounded := counted.trans (accepted global)
      rw [addressCount, everything] at bounded
      exact absurd bounded (by decide)

variable {policyNamespace : String} {policyId : PolicyId} {policy : PolicyIr}

theorem peerSelector_blocksCanonical {entry : NetworkPolicyPeer × Nat}
    (compiled : peerSelector policyNamespace ruleIndex entry = .ok selector) :
    selector.BlocksCanonical := by
  simp only [peerSelector] at compiled
  split at compiled
  · obtain ⟨-, blockCompiled⟩ := failIf_bind_eq_ok.mp compiled
    exact ipBlockSelector_blocksCanonical blockCompiled
  · simp only [eq_ok_iffs] at compiled
    obtain ⟨namespaceSelector, -, identitySelector, podCompiled, rfl⟩ := compiled
    have noBlocks : identitySelector.HasNoBlocks := by
      rw [peerPodSelector] at podCompiled
      split at podCompiled
      · exact podIdentitySelector_hasNoBlocks podCompiled
      · obtain rfl := ok.inj podCompiled
        exact ⟨rfl, rfl⟩
    exact IdentitySelector.HasNoBlocks.blocksCanonical ⟨noBlocks.1, noBlocks.2⟩

theorem peerSelectors_blocksCanonical {peers : Option (List NetworkPolicyPeer)}
    {selectors : List IdentitySelector}
    (compiled : peerSelectors peers policyNamespace ruleIndex = .ok selectors) :
    ∀ selector ∈ selectors, selector.BlocksCanonical := by
  simp only [peerSelectors] at compiled
  split at compiled
  · obtain rfl := ok.inj compiled
    rintro selector member
    obtain rfl := mem_singleton.mp member
    exact IdentitySelector.HasNoBlocks.blocksCanonical ⟨rfl, rfl⟩
  · exact forall_mem_mapM (fun _ _ _ => peerSelector_blocksCanonical) compiled

/-! ## Ports -/

/-- Ports as a well-formed rule has them. -/
structure PortTuple.WellFormed (tuple : PortTuple) : Prop where
  anyPort : tuple.1 = none → tuple.2 = .any
  number : ∀ port, tuple.2 = .number port → port ≠ 0
  range : ∀ start finish, tuple.2 = .range start finish → start ≠ 0

theorem numericPort_wellFormed {value : Int} {endPort : Option Int} {portIndex : Nat}
    {port : DestinationPort} (compiled : numericPort value endPort ruleIndex portIndex = .ok port) :
    port = .any ∨ ∃ start, start ≠ 0 ∧
      (port = .number start ∨ ∃ finish, port = .range start finish) := by
  simp only [numericPort, eq_ok_iffs, eq_false_iffs] at compiled
  obtain ⟨start, -, nonzero, rest⟩ := compiled
  split at rest
  · exact .inr ⟨start, nonzero, .inl (ok.inj rest).symm⟩
  · simp only [eq_ok_iffs] at rest
    obtain ⟨finish, -, -, rest⟩ := rest
    split at rest
    · exact .inl (ok.inj rest).symm
    · obtain ⟨-, returned⟩ := failIf_bind_eq_ok.mp rest
      rw [← ok.inj returned]
      split
      · exact .inr ⟨start, nonzero, .inl rfl⟩
      · exact .inr ⟨start, nonzero, .inr ⟨finish, rfl⟩⟩

theorem portTuple_wellFormed {entry : NetworkPolicyPort × Nat} {tuple : PortTuple}
    (compiled : portTuple ruleIndex entry = .ok tuple) : tuple.WellFormed := by
  simp only [portTuple, eq_ok_iffs] at compiled
  obtain ⟨protocol, -, destination, destinationCompiled, rfl⟩ := compiled
  rw [destinationPort] at destinationCompiled
  split at destinationCompiled
  · rcases numericPort_wellFormed destinationCompiled with
      rfl | ⟨start, nonzero, rfl | ⟨finish, rfl⟩⟩
    · exact ⟨by simp, by simp, by simp⟩
    · exact ⟨by simp, by simpa using nonzero, by simp⟩
    · exact ⟨by simp, by simp, by simpa using nonzero⟩
  · simp only [eq_ok_iffs] at destinationCompiled
    obtain ⟨-, -, rfl⟩ := destinationCompiled
    exact ⟨by simp, by simp, by simp⟩
  · simp only [eq_ok_iffs] at destinationCompiled
    obtain ⟨-, rfl⟩ := destinationCompiled
    exact ⟨by simp, by simp, by simp⟩

theorem ports_wellFormed {policyPorts : Option (List NetworkPolicyPort)} {tuples : List PortTuple}
    (compiled : ports policyPorts ruleIndex = .ok tuples) :
    ∀ tuple ∈ tuples, PortTuple.WellFormed tuple := by
  simp only [ports] at compiled
  split at compiled
  · obtain rfl := ok.inj compiled
    rintro tuple member
    obtain rfl := mem_singleton.mp member
    exact ⟨by simp, by simp, by simp⟩
  · exact forall_mem_mapM (fun _ _ _ => portTuple_wellFormed) compiled

/-! ## Policies -/

/-- What the lowering relies on in a rule. -/
structure RulePattern.Lowerable (pattern : RulePattern) : Prop where
  transport : PortTuple.WellFormed (pattern.protocol, pattern.destinationPort)
  sourceBlocks : pattern.source.BlocksCanonical
  destinationBlocks : pattern.destination.BlocksCanonical

private theorem transportWellFormed_of_pattern {rule : PolicyRule}
    (lowerable : rule.pattern.Lowerable) : rule.TransportWellFormed :=
  ⟨lowerable.transport.anyPort, lowerable.transport.number, lowerable.transport.range⟩

theorem CompiledNetworkPolicy.lowerable {object : NetworkPolicy}
    (result : CompiledNetworkPolicy policyId object) {direction : PolicyDirection}
    (included : result.directions.includes direction) : (result.policy direction).Lowerable := by
  have target := (podIdentitySelector_hasNoBlocks result.target_eq).blocksCanonical
  have rules : ∀ rule ∈ result.rules direction, rule.pattern.Lowerable := by
    refine result.forall_rule included (fun _ pattern => pattern.Lowerable)
      fun rule _ ruleIndex selectors tuples peersCompiled portsCompiled peer peerMember
        port portMember => ?_
    have transport := ports_wellFormed portsCompiled port portMember
    have blocks := peerSelectors_blocksCanonical peersCompiled peer peerMember
    cases direction with
    | ingress => exact ⟨transport, blocks, target⟩
    | egress => exact ⟨transport, target, blocks⟩
  constructor
  · exact fun rule member => transportWellFormed_of_pattern (rules rule member)
  · exact fun rule member => (rules rule member).sourceBlocks
  · exact fun rule member => (rules rule member).destinationBlocks
  · exact fun native => by cases native
  · exact fun _ => result.isCompatibility included

theorem IdentitySelector.ofWorkloadSelector_hasNoBlocks (value : WorkloadSelector) :
    (ofWorkloadSelector value).HasNoBlocks :=
  ⟨rfl, rfl⟩

private theorem portTuples_wellFormed {rule : IngressRule}
    (nonzero : ∀ item ∈ rule.protocols, item.port ≠ 0) :
    ∀ tuple ∈ rule.portTuples, PortTuple.WellFormed tuple := by
  intro tuple member
  rw [IngressRule.portTuples] at member
  split at member
  · obtain rfl := mem_singleton.mp member
    exact ⟨by simp, by simp, by simp⟩
  · obtain ⟨item, itemMember, rfl⟩ := mem_map.mp member
    exact ⟨by simp, by simpa using nonzero item itemMember, by simp⟩

/-- The rules of a native policy have no address blocks. -/
def NativeRules (rules : List PolicyRule) : Prop :=
  ∀ rule ∈ rules, rule.pattern.Lowerable ∧ rule.source.HasNoBlocks

private theorem compileIngressRule_nativeRules {name «namespace» : String}
    {target : IdentitySelector} (targetFree : target.HasNoBlocks) {before after : List PolicyRule}
    {entry : IngressRule × Nat}
    (compiled : compileIngressRule policyId name «namespace» target before entry = .ok after)
    (holds : NativeRules before) : NativeRules after := by
  obtain ⟨ingressRule, sourceIndex⟩ := entry
  obtain ⟨ports, loop⟩ := failIf_bind_eq_ok.mp compiled
  have nonzero : ∀ item ∈ ingressRule.protocols, item.port ≠ 0 := by simpa using ports
  have sourceFree := ofWorkloadSelector_hasNoBlocks ingressRule.from
  refine foldlM_invariant holds ?_ loop
  rintro ⟨protocol, port⟩ tupleMember middle next middleHolds pushed
  obtain ⟨added, rfl, pattern, -⟩ := pushRule_ok pushed
  intro rule member
  rcases mem_append.mp member with earlier | latest
  · exact middleHolds rule earlier
  · obtain rfl := mem_singleton.mp latest
    have source : rule.source = ofWorkloadSelector ingressRule.from :=
      congrArg RulePattern.source pattern
    rw [pattern, source]
    exact ⟨⟨portTuples_wellFormed nonzero _ tupleMember, sourceFree.blocksCanonical,
      targetFree.blocksCanonical⟩, sourceFree⟩

theorem compileSecurityPolicy_lowerable {object : SecurityPolicy}
    (compiled : compileSecurityPolicy policyId object = .ok policy) : policy.Lowerable := by
  simp only [compileSecurityPolicy, eq_ok_iffs] at compiled
  obtain ⟨name, -, «namespace», -, rules, rulesCompiled, rfl⟩ := compiled
  have initially : NativeRules [] := by simp [NativeRules]
  have invariant : NativeRules rules :=
    foldlM_invariant initially (fun entry _ before after holds ruleCompiled =>
      compileIngressRule_nativeRules ⟨rfl, rfl⟩ ruleCompiled holds) rulesCompiled
  constructor
  · exact fun rule member => transportWellFormed_of_pattern (invariant rule member).1
  · exact fun rule member => (invariant rule member).1.sourceBlocks
  · exact fun rule member => (invariant rule member).1.destinationBlocks
  · exact fun _ rule member => (invariant rule member).2
  · exact fun compatibility => by cases compatibility

/-- The policy comes from one of the two compilers. -/
inductive PolicyIr.Compiled (policy : PolicyIr) : Prop where
  | native {policyId : PolicyId} {object : SecurityPolicy}
      (compiled : compileSecurityPolicy policyId object = .ok policy)
  | networkPolicy {policyId : PolicyId} {object : NetworkPolicy} {policies : List PolicyIr}
      (compiled : compileDirections policyId object = .ok policies)
      (member : policy ∈ policies)

theorem PolicyIr.Compiled.lowerable (compiled : policy.Compiled) :
    policy.Lowerable := by
  cases compiled with
  | native compiled => exact compileSecurityPolicy_lowerable compiled
  | networkPolicy compiled member =>
    obtain ⟨result, mem_iff⟩ := compileDirections_ok compiled
    obtain ⟨direction, included, rfl⟩ := (mem_iff policy).mp member
    exact result.lowerable included

end Unf.Policy
