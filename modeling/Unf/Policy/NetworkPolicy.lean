import Unf.Lib.AddressText
import Unf.Policy.Compile

/-!
# Compilation of Kubernetes NetworkPolicy objects

The NetworkPolicy object and its translation to the intermediate
representation, one policy for each effective direction.  Ingress and egress
rules have the same shape; their peers stand in `from` and in `to`.
-/

namespace Unf.Policy

open Std (ExtTreeSet)
open Unf.Lib List

/-! ## Kubernetes objects -/

structure LabelSelectorRequirement where
  key : String
  operator : String
  values : Option (List String)

structure LabelSelector where
  matchLabels : Option Labels
  matchExpressions : Option (List LabelSelectorRequirement)

structure IpBlock where
  cidr : String
  except : Option (List String)

structure NetworkPolicyPeer where
  ipBlock : Option IpBlock
  namespaceSelector : Option LabelSelector
  podSelector : Option LabelSelector

inductive IntOrString where
  | int (value : Int)
  | string (value : String)
  deriving DecidableEq, Repr

structure NetworkPolicyPort where
  protocol : Option String
  port : Option IntOrString
  endPort : Option Int
  deriving DecidableEq, Repr

/-- An ingress or egress rule. -/
structure NetworkPolicyRule where
  peers : Option (List NetworkPolicyPeer)
  ports : Option (List NetworkPolicyPort)

structure NetworkPolicySpec where
  podSelector : Option LabelSelector
  policyTypes : Option (List String)
  ingress : Option (List NetworkPolicyRule)
  egress : Option (List NetworkPolicyRule)

structure NetworkPolicy where
  name : Option String
  «namespace» : Option String
  spec : Option NetworkPolicySpec

inductive NetworkPolicyCompileError where
  | missingName
  | missingNamespace
  | missingSpec
  | unsupportedEgress
  | unsupportedPolicyType (policyType : String)
  | invalidMatchExpressionOperator (field key operator : String)
  | invalidMatchExpressionValues (field key operator : String)
  | invalidIpBlockPeerCombination (ruleIndex peerIndex : Nat)
  | invalidIpBlockCidr (ruleIndex peerIndex : Nat) (cidr : String)
  | ipBlockExceptOutsideCidr (ruleIndex peerIndex : Nat) (cidr except : String)
  | ipBlockTooLarge (ruleIndex peerIndex addressCount limit : Nat)
  | ipv6IpBlockTooManyPrefixes (ruleIndex peerIndex prefixCount limit : Nat)
  | ipBlockContainsReservedAddress (ruleIndex peerIndex : Nat)
  | invalidNamedPort (ruleIndex portIndex : Nat)
  | invalidNamedPortRange (ruleIndex portIndex : Nat)
  | invalidPortRange (ruleIndex portIndex : Nat) (start finish : Int)
  | portRangeTooLarge (ruleIndex portIndex width limit : Nat)
  | unsupportedProtocol (ruleIndex portIndex : Nat) (protocol : String)
  | invalidPort (ruleIndex portIndex : Nat) (port : Int)
  | tooManyRules
  deriving DecidableEq, Repr

def kubernetesNetworkPolicyMaxPortRangeWidth : Nat := 1024

def kubernetesNetworkPolicyMaxIpBlockAddresses : Nat := 1024

def kubernetesNetworkPolicyMaxIpv6IpBlockPrefixes : Nat := 1024

def namespaceNameLabel : String := "kubernetes.io/metadata.name"

/-! ## Selectors -/

namespace LabelExpression

def operatorRank : LabelExpressionOperator → Nat
  | .isIn => 0
  | .notIn => 1
  | .exists => 2
  | .doesNotExist => 3

theorem operatorRank_injective : Function.Injective operatorRank := by
  intro left right
  cases left <;> cases right <;> decide

instance : LinearOrder LabelExpression :=
  LinearOrder.lift' (fun expression => toLex (expression.key,
      toLex (operatorRank expression.operator, expression.values.toList))) <| by
    rintro ⟨leftKey, leftOperator, leftValues⟩ ⟨rightKey, rightOperator, rightValues⟩ equal
    obtain ⟨key, equal⟩ := Prod.mk.inj (toLex.injective equal)
    obtain ⟨operator, values⟩ := Prod.mk.inj (toLex.injective equal)
    rw [mk.injEq]
    exact ⟨key, operatorRank_injective operator, ExtTreeSet.toList_inj.mp values⟩

end LabelExpression

/-- The operator of a requirement, which fixes whether it has values. -/
def expressionOperator (field : String) (requirement : LabelSelectorRequirement)
    (values : ExtTreeSet String) :
    Except NetworkPolicyCompileError LabelExpressionOperator :=
  if requirement.operator == "In" && !values.isEmpty then .ok .isIn
  else if requirement.operator == "NotIn" && !values.isEmpty then .ok .notIn
  else if requirement.operator == "Exists" && values.isEmpty then .ok .exists
  else if requirement.operator == "DoesNotExist" && values.isEmpty then .ok .doesNotExist
  else if ["In", "NotIn", "Exists", "DoesNotExist"].contains requirement.operator then
    .error (.invalidMatchExpressionValues field requirement.key requirement.operator)
  else
    .error (.invalidMatchExpressionOperator field requirement.key requirement.operator)

def labelExpression (field : String) (requirement : LabelSelectorRequirement) :
    Except NetworkPolicyCompileError LabelExpression := do
  let values := ExtTreeSet.ofList (requirement.values.getD [])
  let operator ← expressionOperator field requirement values
  return { key := requirement.key, operator, values }

/-- The expressions of a selector as a sorted list without repetitions. -/
def labelExpressions (field : String) (selector : LabelSelector) :
    Except NetworkPolicyCompileError (List LabelExpression) := do
  let expressions ← (selector.matchExpressions.getD []).mapM (labelExpression field)
  return (ExtTreeSet.ofList expressions).toList

variable (policyId : PolicyId) (peers : Option (List NetworkPolicyPeer)) (selector : LabelSelector)
  (policyNamespace : String) (ruleIndex : Nat) (direction : PolicyDirection) {width : Nat}
  {value : String} {cidr : Cidr width}

def podIdentitySelector («namespace» : Option String) (field : String) :
    Except NetworkPolicyCompileError IdentitySelector := do
  let matchExpressions ← labelExpressions field selector
  return { IdentitySelector.unconstrained with
    «namespace»
    matchLabels := selector.matchLabels.getD ∅
    matchExpressions }

structure NamespaceIdentitySelector where
  «namespace» : Option String
  matchLabels : Labels
  matchExpressions : List LabelExpression

def namespaceIdentitySelector : Except NetworkPolicyCompileError NamespaceIdentitySelector := do
  let matchLabels := selector.matchLabels.getD ∅
  let matchExpressions ← labelExpressions "peer namespaceSelector" selector
  return {
    «namespace» := matchLabels[namespaceNameLabel]?
    matchLabels := matchLabels.erase namespaceNameLabel
    matchExpressions }

/-! ## Address blocks -/

/-- A textual CIDR with host bits cleared, for an address parser of either
family. -/
def parseCidr {width : Nat} (parseAddress : List Char → Option (BitVec width))
    (value : String) : Option (Cidr width) := do
  let (addressText, prefixText) ← splitOnce '/' value.toList
  let address ← parseAddress addressText
  let prefixLen ← parseUnsigned 256 prefixText
  if prefixLen > width then
    none
  else
    return Cidr.around address prefixLen

def parseIpv4Cidr : String → Option Ipv4Cidr := parseCidr parseIpv4

def parseIpv6Cidr : String → Option Ipv6Cidr := parseCidr parseIpv6

def addressCount (cidr : Ipv4Cidr) : Nat :=
  if cidr.prefixLen > 32 then 2 ^ 64 - 1 else 2 ^ (32 - cidr.prefixLen)

/-- Parse one exception of a block and check that it lies inside it. -/
def parseException {width : Nat} (parse : String → Option (Cidr width))
    (cidr : Cidr width) (cidrText : String) (ruleIndex peerIndex : Nat)
    (exceptText : String) : Except NetworkPolicyCompileError (Cidr width) := do
  let except ← (parse exceptText).elim
    (.error (.invalidIpBlockCidr ruleIndex peerIndex exceptText)) .ok
  failIf (!cidr.containsCidr except)
    (.ipBlockExceptOutsideCidr ruleIndex peerIndex cidrText exceptText)
  return except

/-- The exceptions of a block in ascending order and without repetitions. -/
def parseExceptions {width : Nat} (parse : String → Option (Cidr width))
    (cidr : Cidr width) (cidrText : String) (exceptions : Option (List String))
    (ruleIndex peerIndex : Nat) :
    Except NetworkPolicyCompileError (List (Cidr width)) := do
  let parsed ← (exceptions.getD []).mapM
    (parseException parse cidr cidrText ruleIndex peerIndex)
  return sortDedup parsed

/-- The addresses excluded from the IPv4 default route are expanded exactly, so
their number is bounded.  A sum beyond `u64` is reported as its largest value. -/
def validateGlobalIpv4Exceptions (cidr : Ipv4Cidr) (except : List Ipv4Cidr)
    (ruleIndex peerIndex : Nat) : Except NetworkPolicyCompileError Unit :=
  if cidr.prefixLen != 0 then
    .ok ()
  else
    let count := (except.map addressCount).sum
    failIf (!decide (count ≤ kubernetesNetworkPolicyMaxIpBlockAddresses))
      (.ipBlockTooLarge ruleIndex peerIndex (min count (2 ^ 64 - 1))
        kubernetesNetworkPolicyMaxIpBlockAddresses)

def ipBlockSelector (ipBlock : IpBlock) (ruleIndex peerIndex : Nat) :
    Except NetworkPolicyCompileError IdentitySelector :=
  match parseIpv6Cidr ipBlock.cidr with
  | some cidr => do
      let except ← parseExceptions parseIpv6Cidr cidr ipBlock.cidr ipBlock.except
        ruleIndex peerIndex
      let prefixCount := 1 + except.length
      failIf (decide (prefixCount > kubernetesNetworkPolicyMaxIpv6IpBlockPrefixes))
        (.ipv6IpBlockTooManyPrefixes ruleIndex peerIndex prefixCount
          kubernetesNetworkPolicyMaxIpv6IpBlockPrefixes)
      return { IdentitySelector.unconstrained with ipv6Blocks := [⟨cidr, except⟩] }
  | none => do
      let cidr ← (parseIpv4Cidr ipBlock.cidr).elim
        (.error (.invalidIpBlockCidr ruleIndex peerIndex ipBlock.cidr)) .ok
      failIf (cidr.prefixLen != 0 && cidr.contains 0)
        (.ipBlockContainsReservedAddress ruleIndex peerIndex)
      failIf (cidr.prefixLen != 0 &&
          decide (addressCount cidr > kubernetesNetworkPolicyMaxIpBlockAddresses))
        (.ipBlockTooLarge ruleIndex peerIndex (addressCount cidr)
          kubernetesNetworkPolicyMaxIpBlockAddresses)
      let except ← parseExceptions parseIpv4Cidr cidr ipBlock.cidr ipBlock.except
        ruleIndex peerIndex
      validateGlobalIpv4Exceptions cidr except ruleIndex peerIndex
      return { IdentitySelector.unconstrained with ipv4Blocks := [⟨cidr, except⟩] }

/-! ## Peers -/

/-- The namespace part of a peer; without a namespace selector a Pod selector
stays in the policy's own namespace. -/
def peerNamespaceSelector (peer : NetworkPolicyPeer) (policyNamespace : String) :
    Except NetworkPolicyCompileError NamespaceIdentitySelector :=
  match peer.namespaceSelector with
  | some selector => namespaceIdentitySelector selector
  | none =>
    let «namespace» := if peer.podSelector.isSome then some policyNamespace else none
    .ok { «namespace», matchLabels := ∅, matchExpressions := [] }

def peerPodSelector (peer : NetworkPolicyPeer) :
    Except NetworkPolicyCompileError IdentitySelector :=
  match peer.podSelector with
  | some selector => podIdentitySelector selector none "peer podSelector"
  | none => .ok .unconstrained

def peerSelector (entry : NetworkPolicyPeer × Nat) :
    Except NetworkPolicyCompileError IdentitySelector :=
  let (peer, peerIndex) := entry
  match peer.ipBlock with
  | some ipBlock => do
      failIf (peer.namespaceSelector.isSome || peer.podSelector.isSome)
        (.invalidIpBlockPeerCombination ruleIndex peerIndex)
      ipBlockSelector ipBlock ruleIndex peerIndex
  | none => do
      let namespaceSelector ← peerNamespaceSelector peer policyNamespace
      let identitySelector ← peerPodSelector peer
      return { identitySelector with
        «namespace» := namespaceSelector.namespace
        namespaceMatchLabels := namespaceSelector.matchLabels
        namespaceMatchExpressions := namespaceSelector.matchExpressions }

/-- The selectors of a peer list, in which an absent or empty list stands for
every peer. -/
def peerSelectors : Except NetworkPolicyCompileError (List IdentitySelector) :=
  let peers := peers.getD []
  if peers.isEmpty then
    .ok [.unconstrained]
  else
    peers.zipIdx.mapM (peerSelector policyNamespace ruleIndex)

def sources : Except NetworkPolicyCompileError (List IdentitySelector) :=
  peerSelectors peers policyNamespace ruleIndex

def destinations : Except NetworkPolicyCompileError (List IdentitySelector) :=
  peerSelectors peers policyNamespace ruleIndex

/-! ## Ports -/

/-- `u16::try_from`. -/
def portNumber (value : Int) : Option UInt16 :=
  if 0 ≤ value ∧ value < 2 ^ 16 then some (UInt16.ofNat value.toNat) else none

abbrev PortTuple := Option Protocol × DestinationPort

/-- The destination port of a numeric port, with its optional range end. -/
def numericPort (value : Int) (endPort : Option Int) (ruleIndex portIndex : Nat) :
    Except NetworkPolicyCompileError DestinationPort := do
  let start ← (portNumber value).elim
    (.error (.invalidPort ruleIndex portIndex value)) .ok
  failIf (start == 0) (.invalidPort ruleIndex portIndex 0)
  match endPort with
  | none => return .number start
  | some endValue =>
    let finish ← (portNumber endValue).elim
      (.error (.invalidPortRange ruleIndex portIndex value endValue)) .ok
    failIf (decide (finish < start))
      (.invalidPortRange ruleIndex portIndex value endValue)
    let width := finish.toNat - start.toNat + 1
    if start == 1 && finish == 65535 then
      .ok .any
    else do
      failIf (decide (width > kubernetesNetworkPolicyMaxPortRangeWidth))
        (.portRangeTooLarge ruleIndex portIndex width kubernetesNetworkPolicyMaxPortRangeWidth)
      return if start == finish then .number start else .range start finish

def portProtocol (port : NetworkPolicyPort) (ruleIndex portIndex : Nat) :
    Except NetworkPolicyCompileError Protocol :=
  let value := port.protocol.getD "TCP"
  if value == "TCP" then .ok .tcp
  else if value == "UDP" then .ok .udp
  else if value == "SCTP" then .ok .sctp
  else .error (.unsupportedProtocol ruleIndex portIndex value)

def destinationPort (port : NetworkPolicyPort) (ruleIndex portIndex : Nat) :
    Except NetworkPolicyCompileError DestinationPort :=
  match port.port with
  | some (.int value) => numericPort value port.endPort ruleIndex portIndex
  | some (.string name) => do
      failIf name.isEmpty (.invalidNamedPort ruleIndex portIndex)
      failIf port.endPort.isSome (.invalidNamedPortRange ruleIndex portIndex)
      return .named name
  | none => do
      failIf port.endPort.isSome
        (.invalidPortRange ruleIndex portIndex 0 (port.endPort.getD 0))
      return .any

def portTuple (entry : NetworkPolicyPort × Nat) : Except NetworkPolicyCompileError PortTuple := do
  let (port, portIndex) := entry
  let protocol ← portProtocol port ruleIndex portIndex
  let destinationPort ← destinationPort port ruleIndex portIndex
  return (some protocol, destinationPort)

def ports (policyPorts : Option (List NetworkPolicyPort)) (ruleIndex : Nat) :
    Except NetworkPolicyCompileError (List PortTuple) :=
  let policyPorts := policyPorts.getD []
  if policyPorts.isEmpty then
    .ok [(none, .any)]
  else
    policyPorts.zipIdx.mapM (portTuple ruleIndex)

/-! ## Policies -/

structure PolicyDirections where
  ingress : Bool
  egress : Bool
  deriving DecidableEq, Repr

/-- One step of the loop over the listed policy types. -/
def includePolicyType (directions : PolicyDirections) (policyType : String) :
    Except NetworkPolicyCompileError PolicyDirections :=
  if policyType == "Ingress" then .ok { directions with ingress := true }
  else if policyType == "Egress" then .ok { directions with egress := true }
  else .error (.unsupportedPolicyType policyType)

def policyDirections (policyTypes : Option (List String))
    (egress : Option (List NetworkPolicyRule)) :
    Except NetworkPolicyCompileError PolicyDirections :=
  if policyTypes.all List.isEmpty then
    .ok { ingress := true, egress := egress.any fun rules => !rules.isEmpty }
  else
    (policyTypes.getD []).foldlM includePolicyType { ingress := false, egress := false }

def compatibilityPolicyIr (name «namespace» : String) (direction : PolicyDirection)
    (target : IdentitySelector) (rules : List PolicyRule) : PolicyIr where
  id := policyId
  name := name
  «namespace» := «namespace»
  priority := kubernetesNetworkPolicyPriority
  origin := .kubernetesNetworkPolicy
  direction := direction
  target := target
  defaultAction := .deny
  enforcementMode := .enforce
  rules := rules

/-- The pattern of a rule for one peer and one port: the isolated Pods are the
destinations of ingress traffic and the sources of egress traffic. -/
def compatibilityPattern (target peer : IdentitySelector) (port : PortTuple) : RulePattern :=
  match direction with
  | .ingress => ⟨peer, target, port.1, port.2, .allow⟩
  | .egress => ⟨target, peer, port.1, port.2, .allow⟩

/-- The peers of a rule: the sources of ingress and the destinations of egress. -/
def rulePeers (rule : NetworkPolicyRule) («namespace» : String) (ruleIndex : Nat) :
    Except NetworkPolicyCompileError (List IdentitySelector) :=
  match direction with
  | .ingress => sources rule.peers «namespace» ruleIndex
  | .egress => destinations rule.peers «namespace» ruleIndex

/-- Append the rules of one NetworkPolicy rule, one for each peer and port. -/
def compileNetworkPolicyRule (name «namespace» : String) (direction : PolicyDirection)
    (target : IdentitySelector) (rules : List PolicyRule) (entry : NetworkPolicyRule × Nat) :
    Except NetworkPolicyCompileError (List PolicyRule) := do
  let (rule, ruleIndex) := entry
  let peers ← rulePeers direction rule «namespace» ruleIndex
  let ports ← ports rule.ports ruleIndex
  peers.foldlM (fun rules peer => ports.foldlM (fun rules port =>
    (pushRule policyId name «namespace» rules
      (compatibilityPattern direction target peer port) ruleIndex).mapError
        fun _ => .tooManyRules) rules) rules

def PolicyDirections.includes (directions : PolicyDirections) : PolicyDirection → Bool
  | .ingress => directions.ingress
  | .egress => directions.egress

/-- The rules of one direction; an absent list has none. -/
def NetworkPolicySpec.rules (spec : NetworkPolicySpec) :
    PolicyDirection → List NetworkPolicyRule
  | .ingress => spec.ingress.getD []
  | .egress => spec.egress.getD []

/-- The policy of one direction, when the object has that direction. -/
def compileDirection (name «namespace» : String) (target : IdentitySelector)
    (spec : NetworkPolicySpec) (directions : PolicyDirections) (direction : PolicyDirection) :
    Except NetworkPolicyCompileError (List PolicyIr) :=
  if directions.includes direction then do
    let rules ← (spec.rules direction).zipIdx.foldlM
      (compileNetworkPolicyRule policyId name «namespace» direction target) []
    return [compatibilityPolicyIr policyId name «namespace» direction target rules]
  else
    .ok []

/-- `NetworkPolicyCompiler::compile_directions`. -/
def compileDirections (policy : NetworkPolicy) :
    Except NetworkPolicyCompileError (List PolicyIr) := do
  let name ← policy.name.elim (.error .missingName) .ok
  let «namespace» ← policy.namespace.elim (.error .missingNamespace) .ok
  let spec ← policy.spec.elim (.error .missingSpec) .ok
  let directions ← policyDirections spec.policyTypes spec.egress
  let target ← podIdentitySelector (spec.podSelector.getD ⟨none, none⟩)
    (some «namespace») "podSelector"
  let ingress ← compileDirection policyId name «namespace» target spec directions .ingress
  let egress ← compileDirection policyId name «namespace» target spec directions .egress
  return ingress ++ egress

/-- `NetworkPolicyCompiler::compile`, which admits ingress policies only. -/
def compileNetworkPolicy (policy : NetworkPolicy) : Except NetworkPolicyCompileError PolicyIr := do
  let policies ← compileDirections policyId policy
  match policies with
  | [compiled] =>
    if compiled.direction == .ingress then .ok compiled else .error .unsupportedEgress
  | _ => .error .unsupportedEgress

/-! ## What accepted blocks compile to -/

theorem parseCidr_canonical {parseAddress : List Char → Option (BitVec width)}
    (parsed : parseCidr parseAddress value = some cidr) : cidr.Canonical := by
  simp only [parseCidr, Option.bind_eq_bind, Option.bind_eq_some_iff] at parsed
  obtain ⟨parts, -, address, -, prefixLen, -, result⟩ := parsed
  split at result
  · simp at result
  · obtain rfl := Option.some.inj result
    exact Cidr.canonical_of_contains (Cidr.around_contains address (by omega))

theorem parseIpv6Cidr_eq_none {cidr : Ipv4Cidr}
    (parsed : parseIpv4Cidr value = some cidr) : parseIpv6Cidr value = none := by
  simp only [parseIpv4Cidr, parseCidr, Option.bind_eq_bind, Option.bind_eq_some_iff] at parsed
  obtain ⟨parts, split, address, addressParsed, -⟩ := parsed
  simp [parseIpv6Cidr, parseCidr, split, parseIpv6_eq_none_of_parseIpv4 addressParsed]

variable {ruleIndex : Nat} {policyId : PolicyId} {direction : PolicyDirection}
  {target : IdentitySelector} {policies : List PolicyIr} {peerIndex : Nat}
  {name «namespace» : String}

theorem parseExceptions_ok {parse : String → Option (Cidr width)}
    {cidrText : String} {exceptions : Option (List String)} {except : List (Cidr width)}
    (parsed : parseExceptions parse cidr cidrText exceptions ruleIndex peerIndex = .ok except) :
    (∀ item, item ∈ except ↔ ∃ text ∈ exceptions.getD [], parse text = some item) ∧
      ∀ item ∈ except, cidr.containsCidr item = true := by
  simp only [parseExceptions, eq_ok_iffs] at parsed
  obtain ⟨items, itemsComputed, rfl⟩ := parsed
  have single : ∀ text item,
      parseException parse cidr cidrText ruleIndex peerIndex text = .ok item →
        parse text = some item ∧ cidr.containsCidr item = true := by
    intro text item computed
    simp only [parseException, eq_ok_iffs, eq_false_iffs] at computed
    obtain ⟨parsedItem, parsedText, inside, rfl⟩ := computed
    exact ⟨parsedText, inside⟩
  simp only [mem_sortDedup]
  constructor
  · intro item
    have members : (∃ other ∈ items, other = item) ↔
        ∃ text ∈ exceptions.getD [], parse text = some item := by
      refine exists_mem_mapM_iff (fun text _ other computed => ?_) itemsComputed
      rw [(single text other computed).1, Option.some_inj]
    simpa using members
  · by_contra! outside
    obtain ⟨text, -, impossible⟩ : ∃ text ∈ exceptions.getD [], False := by
      refine (exists_mem_mapM_iff (fun text _ other computed => ?_) itemsComputed).mp outside
      simp [(single text other computed).2]
    exact impossible

/-- An accepted block compiles to a selector with that block alone, of the
family in which its text is written. -/
theorem ipBlockSelector_ok {ipBlock : IpBlock} {selector : IdentitySelector}
    (compiled : ipBlockSelector ipBlock ruleIndex peerIndex = .ok selector) :
    (∃ cidr except, parseIpv6Cidr ipBlock.cidr = some cidr ∧
      parseExceptions parseIpv6Cidr cidr ipBlock.cidr ipBlock.except ruleIndex peerIndex =
        .ok except ∧
      selector = { IdentitySelector.unconstrained with ipv6Blocks := [⟨cidr, except⟩] }) ∨
    ∃ cidr except, parseIpv4Cidr ipBlock.cidr = some cidr ∧
      parseExceptions parseIpv4Cidr cidr ipBlock.cidr ipBlock.except ruleIndex peerIndex =
        .ok except ∧
      (cidr.prefixLen = 0 →
        (except.map addressCount).sum ≤ kubernetesNetworkPolicyMaxIpBlockAddresses) ∧
      selector = { IdentitySelector.unconstrained with ipv4Blocks := [⟨cidr, except⟩] } := by
  rw [ipBlockSelector] at compiled
  split at compiled
  next cidr parsed =>
    simp only [eq_ok_iffs] at compiled
    obtain ⟨except, exceptions, -, rfl⟩ := compiled
    exact .inl ⟨cidr, except, parsed, exceptions, rfl⟩
  next =>
    simp only [eq_ok_iffs] at compiled
    obtain ⟨cidr, parsed, -, -, except, exceptions, global, rfl⟩ := compiled
    refine .inr ⟨cidr, except, parsed, exceptions, fun zero => ?_, rfl⟩
    simpa [validateGlobalIpv4Exceptions, zero] using global

/-! ## What an accepted object compiles to -/

/-- The rules appended for one NetworkPolicy rule have the patterns of its peers
and ports, and belong to the policy. -/
theorem compileNetworkPolicyRule_ok {before after : List PolicyRule}
    {rule : NetworkPolicyRule} (ofRule : PolicyId → RulePattern → Prop)
    (compiled : compileNetworkPolicyRule policyId name «namespace» direction target before
      (rule, ruleIndex) = .ok after) : ∃ peerSelectors portTuples,
      Unf.Policy.peerSelectors rule.peers «namespace» ruleIndex = .ok peerSelectors ∧
      ports rule.ports ruleIndex = .ok portTuples ∧ ∃ appended, after = before ++ appended ∧
        ((∃ compiledRule ∈ appended, ofRule compiledRule.provenance.policyId compiledRule.pattern) ↔
          ∃ peer ∈ peerSelectors, ∃ port ∈ portTuples,
            ofRule policyId (compatibilityPattern direction target peer port)) := by
  simp only [compileNetworkPolicyRule, bind_eq_ok] at compiled
  obtain ⟨peerSelectors, peersComputed, portTuples, portsComputed, compiled⟩ := compiled
  refine ⟨peerSelectors, portTuples, by cases direction <;> exact peersComputed, portsComputed, ?_⟩
  refine exists_mem_foldlM_iff (fun peer _ before after peerPushed => ?_) compiled
  refine exists_mem_foldlM_iff (fun port _ before after pushed => ?_) peerPushed
  obtain ⟨compiledRule, rfl, pattern, owner⟩ := pushRule_ok (mapError_eq_ok.mp pushed)
  exact ⟨[compiledRule], rfl, by simp [pattern, owner]⟩

theorem exists_mem_zipIdx_iff {α : Type} {items : List α} {holds : α → Prop} :
    (∃ entry ∈ items.zipIdx, holds entry.1) ↔ ∃ item ∈ items, holds item := by
  constructor
  · rintro ⟨⟨item, index⟩, member, itemHolds⟩
    exact ⟨item, fst_mem_of_mem_zipIdx member, itemHolds⟩
  · rintro ⟨item, member, itemHolds⟩
    obtain ⟨index, bound, rfl⟩ := getElem_of_mem member
    exact ⟨(items[index], index), mk_mem_zipIdx_iff_getElem?.mpr (by simp), itemHolds⟩

/-- The parts that an accepted object compiles to. -/
structure CompiledNetworkPolicy (policyId : PolicyId) (object : NetworkPolicy) where
  name : String
  «namespace» : String
  spec : NetworkPolicySpec
  directions : PolicyDirections
  target : IdentitySelector
  rules : PolicyDirection → List PolicyRule
  namespace_eq : object.namespace = some «namespace»
  spec_eq : object.spec = some spec
  directions_eq : policyDirections spec.policyTypes spec.egress = .ok directions
  target_eq : podIdentitySelector (spec.podSelector.getD ⟨none, none⟩) (some «namespace»)
    "podSelector" = .ok target
  rules_eq : ∀ direction, directions.includes direction →
    (spec.rules direction).zipIdx.foldlM
      (compileNetworkPolicyRule policyId name «namespace» direction target) [] =
        .ok (rules direction)

namespace CompiledNetworkPolicy

variable {policyId : PolicyId} {object : NetworkPolicy}

def policy (result : CompiledNetworkPolicy policyId object)
    (direction : PolicyDirection) : PolicyIr :=
  compatibilityPolicyIr policyId result.name result.namespace direction result.target
    (result.rules direction)

variable {direction : PolicyDirection}

/-- What holds of some compiled rule of a direction, in terms of the object's
rules. -/
theorem exists_rule_iff (result : CompiledNetworkPolicy policyId object)
    (included : result.directions.includes direction) (ofCompiled : PolicyId → RulePattern → Prop)
    (ofRule : NetworkPolicyRule → Prop)
    (step : ∀ rule ∈ result.spec.rules direction, ∀ ruleIndex selectors tuples,
      peerSelectors rule.peers result.namespace ruleIndex = .ok selectors →
      ports rule.ports ruleIndex = .ok tuples →
      ((∃ peer ∈ selectors, ∃ port ∈ tuples, ofCompiled policyId
        (compatibilityPattern direction result.target peer port)) ↔ ofRule rule)) :
    (∃ rule ∈ result.rules direction, ofCompiled rule.provenance.policyId rule.pattern) ↔
      ∃ rule ∈ result.spec.rules direction, ofRule rule := by
  have entryStep : ∀ entry ∈ (result.spec.rules direction).zipIdx, ∀ before after,
      compileNetworkPolicyRule policyId result.name result.namespace direction
        result.target before entry = .ok after →
      ∃ appended, after = before ++ appended ∧
        ((∃ rule ∈ appended, ofCompiled rule.provenance.policyId rule.pattern) ↔
          ofRule entry.1) := by
    intro entry member before after compiled
    obtain ⟨selectors, tuples, peersComputed, portsComputed, appended, equal,
      characterised⟩ := compileNetworkPolicyRule_ok ofCompiled compiled
    exact ⟨appended, equal, characterised.trans (step entry.1
      (fst_mem_of_mem_zipIdx member) entry.2 selectors tuples peersComputed portsComputed)⟩
  obtain ⟨appended, equal, characterised⟩ :=
    exists_mem_foldlM_iff entryStep (result.rules_eq direction included)
  rw [equal, nil_append, characterised, exists_mem_zipIdx_iff]

/-- What holds of every compiled peer and port holds of every compiled rule. -/
theorem forall_rule (result : CompiledNetworkPolicy policyId object)
    (included : result.directions.includes direction) (ofCompiled : PolicyId → RulePattern → Prop)
    (step : ∀ rule ∈ result.spec.rules direction, ∀ ruleIndex selectors tuples,
      peerSelectors rule.peers result.namespace ruleIndex = .ok selectors →
      ports rule.ports ruleIndex = .ok tuples →
      ∀ peer ∈ selectors, ∀ port ∈ tuples, ofCompiled policyId
        (compatibilityPattern direction result.target peer port)) : ∀ rule ∈ result.rules direction,
      ofCompiled rule.provenance.policyId rule.pattern := by
  by_contra! failing
  have none := result.exists_rule_iff included
    (fun owner pattern => ¬ofCompiled owner pattern) (fun _ => False)
    fun rule member ruleIndex selectors tuples peersComputed portsComputed => by
      simpa using step rule member ruleIndex selectors tuples peersComputed portsComputed
  simpa using none.mp failing

end CompiledNetworkPolicy

private theorem compileDirection_ok {spec : NetworkPolicySpec} {directions : PolicyDirections}
    (compiled : compileDirection policyId name «namespace» target spec directions
      direction = .ok policies) :
    ∃ rules, (directions.includes direction → (spec.rules direction).zipIdx.foldlM
        (compileNetworkPolicyRule policyId name «namespace» direction target) [] = .ok rules) ∧
      ∀ policy, policy ∈ policies ↔ directions.includes direction ∧
        policy = compatibilityPolicyIr policyId name «namespace» direction target rules := by
  rw [compileDirection] at compiled
  split at compiled
  next included =>
    simp only [eq_ok_iffs] at compiled
    obtain ⟨rules, rulesComputed, rfl⟩ := compiled
    exact ⟨rules, fun _ => rulesComputed, by simp [included]⟩
  next excluded =>
    obtain rfl := Except.ok.inj compiled
    exact ⟨[], fun included => absurd included excluded, by simp [excluded]⟩

/-- An accepted object compiles to one policy for each of its directions. -/
theorem compileDirections_ok {object : NetworkPolicy}
    (compiled : compileDirections policyId object = .ok policies) :
    ∃ result : CompiledNetworkPolicy policyId object, ∀ policy, policy ∈ policies ↔
      ∃ direction, result.directions.includes direction ∧ policy = result.policy direction := by
  simp only [compileDirections, eq_ok_iffs] at compiled
  obtain ⟨name, -, «namespace», namespaceEq, spec, specEq, directions, directionsEq,
    target, targetEq, ingress, ingressCompiled, egress, egressCompiled, rfl⟩ := compiled
  obtain ⟨ingressRules, ingressRulesEq, memIngress⟩ := compileDirection_ok ingressCompiled
  obtain ⟨egressRules, egressRulesEq, memEgress⟩ := compileDirection_ok egressCompiled
  refine ⟨⟨name, «namespace», spec, directions, target,
    fun | .ingress => ingressRules | .egress => egressRules,
    namespaceEq, specEq, directionsEq, targetEq, ?_⟩, ?_⟩
  · rintro (_ | _)
    · exact ingressRulesEq
    · exact egressRulesEq
  · intro policy
    rw [mem_append, memIngress, memEgress]
    constructor
    · rintro (holds | holds)
      · exact ⟨.ingress, holds⟩
      · exact ⟨.egress, holds⟩
    · rintro ⟨_ | _, holds⟩
      · exact .inl holds
      · exact .inr holds

/-! ## Sets of objects -/

/-- Compile a set of objects, each with its policy id. -/
def compileNetworkPolicies (objects : List (PolicyId × NetworkPolicy)) :
    Except NetworkPolicyCompileError (List PolicyIr) := do
  let compiled ← objects.mapM fun (policyId, object) => compileDirections policyId object
  return compiled.flatten

section Sets

variable {objects : List (PolicyId × NetworkPolicy)} {policies : List PolicyIr}

/-- What holds of some compiled policy, in terms of the objects. -/
theorem exists_mem_compileNetworkPolicies_iff
    (compiled : compileNetworkPolicies objects = .ok policies)
    (ofPolicy : PolicyIr → Prop) (ofObject : NetworkPolicy → Prop)
    (step : ∀ policyId object, ∀ result : CompiledNetworkPolicy policyId object,
      ((∃ direction, result.directions.includes direction ∧
        ofPolicy (result.policy direction)) ↔ ofObject object)) :
    (∃ policy ∈ policies, ofPolicy policy) ↔ ∃ object ∈ objects.map Prod.snd, ofObject object := by
  simp only [compileNetworkPolicies, eq_ok_iffs] at compiled
  obtain ⟨lists, listsCompiled, rfl⟩ := compiled
  have perObject : (∃ list ∈ lists, ∃ policy ∈ list, ofPolicy policy) ↔
      ∃ entry ∈ objects, ofObject entry.2 := by
    refine exists_mem_mapM_iff (fun entry _ list entryCompiled => ?_) listsCompiled
    obtain ⟨result, members⟩ := compileDirections_ok entryCompiled
    rw [← step entry.1 entry.2 result]
    simp only [members]
    constructor
    · rintro ⟨policy, ⟨direction, included, rfl⟩, holds⟩
      exact ⟨direction, included, holds⟩
    · rintro ⟨direction, included, holds⟩
      exact ⟨_, ⟨direction, included, rfl⟩, holds⟩
  simp only [mem_flatten, mem_map, exists_exists_and_eq_and] at perObject ⊢
  rw [← perObject]
  constructor
  · rintro ⟨policy, ⟨list, listMember, member⟩, holds⟩
    exact ⟨list, listMember, policy, member, holds⟩
  · rintro ⟨list, listMember, policy, member, holds⟩
    exact ⟨policy, ⟨list, listMember, member⟩, holds⟩

/-- What holds of the policies of every accepted object holds of all compiled
policies. -/
theorem forall_mem_compileNetworkPolicies (compiled : compileNetworkPolicies objects = .ok policies)
    {ofPolicy : PolicyIr → Prop}
    (step : ∀ policyId object, ∀ result : CompiledNetworkPolicy policyId object,
      ∀ direction, result.directions.includes direction → ofPolicy (result.policy direction)) :
    ∀ policy ∈ policies, ofPolicy policy := by
  by_contra! failing
  have none := exists_mem_compileNetworkPolicies_iff compiled
    (fun policy => ¬ofPolicy policy) (fun _ => False) fun policyId object result => by
      simpa using step policyId object result
  simpa using none.mp failing

end Sets

end Unf.Policy
