import Unf.Policy.Evaluate

/-!
# Compilation of native security policies

The API object of a native policy and its translation to the intermediate
representation.  Every rule receives the next rule id and records the policy
that owns it.
-/

namespace Unf.Policy

open Unf.Lib

/-! ## API objects -/

/-- Workloads of a native policy. -/
structure WorkloadSelector where
  «namespace» : Option String
  serviceAccount : Option String
  application : Option String
  matchLabels : Labels

inductive TransportProtocol where
  | tcp
  | udp
  deriving DecidableEq, Repr

structure ProtocolPort where
  protocol : TransportProtocol
  port : UInt16
  deriving DecidableEq, Repr

/-- Who may reach which ports. -/
structure IngressRule where
  «from» : WorkloadSelector
  protocols : List ProtocolPort
  action : PolicyAction

/-- A native policy with the metadata that the compiler reads.  The API's own
action and mode enumerations have the same members as those of the
representation, and the compiler maps them by name. -/
structure SecurityPolicy where
  name : Option String
  «namespace» : Option String
  target : WorkloadSelector
  ingress : List IngressRule
  priority : UInt32
  defaultAction : PolicyAction
  enforcementMode : PolicyEnforcementMode

/-- Why a policy is rejected. -/
inductive PolicyCompileError where
  | missingName
  | missingNamespace
  | invalidPort (ruleIndex : Nat)
  | tooManyRules
  deriving DecidableEq, Repr

/-! ## Rules -/

/-- A position as the 32-bit number that identifies a rule. -/
def ruleNumber (position : Nat) : Except PolicyCompileError UInt32 :=
  if position < 2 ^ 32 then .ok (UInt32.ofNat position) else .error .tooManyRules

/-- What a rule says about flows, apart from its identity. -/
structure RulePattern where
  source : IdentitySelector
  destination : IdentitySelector
  protocol : Option Protocol
  destinationPort : DestinationPort
  action : PolicyAction

def PolicyRule.pattern (rule : PolicyRule) : RulePattern :=
  ⟨rule.source, rule.destination, rule.protocol, rule.destinationPort, rule.action⟩

def pushRule (policyId : PolicyId) (policyName «namespace» : String)
    (rules : List PolicyRule) (pattern : RulePattern) (sourceIndex : Nat) :
    Except PolicyCompileError (List PolicyRule) := do
  let id ← ruleNumber rules.length
  let ruleIndex ← ruleNumber sourceIndex
  return rules ++ [{
    id := ⟨id⟩
    source := pattern.source
    destination := pattern.destination
    protocol := pattern.protocol
    destinationPort := pattern.destinationPort
    action := pattern.action
    provenance := ⟨policyId, policyName, «namespace», ruleIndex⟩ }]

/-- A pushed rule has the given pattern and belongs to the policy. -/
theorem pushRule_ok {policyId : PolicyId} {policyName «namespace» : String}
    {rules results : List PolicyRule} {pattern : RulePattern} {sourceIndex : Nat}
    (pushed : pushRule policyId policyName «namespace» rules pattern sourceIndex = .ok results) :
    ∃ rule, results = rules ++ [rule] ∧ rule.pattern = pattern ∧
      rule.provenance.policyId = policyId := by
  rw [pushRule, bind_eq_ok] at pushed
  obtain ⟨id, -, pushed⟩ := pushed
  rw [bind_eq_ok] at pushed
  obtain ⟨ruleIndex, -, pushed⟩ := pushed
  exact ⟨_, (Except.ok.inj pushed).symm, rfl, rfl⟩

/-! ## Native policies -/

def IdentitySelector.ofWorkloadSelector (value : WorkloadSelector) :
    IdentitySelector where
  «namespace» := value.namespace
  namespaceMatchLabels := ∅
  namespaceMatchExpressions := []
  serviceAccount := value.serviceAccount
  application := value.application
  matchLabels := value.matchLabels
  matchExpressions := []
  ipv4Blocks := []
  ipv6Blocks := []

def TransportProtocol.toProtocol : TransportProtocol → Protocol
  | .tcp => .tcp
  | .udp => .udp

/-- The protocol and port tuples of a rule; a rule without any matches every
port of every protocol. -/
def IngressRule.portTuples (rule : IngressRule) :
    List (Option Protocol × DestinationPort) :=
  if rule.protocols.isEmpty then
    [(none, .any)]
  else
    rule.protocols.map fun item => (some item.protocol.toProtocol, .number item.port)

def compileIngressRule (policyId : PolicyId) (name «namespace» : String)
    (target : IdentitySelector) (rules : List PolicyRule)
    (entry : IngressRule × Nat) : Except PolicyCompileError (List PolicyRule) := do
  let (rule, sourceIndex) := entry
  failIf (rule.protocols.any fun item => item.port == 0) (.invalidPort sourceIndex)
  let source := IdentitySelector.ofWorkloadSelector rule.from
  rule.portTuples.foldlM (fun rules (protocol, port) => pushRule policyId name «namespace» rules
      ⟨source, target, protocol, port, rule.action⟩ sourceIndex) rules

/-- `PolicyCompiler::compile`. -/
def compileSecurityPolicy (policyId : PolicyId) (policy : SecurityPolicy) :
    Except PolicyCompileError PolicyIr := do
  let name ← policy.name.elim (.error .missingName) .ok
  let «namespace» ← policy.namespace.elim (.error .missingNamespace) .ok
  let selector := IdentitySelector.ofWorkloadSelector policy.target
  -- A namespaced policy selects workloads of its own namespace by default.
  let target := { selector with
    «namespace» := some (selector.namespace.getD «namespace») }
  let rules ← policy.ingress.zipIdx.foldlM
    (compileIngressRule policyId name «namespace» target) []
  return {
    id := policyId
    name
    «namespace»
    priority := policy.priority
    origin := .native
    direction := .ingress
    target
    defaultAction := policy.defaultAction
    enforcementMode := policy.enforcementMode
    rules }

end Unf.Policy
