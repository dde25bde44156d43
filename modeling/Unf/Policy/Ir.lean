import Unf.Common
import Unf.Lib.Cidr
import Unf.Lib.OrderedMap

/-!
# Policy intermediate representation

Selectors, endpoints, rules and policies as the evaluator and the dataplane
compilers see them, independent of the Kubernetes objects they come from.
Ordered maps and sets of the program are extensional tree maps and sets.
-/

namespace Unf.Policy

open Std (ExtTreeMap ExtTreeSet)
open Unf.Lib

/-! ## Address blocks -/

abbrev Ipv4Cidr := Cidr 32

abbrev Ipv6Cidr := Cidr 128

/-- An address block with exceptions, for either address family. -/
structure Block (width : Nat) where
  cidr : Cidr width
  except : List (Cidr width)
  deriving DecidableEq

abbrev Ipv4Block := Block 32

abbrev Ipv6Block := Block 128

def Block.contains {width : Nat} (block : Block width) (address : BitVec width) : Bool :=
  block.cidr.contains address &&
    !block.except.any fun excluded => excluded.contains address

/-! ## Selectors -/

inductive LabelExpressionOperator where
  | isIn
  | notIn
  | exists
  | doesNotExist
  deriving DecidableEq, Repr

structure LabelExpression where
  key : String
  operator : LabelExpressionOperator
  values : ExtTreeSet String
  deriving DecidableEq

abbrev Labels := ExtTreeMap String String

def LabelExpression.matchesLabels (expression : LabelExpression) (labels : Labels) : Bool :=
  match expression.operator with
  | .isIn => labels[expression.key]?.any fun value => expression.values.contains value
  | .notIn => labels[expression.key]?.all fun value => !expression.values.contains value
  | .exists => labels.contains expression.key
  | .doesNotExist => !labels.contains expression.key

/-- Every required label is present with the required value. -/
def matchesAllLabels (required labels : Labels) : Bool :=
  required.toList.all fun (key, value) => labels[key]? == some value

/-- A port by its name. -/
structure NamedPort where
  name : String
  protocol : Protocol
  deriving DecidableEq

namespace NamedPort

theorem sortKey_injective : Function.Injective fun port : NamedPort =>
    toLex (port.name, port.protocol) := by
  rintro ⟨leftName, leftProtocol⟩ ⟨rightName, rightProtocol⟩ equal
  have fields := Prod.mk.inj (toLex.injective equal)
  rw [NamedPort.mk.injEq]
  exact fields

instance : LinearOrder NamedPort :=
  LinearOrder.lift' _ sortKey_injective

end NamedPort

/-- A workload as rules see it. -/
structure Endpoint where
  identity : IdentityId
  «namespace» : String
  namespaceLabels : Labels
  serviceAccount : String
  application : Option String
  labels : Labels
  namedPorts : ExtTreeMap NamedPort UInt16
  deriving DecidableEq

def Endpoint.resolveNamedPort (endpoint : Endpoint) (name : String)
    (protocol : Protocol) : Option UInt16 :=
  (endpoint.namedPorts.toList.find? fun (namedPort, _) =>
    namedPort.name == name && namedPort.protocol == protocol).map Prod.snd

/-- An endpoint registered at an address of either family. -/
structure AddressedEndpoint (width : Nat) where
  address : BitVec width
  endpoint : Endpoint
  deriving DecidableEq

abbrev Ipv4Endpoint := AddressedEndpoint 32

abbrev Ipv6Endpoint := AddressedEndpoint 128

/-- The endpoint that stands for every address outside the cluster. -/
def externalEndpoint : Endpoint where
  identity := ⟨0⟩
  «namespace» := ""
  namespaceLabels := ∅
  serviceAccount := ""
  application := none
  labels := ∅
  namedPorts := ∅

/-- The endpoints a rule is about. -/
structure IdentitySelector where
  «namespace» : Option String
  namespaceMatchLabels : Labels
  namespaceMatchExpressions : List LabelExpression
  serviceAccount : Option String
  application : Option String
  matchLabels : Labels
  matchExpressions : List LabelExpression
  ipv4Blocks : List Ipv4Block
  ipv6Blocks : List Ipv6Block
  deriving DecidableEq

variable (selector : IdentitySelector) (endpoint : Endpoint)

namespace IdentitySelector

/-- The default selector, which constrains nothing. -/
def unconstrained : IdentitySelector where
  «namespace» := none
  namespaceMatchLabels := ∅
  namespaceMatchExpressions := []
  serviceAccount := none
  application := none
  matchLabels := ∅
  matchExpressions := []
  ipv4Blocks := []
  ipv6Blocks := []

def matchesEndpoint : Bool :=
  selector.namespace.all (fun expected => expected == endpoint.namespace) &&
    matchesAllLabels selector.namespaceMatchLabels endpoint.namespaceLabels &&
    selector.namespaceMatchExpressions.all (fun expression =>
      expression.matchesLabels endpoint.namespaceLabels) &&
    selector.serviceAccount.all (fun expected => expected == endpoint.serviceAccount) &&
    selector.application.all (fun expected => endpoint.application == some expected) &&
    matchesAllLabels selector.matchLabels endpoint.labels &&
    selector.matchExpressions.all fun expression =>
      expression.matchesLabels endpoint.labels

def isUnconstrained : Bool :=
  selector.namespace.isNone &&
    selector.namespaceMatchLabels.isEmpty &&
    selector.namespaceMatchExpressions.isEmpty &&
    selector.serviceAccount.isNone &&
    selector.application.isNone &&
    selector.matchLabels.isEmpty &&
    selector.matchExpressions.isEmpty

/-- The address part of a selector, for the at most one address family that is
known for the endpoint. -/
def matchesAddresses (ipv4 : Option Ipv4Addr) (ipv6 : Option Ipv6Addr) : Bool :=
  match ipv4, ipv6 with
  | some address, none =>
    selector.ipv6Blocks.isEmpty &&
      (selector.ipv4Blocks.isEmpty || selector.ipv4Blocks.any fun block => block.contains address)
  | none, some address =>
    selector.ipv4Blocks.isEmpty &&
      (selector.ipv6Blocks.isEmpty || selector.ipv6Blocks.any fun block => block.contains address)
  | none, none => selector.ipv4Blocks.isEmpty && selector.ipv6Blocks.isEmpty
  | some _, some _ => false

def matchesAddressed (ipv4 : Option Ipv4Addr) (ipv6 : Option Ipv6Addr) : Bool :=
  let externalEndpointMatches := endpoint.identity.get != 0 ||
    !selector.ipv4Blocks.isEmpty ||
    !selector.ipv6Blocks.isEmpty ||
    selector.isUnconstrained
  externalEndpointMatches && selector.matchesEndpoint endpoint &&
    selector.matchesAddresses ipv4 ipv6

end IdentitySelector

/-! ## Rules and policies -/

/-- Where a rule is from. -/
structure RuleProvenance where
  policyId : PolicyId
  policyName : String
  «namespace» : String
  ruleIndex : UInt32
  deriving DecidableEq, Repr

/-- The ports of a rule. -/
inductive DestinationPort where
  | any
  | number (port : UInt16)
  | named (name : String)
  | range (start finish : UInt16)
  deriving DecidableEq, Repr

/-- One rule of a policy. -/
structure PolicyRule where
  id : RuleId
  source : IdentitySelector
  destination : IdentitySelector
  protocol : Option Protocol
  destinationPort : DestinationPort
  action : PolicyAction
  provenance : RuleProvenance
  deriving DecidableEq

inductive PolicyOrigin where
  | native
  | kubernetesNetworkPolicy
  deriving DecidableEq, Repr

/-- Shadow policies only report. -/
inductive PolicyEnforcementMode where
  | enforce
  | shadow
  deriving DecidableEq, Repr

/-- A policy of either origin. -/
structure PolicyIr where
  id : PolicyId
  name : String
  «namespace» : String
  priority : UInt32
  origin : PolicyOrigin
  direction : PolicyDirection
  target : IdentitySelector
  defaultAction : PolicyAction
  enforcementMode : PolicyEnforcementMode
  rules : List PolicyRule
  deriving DecidableEq

/-- One connection to be judged. -/
structure Flow where
  source : Endpoint
  destination : Endpoint
  protocol : Protocol
  destinationPort : UInt16
  sourceIpv4 : Option Ipv4Addr
  sourceIpv6 : Option Ipv6Addr

/-- Destination addresses available to userspace policy evaluation. -/
structure DestinationAddresses where
  ipv4 : Option Ipv4Addr := none
  ipv6 : Option Ipv6Addr := none

namespace IdentitySelector

def matchesSource (sourceIpv4 : Option Ipv4Addr) (sourceIpv6 : Option Ipv6Addr) : Bool :=
  selector.matchesAddressed endpoint sourceIpv4 sourceIpv6

def matchesDestination (destinationAddresses : DestinationAddresses) : Bool :=
  selector.matchesAddressed endpoint destinationAddresses.ipv4
    destinationAddresses.ipv6

end IdentitySelector

/-- The port part of a rule, for a flow with the given destination. -/
def DestinationPort.matchesPort (destinationPort : DestinationPort)
    (destination : Endpoint) (protocol : Protocol) (port : UInt16) : Bool :=
  match destinationPort with
  | .any => true
  | .number expected => expected == port
  | .named name =>
    (destination.resolveNamedPort name protocol).any fun resolved => resolved == port
  | .range start finish => decide (start ≤ port) && decide (port ≤ finish)

def ruleMatches (rule : PolicyRule) (flow : Flow)
    (destinationAddresses : DestinationAddresses) : Bool :=
  rule.source.matchesSource flow.source flow.sourceIpv4 flow.sourceIpv6 &&
    rule.destination.matchesDestination flow.destination destinationAddresses &&
    rule.protocol.all (fun value => value == flow.protocol) &&
    rule.destinationPort.matchesPort flow.destination flow.protocol
      flow.destinationPort

end Unf.Policy
