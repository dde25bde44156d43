import Unf.Policy.NetworkPolicy

/-!
# Kubernetes NetworkPolicy semantics

What a set of NetworkPolicy objects means, stated on the objects themselves and
without reference to the intermediate representation.  A Pod is isolated in a
direction when some object of that direction selects it; isolated traffic is
allowed exactly when some rule of a selecting object admits the other end and
the port.  Selector peers stand for cluster Pods, address blocks for addresses.
-/

namespace Unf.Policy

open Unf.Lib

/-! ## The two ends of a flow -/

/-- A concrete address of either family. -/
inductive PeerAddress where
  | ipv4 (address : Ipv4Addr)
  | ipv6 (address : Ipv6Addr)
  deriving DecidableEq, Repr

namespace PeerAddress

def toIpv4 : PeerAddress → Option Ipv4Addr
  | ipv4 address => some address
  | ipv6 _ => none

def toIpv6 : PeerAddress → Option Ipv6Addr
  | ipv4 _ => none
  | ipv6 address => some address

end PeerAddress

/-- A Pod of the cluster.  It has an identity, and the labels of its namespace
carry the namespace's name, which Kubernetes and the controller set. -/
structure Pod where
  endpoint : Endpoint
  identified : endpoint.identity.get ≠ 0
  namespaceNamed : endpoint.namespaceLabels[namespaceNameLabel]? = some endpoint.namespace

/-- The other end of an isolated Pod's traffic. -/
inductive OtherEnd where
  | pod (pod : Pod)
  | external

def OtherEnd.endpoint : OtherEnd → Endpoint
  | .pod member => member.endpoint
  | .external => externalEndpoint

/-! ## Selectors -/

def LabelSelectorRequirement.Holds (requirement : LabelSelectorRequirement)
    (labels : Labels) : Prop :=
  let values := requirement.values.getD []
  requirement.operator = "In" ∧
      (∃ value ∈ values, labels[requirement.key]? = some value) ∨
    requirement.operator = "NotIn" ∧
      (∀ value ∈ values, labels[requirement.key]? ≠ some value) ∨
    requirement.operator = "Exists" ∧ labels[requirement.key]? ≠ none ∨
    requirement.operator = "DoesNotExist" ∧ labels[requirement.key]? = none

/-- All labels and all requirements of a selector hold; an empty selector
selects everything. -/
def LabelSelector.Selects (selector : LabelSelector) (labels : Labels) : Prop :=
  (∀ key value : String, (selector.matchLabels.getD ∅)[key]? = some value →
    labels[key]? = some value) ∧
  ∀ requirement ∈ selector.matchExpressions.getD [], requirement.Holds labels

def LabelSelector.IsEmpty (selector : LabelSelector) : Prop :=
  selector.matchLabels.getD ∅ = ∅ ∧ selector.matchExpressions.getD [] = []

/-! ## Peers -/

/-- The prefix that a text denotes contains an address of the same family. -/
def TextContains (text : String) : PeerAddress → Prop
  | .ipv4 address => ∃ cidr, parseIpv4Cidr text = some cidr ∧ cidr.contains address
  | .ipv6 address => ∃ cidr, parseIpv6Cidr text = some cidr ∧ cidr.contains address

/-- An address block stands for its prefix without its exceptions. -/
def IpBlock.Contains (ipBlock : IpBlock) (address : PeerAddress) : Prop :=
  TextContains ipBlock.cidr address ∧
    ∀ exception ∈ ipBlock.except.getD [], ¬TextContains exception address

variable (peer : NetworkPolicyPeer) (port : NetworkPolicyPort)

namespace NetworkPolicyPeer

/-- A Pod selected by the namespace and Pod selectors of a peer. -/
def SelectsPod (policyNamespace : String) (pod : Pod) : Prop :=
  (match peer.namespaceSelector with
    | some selector => selector.Selects pod.endpoint.namespaceLabels
    | none => pod.endpoint.namespace = policyNamespace) ∧
  ∀ selector ∈ peer.podSelector, selector.Selects pod.endpoint.labels

/-- A peer without any constraint admits everything, an address block admits its
addresses, and selectors admit the cluster Pods they select. -/
def Matches (policyNamespace : String) (other : OtherEnd) (address : PeerAddress) : Prop :=
  match peer.ipBlock with
  | some ipBlock => ipBlock.Contains address
  | none =>
    peer.namespaceSelector = none ∧ peer.podSelector = none ∨
      ∃ pod, other = .pod pod ∧ peer.SelectsPod policyNamespace pod

/-- The peer selects every Pod of every namespace through empty selectors. -/
def SelectsEveryNamespace : Prop :=
  peer.ipBlock = none ∧
    (∃ selector, peer.namespaceSelector = some selector ∧ selector.IsEmpty) ∧
    ∀ selector ∈ peer.podSelector, selector.IsEmpty

end NetworkPolicyPeer

/-! ## Ports -/

def protocolName : Protocol → String
  | .icmp => "ICMP"
  | .tcp => "TCP"
  | .udp => "UDP"
  | .sctp => "SCTP"

/-- A number equals a port, or lies in the range that starts at it. -/
def NumberMatches (number : UInt16) (value : Int) : Option Int → Prop
  | none => number.toNat = value
  | some endPort => value ≤ number.toNat ∧ number.toNat ≤ endPort

/-- The number part of a port, with named ports looked up at the destination. -/
def NetworkPolicyPort.MatchesNumber (destination : Endpoint) (protocol : Protocol)
    (number : UInt16) : Prop :=
  match port.port with
  | none => True
  | some (.int value) => NumberMatches number value port.endPort
  | some (.string name) => destination.namedPorts[NamedPort.mk name protocol]? = some number

def NetworkPolicyPort.Matches (destination : Endpoint) (protocol : Protocol) (number : UInt16) :
    Prop :=
  port.protocol.getD "TCP" = protocolName protocol ∧
    port.MatchesNumber destination protocol number

/-- The port range written out as all ports of a protocol. -/
def NetworkPolicyPort.IsFullRange (protocol : Protocol) : Prop :=
  port.protocol.getD "TCP" = protocolName protocol ∧ port.port = some (.int 1) ∧
    port.endPort = some 65535

/-! ## Policies -/

/-- One flow of an isolated Pod, seen from that Pod. -/
structure PodTraffic where
  direction : PolicyDirection
  pod : Pod
  podAddress : Option PeerAddress
  other : OtherEnd
  otherAddress : PeerAddress
  protocol : Protocol
  port : UInt16

variable (traffic : PodTraffic)

namespace PodTraffic

/-- The endpoint at which named ports are looked up. -/
def destination : Endpoint :=
  match traffic.direction with
  | .ingress => traffic.pod.endpoint
  | .egress => traffic.other.endpoint

/-- The flow that the evaluator sees. -/
def flow : Flow :=
  match traffic.direction with
  | .ingress => {
      source := traffic.other.endpoint
      destination := traffic.pod.endpoint
      protocol := traffic.protocol
      destinationPort := traffic.port
      sourceIpv4 := traffic.otherAddress.toIpv4
      sourceIpv6 := traffic.otherAddress.toIpv6 }
  | .egress => {
      source := traffic.pod.endpoint
      destination := traffic.other.endpoint
      protocol := traffic.protocol
      destinationPort := traffic.port
      sourceIpv4 := traffic.podAddress.bind PeerAddress.toIpv4
      sourceIpv6 := traffic.podAddress.bind PeerAddress.toIpv6 }

def destinationAddresses : DestinationAddresses :=
  match traffic.direction with
  | .ingress => {
      ipv4 := traffic.podAddress.bind PeerAddress.toIpv4
      ipv6 := traffic.podAddress.bind PeerAddress.toIpv6 }
  | .egress => {
      ipv4 := traffic.otherAddress.toIpv4
      ipv6 := traffic.otherAddress.toIpv6 }

end PodTraffic

/-- An absent or empty list constrains nothing; otherwise one member suffices. -/
def EmptyOrSome {α : Type} (items : Option (List α)) (holds : α → Prop) : Prop :=
  items.getD [] = [] ∨ ∃ item ∈ items.getD [], holds item

namespace NetworkPolicyRule

def Admits (rule : NetworkPolicyRule) (policyNamespace : String) (traffic : PodTraffic) : Prop :=
  EmptyOrSome rule.peers (fun peer =>
    peer.Matches policyNamespace traffic.other traffic.otherAddress) ∧
  EmptyOrSome rule.ports fun port =>
    port.Matches traffic.destination traffic.protocol traffic.port

end NetworkPolicyRule

/-- The directions of an object: those listed, or else ingress, and egress when
there is an egress rule. -/
def NetworkPolicySpec.HasDirection (spec : NetworkPolicySpec) :
    PolicyDirection → Prop
  | .ingress => spec.policyTypes.getD [] = [] ∨ "Ingress" ∈ spec.policyTypes.getD []
  | .egress =>
    spec.policyTypes.getD [] = [] ∧ spec.egress.getD [] ≠ [] ∨
      "Egress" ∈ spec.policyTypes.getD []

namespace NetworkPolicy

/-- The object isolates the Pod in a direction. -/
def Isolates (object : NetworkPolicy) (direction : PolicyDirection) (pod : Pod) : Prop :=
  ∃ spec, object.spec = some spec ∧ spec.HasDirection direction ∧
    object.namespace = some pod.endpoint.namespace ∧
    ∀ selector ∈ spec.podSelector, selector.Selects pod.endpoint.labels

/-- Some rule of the object's direction satisfies a condition, which may mention
the object's namespace. -/
def HasRule (object : NetworkPolicy) (direction : PolicyDirection)
    (holds : String → NetworkPolicyRule → Prop) : Prop :=
  ∃ «namespace» spec, object.namespace = some «namespace» ∧ object.spec = some spec ∧
    ∃ rule ∈ spec.rules direction, holds «namespace» rule

end NetworkPolicy

/-- Kubernetes allows traffic of a Pod that no object isolates, and traffic that
a rule of an isolating object admits. -/
def KubernetesAllows (objects : List NetworkPolicy) (traffic : PodTraffic) : Prop :=
  (∀ object ∈ objects, ¬object.Isolates traffic.direction traffic.pod) ∨
    ∃ object ∈ objects, object.Isolates traffic.direction traffic.pod ∧
      object.HasRule traffic.direction fun «namespace» rule =>
        rule.Admits «namespace» traffic

end Unf.Policy
