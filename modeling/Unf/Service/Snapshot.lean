import Std.Data.ExtTreeMap.Lemmas
import Std.Data.ExtTreeSet.Lemmas
import Unf.Address
import Unf.Service.Maglev

/-!
# Service snapshots

The service intent that crosses from the control plane to the agents: services
with their ClusterIP, NodePort and LoadBalancer frontends and their backends.
Records are ordered field by field, in the order of their declaration.
-/

namespace Unf.Service

open Std (ExtTreeSet)
open Unf.Lib

/-- A monotonic configuration revision; zero is the initial one. -/
structure Revision where
  get : UInt64
  deriving DecidableEq, Repr

def Revision.initial : Revision := ⟨0⟩

/-! ## Limits and versions -/

def legacyServiceSnapshotSchemaVersion : UInt16 := 1

def nodePortServiceSnapshotSchemaVersion : UInt16 := 2

def loadBalancerServiceSnapshotSchemaVersion : UInt16 := 3

def serviceSnapshotSchemaVersion : UInt16 := 4

def unfLoadBalancerClass : String := "network.unf.io/load-balancer"

def maxServices : Nat := 65536

def maxServiceFrontends : Nat := 131072

def maxServiceNodePorts : Nat := 131072

def maxServiceLoadBalancerFrontends : Nat := 131072

def maxServiceBackends : Nat := 262144

def maxServiceBackendReferences : Nat := 524288

def maxLoadBalancerSourceRangesPerService : Nat := 64

def maxProvenanceComponentBytes : Nat := 253

def maxEndpointSliceProvenance : Nat := 128

/-! ## Enumerations -/

inductive ServiceTrafficPolicy where
  | cluster
  | local
  deriving DecidableEq, Repr

namespace ServiceTrafficPolicy

def rank : ServiceTrafficPolicy → Nat
  | cluster => 0
  | «local» => 1

instance : LinearOrder ServiceTrafficPolicy :=
  LinearOrder.lift' rank <| by
    intro left right
    cases left <;> cases right <;> decide

end ServiceTrafficPolicy

inductive ServiceTrafficDistribution where
  | any
  | preferSameZone
  | preferSameNode
  deriving DecidableEq, Repr

inductive ServiceSessionAffinity where
  | none
  | clientIp (timeoutSeconds : UInt32)
  deriving DecidableEq, Repr

inductive ServiceSelectionAlgorithm where
  | stableHash
  | maglev
  deriving DecidableEq, Repr

inductive ServiceForwardingMode where
  | nat
  | dsr
  deriving DecidableEq, Repr

inductive ServiceIpFamilyPolicy where
  | singleStack
  | preferDualStack
  | requireDualStack
  deriving DecidableEq, Repr

/-! ## Frontends and backends -/

/-- The triple that a packet addresses. -/
abbrev FrontendKey := IpAddr ×ₗ UInt16 ×ₗ Protocol

/-- An address that is served. -/
structure ServiceFrontend where
  address : IpAddr
  port : UInt16
  protocol : Protocol
  name : Option String
  appProtocol : Option String
  backendIds : List BackendId
  deriving DecidableEq

namespace ServiceFrontend

def sortKey (frontend : ServiceFrontend) :=
  toLex (frontend.address, toLex (frontend.port, toLex (frontend.protocol,
    toLex (noneFirst frontend.name, toLex (noneFirst frontend.appProtocol, frontend.backendIds)))))

instance : LinearOrder ServiceFrontend :=
  LinearOrder.lift' sortKey <| by
    rintro ⟨⟩ ⟨⟩ equal
    simpa [sortKey] using equal

def key (frontend : ServiceFrontend) : FrontendKey :=
  toLex (frontend.address, toLex (frontend.port, frontend.protocol))

/-- The frontend with its references in canonical order. -/
def normalized (frontend : ServiceFrontend) : ServiceFrontend :=
  { frontend with backendIds := sort frontend.backendIds }

end ServiceFrontend

/-- An address that serves. -/
structure ServiceBackend where
  id : BackendId
  address : IpAddr
  port : UInt16
  protocol : Protocol
  portName : Option String
  appProtocol : Option String
  endpointSlices : List String
  targetWorkload : Option String
  nodeName : Option String
  zone : Option String
  ready : Bool
  serving : Bool
  terminating : Bool
  deriving DecidableEq

namespace ServiceBackend

def sortKey (backend : ServiceBackend) :=
  toLex (backend.id, toLex (backend.address, toLex (backend.port, toLex (backend.protocol,
    toLex (noneFirst backend.portName, toLex (noneFirst backend.appProtocol,
      toLex (backend.endpointSlices, toLex (noneFirst backend.targetWorkload,
        toLex (noneFirst backend.nodeName, toLex (noneFirst backend.zone,
          toLex (backend.ready, toLex (backend.serving, backend.terminating))))))))))))

instance : LinearOrder ServiceBackend :=
  LinearOrder.lift' sortKey <| by
    rintro ⟨⟩ ⟨⟩ equal
    simpa [sortKey] using equal

/-- The triple that the backend listens on. -/
def endpoint (backend : ServiceBackend) : FrontendKey :=
  toLex (backend.address, toLex (backend.port, backend.protocol))

/-- The backend with its provenance in canonical order. -/
def normalized (backend : ServiceBackend) : ServiceBackend :=
  { backend with endpointSlices := sortDedup backend.endpointSlices }

end ServiceBackend

/-- A port of every node. -/
structure ServiceNodePort where
  family : AddressFamily
  port : UInt16
  servicePort : UInt16
  protocol : Protocol
  name : Option String
  appProtocol : Option String
  trafficPolicy : ServiceTrafficPolicy
  backendIds : List BackendId
  deriving DecidableEq

namespace ServiceNodePort

def sortKey (nodePort : ServiceNodePort) :=
  toLex (nodePort.family, toLex (nodePort.port, toLex (nodePort.servicePort,
    toLex (nodePort.protocol, toLex (noneFirst nodePort.name,
      toLex (noneFirst nodePort.appProtocol, toLex (nodePort.trafficPolicy,
        nodePort.backendIds)))))))

instance : LinearOrder ServiceNodePort :=
  LinearOrder.lift' sortKey <| by
    rintro ⟨⟩ ⟨⟩ equal
    simpa [sortKey] using equal

/-- The part of a NodePort that no two of a service may share. -/
def exactKey (nodePort : ServiceNodePort) : AddressFamily ×ₗ UInt16 ×ₗ Protocol :=
  toLex (nodePort.family, toLex (nodePort.port, nodePort.protocol))

/-- The part of a NodePort that no two services may share. -/
def ownerKey (nodePort : ServiceNodePort) : UInt16 ×ₗ Protocol :=
  toLex (nodePort.port, nodePort.protocol)

def normalized (nodePort : ServiceNodePort) : ServiceNodePort :=
  { nodePort with backendIds := sort nodePort.backendIds }

/-- The ClusterIP frontends that serve the same port of the service. -/
def links (nodePort : ServiceNodePort) (frontend : ServiceFrontend) : Bool :=
  frontend.address.family == nodePort.family && frontend.port == nodePort.servicePort &&
    frontend.protocol == nodePort.protocol && frontend.name == nodePort.name &&
    frontend.appProtocol == nodePort.appProtocol

end ServiceNodePort

/-! ## LoadBalancers -/

structure ServiceIpPrefix where
  address : IpAddr
  prefixLength : UInt8
  deriving DecidableEq, Repr

namespace ServiceIpPrefix

def sortKey (range : ServiceIpPrefix) : IpAddr ×ₗ UInt8 :=
  toLex (range.address, range.prefixLength)

instance : LinearOrder ServiceIpPrefix :=
  LinearOrder.lift' sortKey <| by
    rintro ⟨⟩ ⟨⟩ equal
    simpa [sortKey] using equal

/-- No bit is set outside the prefix, and the prefix fits the address. -/
def isCanonical (range : ServiceIpPrefix) : Bool :=
  match range.address with
  | .v4 address => decide (range.prefixLength ≤ 32) &&
      address &&& (BitVec.allOnes 32 <<< (32 - range.prefixLength.toNat)) == address
  | .v6 address => decide (range.prefixLength ≤ 128) &&
      address &&& (BitVec.allOnes 128 <<< (128 - range.prefixLength.toNat)) == address

end ServiceIpPrefix

/-- What identifies a LoadBalancer frontend within its service. -/
abbrev LoadBalancerFrontendIdentity :=
  AddressFamily ×ₗ UInt16 ×ₗ Protocol ×ₗ WithBot String ×ₗ WithBot String

/-- The identity that a LoadBalancer frontend for the ClusterIP frontend has. -/
def ServiceFrontend.identity (frontend : ServiceFrontend) : LoadBalancerFrontendIdentity :=
  toLex (frontend.address.family, toLex (frontend.port, toLex (frontend.protocol,
    toLex (noneFirst frontend.name, noneFirst frontend.appProtocol))))

structure ServiceLoadBalancerFrontend where
  family : AddressFamily
  servicePort : UInt16
  protocol : Protocol
  name : Option String
  appProtocol : Option String
  backendIds : List BackendId
  deriving DecidableEq

namespace ServiceLoadBalancerFrontend

def sortKey (frontend : ServiceLoadBalancerFrontend) :=
  toLex (frontend.family, toLex (frontend.servicePort, toLex (frontend.protocol,
    toLex (noneFirst frontend.name, toLex (noneFirst frontend.appProtocol, frontend.backendIds)))))

instance : LinearOrder ServiceLoadBalancerFrontend :=
  LinearOrder.lift' sortKey <| by
    rintro ⟨⟩ ⟨⟩ equal
    simpa [sortKey] using equal

def identity (frontend : ServiceLoadBalancerFrontend) : LoadBalancerFrontendIdentity :=
  toLex (frontend.family, toLex (frontend.servicePort, toLex (frontend.protocol,
    toLex (noneFirst frontend.name, noneFirst frontend.appProtocol))))

def normalized (frontend : ServiceLoadBalancerFrontend) : ServiceLoadBalancerFrontend :=
  { frontend with backendIds := sort frontend.backendIds }

/-- The ClusterIP frontends that serve the same port of the service. -/
def links (loadBalanced : ServiceLoadBalancerFrontend) (frontend : ServiceFrontend) : Bool :=
  frontend.address.family == loadBalanced.family &&
    frontend.port == loadBalanced.servicePort &&
    frontend.protocol == loadBalanced.protocol && frontend.name == loadBalanced.name &&
    frontend.appProtocol == loadBalanced.appProtocol

theorem links_iff {loadBalanced : ServiceLoadBalancerFrontend} {frontend : ServiceFrontend} :
    loadBalanced.links frontend = true ↔ frontend.identity = loadBalanced.identity := by
  simp [links, identity, ServiceFrontend.identity, and_assoc]

end ServiceLoadBalancerFrontend

/-- External addresses of a Service. -/
structure ServiceLoadBalancer where
  class_ : String
  ipFamilies : List AddressFamily
  ipFamilyPolicy : ServiceIpFamilyPolicy
  requestedIps : List IpAddr
  trafficPolicy : ServiceTrafficPolicy
  sourceRanges : List ServiceIpPrefix
  allocateNodePorts : Bool
  healthCheckNodePort : Option UInt16
  frontends : List ServiceLoadBalancerFrontend
  deriving DecidableEq

/-- The LoadBalancer with all its lists in canonical order. -/
def ServiceLoadBalancer.normalized (loadBalancer : ServiceLoadBalancer) :
    ServiceLoadBalancer :=
  { loadBalancer with
    ipFamilies := sort loadBalancer.ipFamilies
    requestedIps := sort loadBalancer.requestedIps
    sourceRanges := sort loadBalancer.sourceRanges
    frontends := sort (loadBalancer.frontends.map ServiceLoadBalancerFrontend.normalized) }

/-! ## Services -/

/-- A Service and its backends. -/
structure ServiceIr where
  id : ServiceId
  «namespace» : String
  name : String
  internalTrafficPolicy : ServiceTrafficPolicy
  sessionAffinity : ServiceSessionAffinity
  trafficDistribution : ServiceTrafficDistribution
  selectionAlgorithm : ServiceSelectionAlgorithm
  forwardingMode : ServiceForwardingMode
  frontends : List ServiceFrontend
  nodePorts : List ServiceNodePort
  loadBalancer : Option ServiceLoadBalancer
  backends : List ServiceBackend
  deriving DecidableEq

namespace ServiceIr

/-- The position of a service among the services of a snapshot. -/
def sortKey (service : ServiceIr) : ServiceId ×ₗ String ×ₗ String :=
  toLex (service.id, toLex (service.«namespace», service.name))

def provenance (service : ServiceIr) : String ×ₗ String :=
  toLex (service.«namespace», service.name)

/-- The service with all its lists in canonical order. -/
def normalized (service : ServiceIr) : ServiceIr :=
  { service with
    frontends := sort (service.frontends.map ServiceFrontend.normalized)
    nodePorts := sort (service.nodePorts.map ServiceNodePort.normalized)
    loadBalancer := service.loadBalancer.map ServiceLoadBalancer.normalized
    backends := sort (service.backends.map ServiceBackend.normalized) }

/-- The service asks for more than the selection that every consumer offers. -/
def hasAdvancedSelectionIntent (service : ServiceIr) : Bool :=
  service.internalTrafficPolicy != .cluster || service.sessionAffinity != .none ||
    service.trafficDistribution != .any || service.selectionAlgorithm != .stableHash ||
    service.forwardingMode != .nat

end ServiceIr

/-- All Services of a revision. -/
structure ServiceSnapshot where
  schemaVersion : UInt16
  sourceEpoch : UInt64
  revision : Revision
  services : List ServiceIr
  deriving DecidableEq

namespace ServiceSnapshot

/-- The snapshot in the current schema and in canonical order. -/
def normalized (snapshot : ServiceSnapshot) : ServiceSnapshot :=
  { snapshot with
    schemaVersion := serviceSnapshotSchemaVersion
    services := sortByKey ServiceIr.sortKey (snapshot.services.map ServiceIr.normalized) }

def hasAdvancedSelectionIntent (snapshot : ServiceSnapshot) : Bool :=
  snapshot.services.any ServiceIr.hasAdvancedSelectionIntent

/-- The addresses that ClusterIP frontends use. -/
def clusterIpAddresses (snapshot : ServiceSnapshot) : ExtTreeSet IpAddr :=
  ExtTreeSet.ofList (snapshot.services.flatMap fun service =>
    service.frontends.map ServiceFrontend.address)

end ServiceSnapshot

end Unf.Service
