import Unf.Lib.Text
import Unf.Service.Validate

/-!
# Compilation of service snapshots

Services and the EndpointSlices of their Pods, as they are observed, become one
service snapshot. Identifiers are hashes of canonical keys, admitted through a
registry that refuses collisions. The sources are sorted by namespace and name: the
derived order of the records starts with these two fields, and sources that share
both are refused, so the further fields never decide.
-/

namespace Unf.Service

open Std (ExtTreeMap ExtTreeSet)
open Unf.Lib

/-! ## Sources -/

structure ServiceLoadBalancerSource where
  class_ : String
  ipFamilies : List AddressFamily
  ipFamilyPolicy : ServiceIpFamilyPolicy
  requestedIps : List IpAddr
  sourceRanges : List ServiceIpPrefix
  allocateNodePorts : Bool
  healthCheckNodePort : Option UInt16
  deriving DecidableEq

structure ServiceSourcePort where
  name : Option String
  protocol : Protocol
  port : UInt16
  appProtocol : Option String
  nodePort : Option UInt16
  deriving DecidableEq

/-- A Service as it is declared. -/
structure ServiceSource where
  «namespace» : String
  name : String
  clusterIps : List IpAddr
  externalTrafficPolicy : ServiceTrafficPolicy
  internalTrafficPolicy : ServiceTrafficPolicy
  sessionAffinity : ServiceSessionAffinity
  trafficDistribution : ServiceTrafficDistribution
  selectionAlgorithm : ServiceSelectionAlgorithm
  forwardingMode : ServiceForwardingMode
  loadBalancer : Option ServiceLoadBalancerSource
  ports : List ServiceSourcePort
  deriving DecidableEq

structure EndpointPortSource where
  name : Option String
  protocol : Protocol
  port : Option UInt16
  appProtocol : Option String
  deriving DecidableEq

/-- One endpoint of a slice. -/
structure EndpointSource where
  addresses : List IpAddr
  targetWorkload : Option String
  nodeName : Option String
  zone : Option String
  ready : Bool
  serving : Bool
  terminating : Bool
  ports : List EndpointPortSource
  deriving DecidableEq

/-- Endpoints of one Service. -/
structure EndpointSliceSource where
  «namespace» : String
  name : String
  serviceName : String
  addressFamily : AddressFamily
  endpoints : List EndpointSource
  deriving DecidableEq

variable (slice : EndpointSliceSource) (service : ServiceSource)
  (endpointSlices : List EndpointSliceSource)

def ServiceSource.provenance : String ×ₗ String :=
  toLex (service.«namespace», service.name)

def EndpointSliceSource.provenance : String ×ₗ String :=
  toLex (slice.«namespace», slice.name)

/-- The texts that errors and provenance name the sources with. -/
def ServiceSource.reference : String :=
  service.«namespace» ++ "/" ++ service.name

def EndpointSliceSource.reference : String :=
  slice.«namespace» ++ "/" ++ slice.name

/-! ## Errors -/

/-- Why sources are rejected. -/
inductive ServiceCompileError where
  | duplicateService («namespace» name : String)
  | duplicateEndpointSlice («namespace» name : String)
  | idCollision (kind : String) (id : UInt32) (existing candidate : String)
  | addressFamilyMismatch (endpointSlice : String) (declared : AddressFamily)
      (address : IpAddr)
  | unresolvedEndpointPort (endpointSlice service : String) (portName : Option String)
      (protocol : Protocol)
  | conflictingBackendProvenance (service : String) (address : IpAddr) (port : UInt16)
      (protocol : Protocol)
  | invalidIr (error : ServiceIrError)
  deriving DecidableEq

abbrev Compiled := Except ServiceCompileError

/-! ## Identifiers -/

def canonicalKey (kind : String) (components : List String) : String :=
  framedKey kind components

/-- The 32-bit FNV-1a hash of a key, with one in place of zero. -/
def provisionalId (key : String) : UInt32 :=
  let hash := key.toUTF8.toList.foldl (fun hash byte =>
    (hash ^^^ byte.toUInt32) * 0x01000193) 0x811c9dc5
  if hash == 0 then 1 else hash

/-- A hash may stand for one key only. -/
def admitId (registry : ExtTreeMap UInt32 String) (kind : String) (id : UInt32)
    (key : String) : Compiled (ExtTreeMap UInt32 String) :=
  match registry[id]? with
  | some existing =>
    if existing ≠ key then .error (.idCollision kind id existing key) else .ok registry
  | none => .ok (registry.insert id key)

/-- The ids given so far. -/
structure ProvisionalIdRegistry where
  serviceKeys : ExtTreeMap UInt32 String
  backendKeys : ExtTreeMap UInt32 String

namespace ProvisionalIdRegistry

def empty : ProvisionalIdRegistry := ⟨∅, ∅⟩

def serviceId (registry : ProvisionalIdRegistry) (key : String) :
    Compiled (ServiceId × ProvisionalIdRegistry) := do
  let id := provisionalId key
  let serviceKeys ← admitId registry.serviceKeys "service" id key
  return (⟨id⟩, { registry with serviceKeys := serviceKeys })

def backendId (registry : ProvisionalIdRegistry) (key : String) :
    Compiled (BackendId × ProvisionalIdRegistry) := do
  let id := provisionalId key
  let backendKeys ← admitId registry.backendKeys "backend" id key
  return (⟨id⟩, { registry with backendKeys := backendKeys })

end ProvisionalIdRegistry

def ipAddrText : IpAddr → String
  | .v4 address => formatIpv4 address
  | .v6 address => formatIpv6 address

def ServiceSource.key : String :=
  canonicalKey "service-v1" [service.«namespace», service.name]

/-- The key of an endpoint behind a service. -/
def backendKey (serviceKey : String) (address : IpAddr) (port : UInt16)
    (protocol : Protocol) : String :=
  canonicalKey "backend-v1" [serviceKey, ipAddrText address, toString port.toNat,
    toString protocol.number.toNat]

/-! ## Backends -/

/-- What has to agree when an endpoint is seen again. -/
def ServiceBackend.sameProvenance (existing candidate : ServiceBackend) : Bool :=
  existing.id == candidate.id && existing.targetWorkload == candidate.targetWorkload &&
    existing.nodeName == candidate.nodeName && existing.zone == candidate.zone &&
    existing.ready == candidate.ready && existing.serving == candidate.serving &&
    existing.terminating == candidate.terminating

/-- The backend with what a further sighting tells about it. The candidate names one
slice; names that disagree are dropped. -/
def ServiceBackend.merge (existing candidate : ServiceBackend) : ServiceBackend :=
  let candidateSlice := candidate.endpointSlices.headD ""
  { existing with
    portName := if existing.portName ≠ candidate.portName then none else existing.portName
    appProtocol :=
      if existing.appProtocol ≠ candidate.appProtocol then none else existing.appProtocol
    endpointSlices :=
      if existing.endpointSlices.contains candidateSlice then existing.endpointSlices
      else sort (existing.endpointSlices ++ [candidateSlice]) }

def mergeBackend (service : String) (backends : ExtTreeMap FrontendKey ServiceBackend)
    (candidate : ServiceBackend) : Compiled (ExtTreeMap FrontendKey ServiceBackend) :=
  match backends[candidate.endpoint]? with
  | none => .ok (backends.insert candidate.endpoint candidate)
  | some existing =>
    if !existing.sameProvenance candidate then
      .error (.conflictingBackendProvenance service candidate.address candidate.port
        candidate.protocol)
    else
      .ok (backends.insert candidate.endpoint (existing.merge candidate))

/-- What the loops over the endpoints of a service port have collected. -/
structure BackendProgress where
  ids : ProvisionalIdRegistry
  backends : ExtTreeMap FrontendKey ServiceBackend
  backendIds : ExtTreeSet BackendId

section Endpoints

variable (service : ServiceSource) (clusterIp : IpAddr) (servicePort : ServiceSourcePort)

/-- One address of an endpoint. -/
def compileAddress (slice : EndpointSliceSource) (endpoint : EndpointSource)
    (endpointPort : EndpointPortSource) (port : UInt16) (progress : BackendProgress)
    (address : IpAddr) : Compiled BackendProgress := do
  let (backendId, ids) ← progress.ids.backendId
    (backendKey service.key address port endpointPort.protocol)
  let backends ← mergeBackend service.reference progress.backends {
    id := backendId
    address := address
    port := port
    protocol := endpointPort.protocol
    portName := endpointPort.name
    appProtocol := endpointPort.appProtocol
    endpointSlices := [slice.reference]
    targetWorkload := endpoint.targetWorkload
    nodeName := endpoint.nodeName
    zone := endpoint.zone
    ready := endpoint.ready
    serving := endpoint.serving
    terminating := endpoint.terminating }
  return ⟨ids, backends, progress.backendIds.insert backendId⟩

/-- One port of an endpoint; the port has to be resolved. -/
def compileEndpointPort (slice : EndpointSliceSource) (endpoint : EndpointSource)
    (progress : BackendProgress) (endpointPort : EndpointPortSource) :
    Compiled BackendProgress := do
  let port ← endpointPort.port.elim
    (.error (.unresolvedEndpointPort slice.reference service.reference servicePort.name
      servicePort.protocol)) .ok
  (endpoint.addresses.filter fun address => address.isIpv4 == clusterIp.isIpv4).foldlM
    (compileAddress service slice endpoint endpointPort port) progress

def compileEndpoint (slice : EndpointSliceSource) (progress : BackendProgress)
    (endpoint : EndpointSource) : Compiled BackendProgress :=
  (endpoint.ports.filter fun candidate => candidate.name == servicePort.name &&
    candidate.protocol == servicePort.protocol).foldlM
    (compileEndpointPort service clusterIp servicePort slice endpoint) progress

def compileSlice (progress : BackendProgress) (slice : EndpointSliceSource) :
    Compiled BackendProgress :=
  slice.endpoints.foldlM (compileEndpoint service clusterIp servicePort slice) progress

end Endpoints

/-! ## Services -/

/-- What the loops over the addresses and ports of a service have collected. -/
structure ServiceProgress where
  ids : ProvisionalIdRegistry
  backends : ExtTreeMap FrontendKey ServiceBackend
  frontends : List ServiceFrontend
  nodePorts : List ServiceNodePort

def compileServicePort (matchingSlices : List EndpointSliceSource) (clusterIp : IpAddr)
    (progress : ServiceProgress) (servicePort : ServiceSourcePort) : Compiled ServiceProgress := do
  let collected ← matchingSlices.foldlM (compileSlice service clusterIp servicePort)
    ⟨progress.ids, progress.backends, ∅⟩
  let backendIds := collected.backendIds.toList
  return {
    ids := collected.ids
    backends := collected.backends
    frontends := progress.frontends ++ [{
      address := clusterIp
      port := servicePort.port
      protocol := servicePort.protocol
      name := servicePort.name
      appProtocol := servicePort.appProtocol
      backendIds := backendIds }]
    nodePorts := progress.nodePorts ++ (servicePort.nodePort.elim [] fun nodePort => [{
      family := if clusterIp.isIpv4 then .ipv4 else .ipv6
      port := nodePort
      servicePort := servicePort.port
      protocol := servicePort.protocol
      name := servicePort.name
      appProtocol := servicePort.appProtocol
      trafficPolicy := service.externalTrafficPolicy
      backendIds := backendIds }]) }

def compileClusterIp (matchingSlices : List EndpointSliceSource) (progress : ServiceProgress)
    (clusterIp : IpAddr) : Compiled ServiceProgress :=
  service.ports.foldlM (compileServicePort service matchingSlices clusterIp) progress

/-- The frontends that a LoadBalancer has for one family and port. -/
def compileLoadBalancerFrontend (frontends : List ServiceFrontend) (family : AddressFamily)
    (servicePort : ServiceSourcePort) : ServiceLoadBalancerFrontend where
  family := family
  servicePort := servicePort.port
  protocol := servicePort.protocol
  name := servicePort.name
  appProtocol := servicePort.appProtocol
  backendIds := (frontends.find? fun frontend =>
    frontend.address.isIpv4 == (family == .ipv4) && frontend.port == servicePort.port &&
      frontend.protocol == servicePort.protocol && frontend.name == servicePort.name &&
      frontend.appProtocol == servicePort.appProtocol).elim [] ServiceFrontend.backendIds

def compileLoadBalancer (frontends : List ServiceFrontend) (source : ServiceLoadBalancerSource) :
    ServiceLoadBalancer where
  class_ := source.class_
  ipFamilies := source.ipFamilies
  ipFamilyPolicy := source.ipFamilyPolicy
  requestedIps := source.requestedIps
  trafficPolicy := service.externalTrafficPolicy
  sourceRanges := source.sourceRanges
  allocateNodePorts := source.allocateNodePorts
  healthCheckNodePort := source.healthCheckNodePort
  frontends := source.ipFamilies.flatMap fun family =>
    service.ports.map (compileLoadBalancerFrontend frontends family)

def validateSliceAddress (address : IpAddr) : Compiled Unit :=
  failIf (!(match slice.addressFamily with
      | .ipv4 => address.isIpv4
      | .ipv6 => address.isIpv6))
    (.addressFamilyMismatch slice.reference slice.addressFamily address)

def validateSliceFamilies (slices : List EndpointSliceSource) : Compiled Unit :=
  slices.forM fun slice =>
    (slice.endpoints.flatMap EndpointSource.addresses).forM (validateSliceAddress slice)

/-- The slices that name the service. -/
def ServiceSource.matchingSlices : List EndpointSliceSource :=
  endpointSlices.filter fun slice =>
    slice.«namespace» == service.«namespace» && slice.serviceName == service.name

def compileService (ids : ProvisionalIdRegistry) (service : ServiceSource) :
    Compiled (ProvisionalIdRegistry × ServiceIr) := do
  let (serviceId, ids) ← ids.serviceId service.key
  let matchingSlices := service.matchingSlices endpointSlices
  validateSliceFamilies matchingSlices
  let progress ← service.clusterIps.foldlM (compileClusterIp service matchingSlices)
    ⟨ids, ∅, [], []⟩
  return (progress.ids, {
    id := serviceId
    «namespace» := service.«namespace»
    name := service.name
    internalTrafficPolicy := service.internalTrafficPolicy
    sessionAffinity := service.sessionAffinity
    trafficDistribution := service.trafficDistribution
    selectionAlgorithm := service.selectionAlgorithm
    forwardingMode := service.forwardingMode
    frontends := progress.frontends
    nodePorts := progress.nodePorts
    loadBalancer := service.loadBalancer.map (compileLoadBalancer service progress.frontends)
    backends := progress.backends.toList.map Prod.snd })

/-! ## Snapshots -/

/-- Refuse two neighbours with the same namespace and name. -/
def rejectDuplicates {α : Type} (provenance : α → String ×ₗ String)
    (error : α → ServiceCompileError) : List α → Compiled Unit
  | first :: second :: rest => do
      failIf (provenance first == provenance second) (error second)
      rejectDuplicates provenance error (second :: rest)
  | _ => .ok ()

def rejectDuplicateServices : List ServiceSource → Compiled Unit :=
  rejectDuplicates ServiceSource.provenance fun service =>
    .duplicateService service.«namespace» service.name

def rejectDuplicateEndpointSlices : List EndpointSliceSource → Compiled Unit :=
  rejectDuplicates EndpointSliceSource.provenance fun slice =>
    .duplicateEndpointSlice slice.«namespace» slice.name

/-- One round over the services; headless services are left out. -/
def compileNextService (progress : ProvisionalIdRegistry × List ServiceIr)
    (service : ServiceSource) : Compiled (ProvisionalIdRegistry × List ServiceIr) :=
  if service.clusterIps.isEmpty then
    .ok progress
  else do
    let (ids, compiled) ← compileService endpointSlices progress.1 service
    return (ids, progress.2 ++ [compiled])

/-- From declared Services to a valid snapshot. -/
def compileServiceSnapshot (sourceEpoch : UInt64) (revision : Revision)
    (services : List ServiceSource) (endpointSlices : List EndpointSliceSource) :
    Compiled ServiceSnapshot := do
  let services := sortByKey ServiceSource.provenance services
  let endpointSlices := sortByKey EndpointSliceSource.provenance endpointSlices
  rejectDuplicateServices services
  rejectDuplicateEndpointSlices endpointSlices
  let (_, compiled) ← services.foldlM (compileNextService endpointSlices) (.empty, [])
  let snapshot : ServiceSnapshot := {
    schemaVersion := serviceSnapshotSchemaVersion
    sourceEpoch := sourceEpoch
    revision := revision
    services := compiled }
  snapshot.validateAndNormalize.mapError .invalidIr

end Unf.Service
