import Unf.Lib.OrderedMap
import Unf.Service.Snapshot

/-!
# Validation of service snapshots

The checks through which a snapshot becomes canonical, in the order in which the
program makes them, so that a refused snapshot is refused with the same error.
-/

namespace Unf.Service

open Std (ExtTreeMap ExtTreeSet)
open Unf.Lib

/-- Why a snapshot is rejected. -/
inductive ServiceIrError where
  | unsupportedSchema (actual expected : UInt16)
  | legacyNodePortIntent
  | legacyLoadBalancerIntent (schema : UInt16)
  | legacyAdvancedSelectionIntent (schema : UInt16)
  | zeroSourceEpoch
  | zeroRevision
  | tooManyServices (actual limit : Nat)
  | tooManyFrontends (actual limit : Nat)
  | tooManyNodePorts (actual limit : Nat)
  | tooManyLoadBalancerFrontends (actual limit : Nat)
  | tooManyBackends (actual limit : Nat)
  | tooManyBackendReferences (actual limit : Nat)
  | tooManyServiceBackends (service : ServiceId) (actual limit : Nat)
  | zeroServiceId
  | zeroBackendId (service : ServiceId)
  | duplicateServiceId (service : ServiceId)
  | duplicateServiceName («namespace» name : String)
  | invalidServiceField (service : ServiceId) (field reason : String)
  | missingFrontend (service : ServiceId)
  | invalidFrontend (service : ServiceId) (frontend : ServiceFrontend) (reason : String)
  | duplicateFrontend (frontend : ServiceFrontend)
  | duplicateNodePort (port : UInt16) (protocol : Protocol) (existing candidate : ServiceId)
  | duplicateNodePortFrontend (service : ServiceId) (nodePort : ServiceNodePort)
  | invalidNodePort (service : ServiceId) (nodePort : ServiceNodePort) (reason : String)
  | invalidLoadBalancer (service : ServiceId) (reason : String)
  | invalidLoadBalancerFrontend (service : ServiceId)
      (frontend : ServiceLoadBalancerFrontend) (reason : String)
  | duplicateLoadBalancerAddress (address : IpAddr) (existing candidate : ServiceId)
  | loadBalancerClusterIpCollision (address : IpAddr)
  | duplicateFrontendBackend (frontend : ServiceFrontend) (backend : BackendId)
  | unknownFrontendBackend (frontend : ServiceFrontend) (backend : BackendId)
  | backendFamilyMismatch (frontend : ServiceFrontend) (backend : BackendId)
  | duplicateBackendId (service : ServiceId) (backend : BackendId)
  | duplicateBackendEndpoint (service : ServiceId) (address : IpAddr) (port : UInt16)
      (protocol : Protocol)
  | invalidBackend (service : ServiceId) (backend : BackendId) (reason : String)
  deriving DecidableEq

abbrev Validated := Except ServiceIrError

/-! ## Building blocks -/

/-- Addition of machine-word counters, which stops at the largest one. -/
def saturatingAdd (left right : Nat) : Nat := min (left + right) (2 ^ 64 - 1)

def validOptionalProvenance (value : Option String) : Bool :=
  value.all fun text => text.utf8ByteSize != 0 &&
    decide (text.utf8ByteSize ≤ maxProvenanceComponentBytes)

def validOptionalReference (value : Option String) : Bool :=
  value.all fun text => text.utf8ByteSize != 0 &&
    decide (text.utf8ByteSize ≤ maxProvenanceComponentBytes * 2 + 1)

def isServiceProtocol (protocol : Protocol) : Bool :=
  protocol == .tcp || protocol == .udp || protocol == .sctp

def usableNodePortAddress : IpAddr → Bool
  | .v4 address => !(IpAddr.v4 address).isUnspecified && !(IpAddr.v4 address).isLoopback &&
      !(IpAddr.v4 address).isMulticast && !(IpAddr.v4 address).isBroadcast &&
      !(IpAddr.v4 address).isLinkLocal
  | .v6 address => !(IpAddr.v6 address).isUnspecified && !(IpAddr.v6 address).isLoopback &&
      !(IpAddr.v6 address).isMulticast && !(IpAddr.v6 address).isLinkLocal

/-- A key that some other service owns. -/
def rejectForeignOwner (owner : Option ServiceId) (service : ServiceId)
    (error : ServiceId → ServiceIrError) : Validated Unit :=
  owner.elim (.ok ()) fun existing => failIf (existing != service) (error existing)

/-- The backends by identifier, as they are looked up. -/
def backendTable (backends : List ServiceBackend) : ExtTreeMap BackendId ServiceBackend :=
  ExtTreeMap.ofList (backends.map fun backend => (backend.id, backend))

/-! ## Services, frontends and backends -/

variable (snapshot : ServiceSnapshot) (service : ServiceId)
  (clusterIpFrontends : List ServiceFrontend) (ipFamilies : List AddressFamily)
  (loadBalancer : ServiceLoadBalancer) (clusterIpAddresses : ExtTreeSet IpAddr)

def validateProvenanceComponent (field value : String) : Validated Unit := do
  failIf (value.utf8ByteSize == 0) (.invalidServiceField service field "must not be empty")
  failIf (decide (value.utf8ByteSize > maxProvenanceComponentBytes))
    (.invalidServiceField service field "exceeds the bounded provenance length")

def validateServiceIdentity (service : ServiceIr) (ids : ExtTreeSet ServiceId)
    (names : ExtTreeSet (String ×ₗ String)) :
    Validated (ExtTreeSet ServiceId × ExtTreeSet (String ×ₗ String)) := do
  failIf (service.id.get == 0) .zeroServiceId
  validateProvenanceComponent service.id "namespace" service.«namespace»
  validateProvenanceComponent service.id "name" service.name
  failIf (ids.contains service.id) (.duplicateServiceId service.id)
  failIf (names.contains service.provenance)
    (.duplicateServiceName service.«namespace» service.name)
  return (ids.insert service.id, names.insert service.provenance)

def validateSessionAffinity (service : ServiceIr) : Validated Unit :=
  match service.sessionAffinity with
  | .none => .ok ()
  | .clientIp timeoutSeconds =>
    failIf (!(decide (1 ≤ timeoutSeconds) && decide (timeoutSeconds ≤ 86400)))
      (.invalidServiceField service.id "session affinity timeout"
        "must be between 1 and 86400 seconds")

def validateFrontend (frontend : ServiceFrontend) : Validated Unit := do
  failIf (frontend.address.isUnspecified || frontend.address.isMulticast)
    (.invalidFrontend service frontend "address must be unicast and specified")
  failIf (frontend.port == 0)
    (.invalidFrontend service frontend "port zero is not a service frontend")
  failIf (!isServiceProtocol frontend.protocol)
    (.invalidFrontend service frontend "only TCP, UDP, and SCTP frontends are supported")
  failIf (!validOptionalProvenance frontend.name || !validOptionalProvenance frontend.appProtocol)
    (.invalidFrontend service frontend
      "port name and app protocol must be nonempty and bounded when present")

/-- One round over the frontends: check the frontend and claim its address. -/
def admitFrontend (owners : ExtTreeMap FrontendKey ServiceId) (frontend : ServiceFrontend) :
    Validated (ExtTreeMap FrontendKey ServiceId) := do
  validateFrontend service frontend
  failIf (owners.contains frontend.key) (.duplicateFrontend frontend)
  return owners.insert frontend.key service

def validateNodePort (nodePort : ServiceNodePort) : Validated Unit := do
  failIf (nodePort.port == 0 || nodePort.servicePort == 0)
    (.invalidNodePort service nodePort "NodePort and linked Service port must be nonzero")
  failIf (!isServiceProtocol nodePort.protocol)
    (.invalidNodePort service nodePort "only TCP, UDP, and SCTP NodePorts are supported in intent")
  failIf (!validOptionalProvenance nodePort.name || !validOptionalProvenance nodePort.appProtocol)
    (.invalidNodePort service nodePort
      "port name and app protocol must be nonempty and bounded when present")

/-- One round over the NodePorts of a service: check the port and claim it. -/
def admitNodePort (state : ExtTreeSet (AddressFamily ×ₗ UInt16 ×ₗ Protocol) ×
      ExtTreeMap (UInt16 ×ₗ Protocol) ServiceId) (nodePort : ServiceNodePort) :
    Validated (ExtTreeSet (AddressFamily ×ₗ UInt16 ×ₗ Protocol) ×
      ExtTreeMap (UInt16 ×ₗ Protocol) ServiceId) := do
  validateNodePort service nodePort
  failIf (state.1.contains nodePort.exactKey) (.duplicateNodePortFrontend service nodePort)
  rejectForeignOwner state.2[nodePort.ownerKey]? service fun existing =>
    .duplicateNodePort nodePort.port nodePort.protocol existing service
  return (state.1.insert nodePort.exactKey, state.2.insert nodePort.ownerKey service)

/-- One round over the backends of a service. -/
def validateBackend (state : ExtTreeSet BackendId × ExtTreeSet FrontendKey)
    (backend : ServiceBackend) : Validated (ExtTreeSet BackendId × ExtTreeSet FrontendKey) := do
  failIf (backend.id.get == 0) (.zeroBackendId service)
  failIf (state.1.contains backend.id) (.duplicateBackendId service backend.id)
  failIf (state.2.contains backend.endpoint)
    (.duplicateBackendEndpoint service backend.address backend.port backend.protocol)
  failIf (backend.address.isUnspecified || backend.address.isMulticast)
    (.invalidBackend service backend.id "address must be unicast and specified")
  failIf (backend.port == 0) (.invalidBackend service backend.id "port must be nonzero")
  failIf (!isServiceProtocol backend.protocol)
    (.invalidBackend service backend.id "only TCP, UDP, and SCTP backends are supported")
  failIf (backend.endpointSlices.isEmpty ||
      decide (backend.endpointSlices.length > maxEndpointSliceProvenance) ||
      backend.endpointSlices.any fun value => value.utf8ByteSize == 0 ||
        decide (value.utf8ByteSize > maxProvenanceComponentBytes * 2 + 1))
    (.invalidBackend service backend.id "EndpointSlice provenance must be present and bounded")
  failIf (!validOptionalProvenance backend.portName ||
      !validOptionalProvenance backend.appProtocol ||
      !validOptionalReference backend.targetWorkload ||
      !validOptionalProvenance backend.nodeName || !validOptionalProvenance backend.zone)
    (.invalidBackend service backend.id
      "optional backend provenance must be nonempty and bounded when present")
  return (state.1.insert backend.id, state.2.insert backend.endpoint)

def validateBackends (service : ServiceIr) : Validated Unit := do
  let _ ← service.backends.foldlM (validateBackend service.id) (∅, ∅)

/-- One round over the references of a ClusterIP frontend. -/
def validateFrontendBackend (backends : ExtTreeMap BackendId ServiceBackend)
    (frontend : ServiceFrontend) (references : ExtTreeSet BackendId) (backendId : BackendId) :
    Validated (ExtTreeSet BackendId) := do
  failIf (references.contains backendId) (.duplicateFrontendBackend frontend backendId)
  let backend ← backends[backendId]?.elim
    (.error (.unknownFrontendBackend frontend backendId)) .ok
  failIf (frontend.address.isIpv4 != backend.address.isIpv4)
    (.backendFamilyMismatch frontend backendId)
  failIf (frontend.protocol != backend.protocol)
    (.invalidBackend service backendId "frontend and backend protocols differ")
  return references.insert backendId

def validateFrontendBackends (service : ServiceIr) : Validated Unit :=
  service.frontends.forM fun frontend => do
    let _ ← frontend.backendIds.foldlM
      (validateFrontendBackend service.id (backendTable service.backends) frontend) ∅

/-- One round over the references of a NodePort. -/
def validateNodePortBackend (backends : ExtTreeMap BackendId ServiceBackend)
    (nodePort : ServiceNodePort) (references : ExtTreeSet BackendId) (backendId : BackendId) :
    Validated (ExtTreeSet BackendId) := do
  failIf (references.contains backendId)
    (.invalidNodePort service nodePort "repeats a backend reference")
  let backend ← backends[backendId]?.elim
    (.error (.invalidNodePort service nodePort "references an unknown backend")) .ok
  failIf (backend.address.family != nodePort.family || nodePort.protocol != backend.protocol)
    (.invalidNodePort service nodePort
      "backend family or protocol differs from the NodePort frontend")
  return references.insert backendId

def validateNodePortBackends (service : ServiceIr) : Validated Unit :=
  service.nodePorts.forM fun nodePort => do
    failIf (!service.frontends.any nodePort.links)
      (.invalidNodePort service.id nodePort
        "does not link to an exact same-family ClusterIP frontend")
    let _ ← nodePort.backendIds.foldlM
      (validateNodePortBackend service.id (backendTable service.backends) nodePort) ∅

/-! ## LoadBalancers -/

def validateIpFamilyPolicy (policy : ServiceIpFamilyPolicy) (families : List AddressFamily) :
    Validated Unit :=
  match policy with
  | .singleStack => failIf (families.length != 1)
      (.invalidLoadBalancer service "SingleStack requires exactly one address family")
  | .requireDualStack => failIf (families.length != 2)
      (.invalidLoadBalancer service "RequireDualStack requires both address families")
  | .preferDualStack => .ok ()

/-- The families come out sorted. -/
def validateLoadBalancerOwnership : Validated ServiceLoadBalancer := do
  failIf (loadBalancer.class_ != unfLoadBalancerClass)
    (.invalidLoadBalancer service "class is not owned by UNF")
  failIf (loadBalancer.ipFamilies.isEmpty || decide (loadBalancer.ipFamilies.length > 2))
    (.invalidLoadBalancer service "must request one or two address families")
  let families := sort loadBalancer.ipFamilies
  failIf (hasAdjacentRepeat families)
    (.invalidLoadBalancer service "repeats an address family")
  validateIpFamilyPolicy service loadBalancer.ipFamilyPolicy families
  return { loadBalancer with ipFamilies := families }

/-- One round over the requested addresses: check the address and claim it. -/
def admitRequestedIp (state : ExtTreeSet AddressFamily × ExtTreeMap IpAddr ServiceId)
    (address : IpAddr) : Validated (ExtTreeSet AddressFamily × ExtTreeMap IpAddr ServiceId) := do
  failIf (!ipFamilies.contains address.family)
    (.invalidLoadBalancer service "requested IP family is not admitted")
  failIf (state.1.contains address.family)
    (.invalidLoadBalancer service "requests more than one IP in one address family")
  failIf (!usableNodePortAddress address)
    (.invalidLoadBalancer service "requested IP must be a usable unicast address")
  failIf (clusterIpAddresses.contains address) (.loadBalancerClusterIpCollision address)
  rejectForeignOwner state.2[address]? service fun existing =>
    .duplicateLoadBalancerAddress address existing service
  return (state.1.insert address.family, state.2.insert address service)

/-- The requested addresses come out sorted. -/
def validateLoadBalancerRequestedIps (addressOwners : ExtTreeMap IpAddr ServiceId) :
    Validated (ServiceLoadBalancer × ExtTreeMap IpAddr ServiceId) := do
  failIf (decide (loadBalancer.requestedIps.length > loadBalancer.ipFamilies.length))
    (.invalidLoadBalancer service "requested IP count exceeds the requested address-family count")
  let requested := sort loadBalancer.requestedIps
  failIf (hasAdjacentRepeat requested)
    (.invalidLoadBalancer service "repeats a requested IP")
  let state ← requested.foldlM
    (admitRequestedIp service loadBalancer.ipFamilies clusterIpAddresses)
    (∅, addressOwners)
  return ({ loadBalancer with requestedIps := requested }, state.2)

/-- One round over the source ranges. -/
def validateSourceRange (range : ServiceIpPrefix) : Validated Unit := do
  failIf (!range.isCanonical)
    (.invalidLoadBalancer service "source ranges must be canonical IP prefixes")
  failIf (!ipFamilies.contains range.address.family)
    (.invalidLoadBalancer service "source-range family is not admitted")
  failIf range.address.isMulticast
    (.invalidLoadBalancer service "source ranges cannot be multicast")

/-- The source ranges come out sorted. -/
def validateLoadBalancerSourceControls : Validated ServiceLoadBalancer := do
  failIf (decide (loadBalancer.sourceRanges.length > maxLoadBalancerSourceRangesPerService))
    (.invalidLoadBalancer service "source-range count exceeds the per-Service bound")
  let ranges := sort loadBalancer.sourceRanges
  failIf (hasAdjacentRepeat ranges) (.invalidLoadBalancer service "repeats a source range")
  ranges.forM (validateSourceRange service loadBalancer.ipFamilies)
  failIf (loadBalancer.healthCheckNodePort == some 0)
    (.invalidLoadBalancer service "health-check NodePort must be nonzero")
  failIf (loadBalancer.healthCheckNodePort.isSome && loadBalancer.trafficPolicy != .local)
    (.invalidLoadBalancer service "health-check NodePort requires Local external traffic policy")
  return { loadBalancer with sourceRanges := ranges }

/-- The identities that LoadBalancer frontends have to cover. -/
def expectedFrontends : ExtTreeSet LoadBalancerFrontendIdentity :=
  ExtTreeSet.ofList ((clusterIpFrontends.filter fun frontend =>
    ipFamilies.contains frontend.address.family).map ServiceFrontend.identity)

/-- One round over the LoadBalancer frontends; the first ClusterIP frontend with the
same identity has to carry the same references. -/
def validateLoadBalancerFrontend (actual : ExtTreeSet LoadBalancerFrontendIdentity)
    (frontend : ServiceLoadBalancerFrontend) :
    Validated (ExtTreeSet LoadBalancerFrontendIdentity) := do
  failIf (frontend.servicePort == 0)
    (.invalidLoadBalancerFrontend service frontend "linked Service port must be nonzero")
  failIf (!(frontend.protocol == .tcp || frontend.protocol == .udp))
    (.invalidLoadBalancerFrontend service frontend
      "only TCP and UDP LoadBalancer frontends are admitted")
  failIf (!ipFamilies.contains frontend.family)
    (.invalidLoadBalancerFrontend service frontend "address family is not admitted")
  failIf (!validOptionalProvenance frontend.name || !validOptionalProvenance frontend.appProtocol)
    (.invalidLoadBalancerFrontend service frontend
      "port name and app protocol must be nonempty and bounded when present")
  failIf (actual.contains frontend.identity)
    (.invalidLoadBalancerFrontend service frontend "repeats an exact frontend")
  let linked ← (clusterIpFrontends.find? frontend.links).elim
    (.error (.invalidLoadBalancerFrontend service frontend.normalized
      "does not link to an exact same-family ClusterIP frontend")) .ok
  failIf (frontend.normalized.backendIds != linked.backendIds)
    (.invalidLoadBalancerFrontend service frontend.normalized
      "backend linkage differs from the exact ClusterIP frontend")
  return actual.insert frontend.identity

/-- The frontends come out sorted, with sorted references. -/
def validateLoadBalancerFrontends : Validated ServiceLoadBalancer := do
  let actual ← loadBalancer.frontends.foldlM
    (validateLoadBalancerFrontend service clusterIpFrontends loadBalancer.ipFamilies) ∅
  failIf (decide (actual ≠ expectedFrontends clusterIpFrontends loadBalancer.ipFamilies))
    (.invalidLoadBalancer service
      "frontends do not exactly cover every admitted family and Service port")
  return { loadBalancer with
    frontends := sort (loadBalancer.frontends.map ServiceLoadBalancerFrontend.normalized) }

def validateAndNormalizeLoadBalancer (addressOwners : ExtTreeMap IpAddr ServiceId) :
    Validated (ServiceLoadBalancer × ExtTreeMap IpAddr ServiceId) := do
  let owned ← validateLoadBalancerOwnership service loadBalancer
  let (requesting, addressOwners) ←
    validateLoadBalancerRequestedIps service owned clusterIpAddresses addressOwners
  let controlled ← validateLoadBalancerSourceControls service requesting
  let linked ← validateLoadBalancerFrontends service clusterIpFrontends controlled
  return (linked, addressOwners)

/-- One reference of a LoadBalancer frontend under direct server return. -/
def validateDsrBackend (service : ServiceIr) (frontend : ServiceLoadBalancerFrontend)
    (backendId : BackendId) : Validated Unit := do
  let backend ← (service.backends.find? fun backend => backend.id == backendId).elim
    (.error (.invalidLoadBalancerFrontend service.id frontend
      "DSR frontend references an unknown backend")) .ok
  failIf (backend.port != frontend.servicePort || backend.protocol != frontend.protocol)
    (.invalidLoadBalancerFrontend service.id frontend
      "DSR requires every backend to listen on the unchanged Service port and protocol")

def validateDsrContract (service : ServiceIr) : Validated Unit :=
  if service.forwardingMode != .dsr then
    .ok ()
  else
    match service.loadBalancer with
    | none => .error (.invalidServiceField service.id "forwarding mode"
        "DSR requires an explicit UNF LoadBalancer")
    | some loadBalancer => loadBalancer.frontends.forM fun frontend =>
        frontend.backendIds.forM (validateDsrBackend service frontend)

/-! ## Snapshots -/

def rejectLegacyLoadBalancerIntent (schema : UInt16) : Validated Unit :=
  failIf (snapshot.services.any fun service => service.loadBalancer.isSome)
    (.legacyLoadBalancerIntent schema)

def rejectLegacyAdvancedSelectionIntent (schema : UInt16) : Validated Unit :=
  failIf snapshot.hasAdvancedSelectionIntent (.legacyAdvancedSelectionIntent schema)

/-- Check the schema and bring the snapshot to the current one. -/
def migrateServiceSnapshotSchema : Validated ServiceSnapshot := do
  let migrated := { snapshot with schemaVersion := serviceSnapshotSchemaVersion }
  if snapshot.schemaVersion = legacyServiceSnapshotSchemaVersion then
    failIf (snapshot.services.any fun service => !service.nodePorts.isEmpty)
      .legacyNodePortIntent
    rejectLegacyLoadBalancerIntent snapshot legacyServiceSnapshotSchemaVersion
    return migrated
  else if snapshot.schemaVersion = nodePortServiceSnapshotSchemaVersion then
    rejectLegacyLoadBalancerIntent snapshot nodePortServiceSnapshotSchemaVersion
    return migrated
  else if snapshot.schemaVersion = loadBalancerServiceSnapshotSchemaVersion then
    rejectLegacyAdvancedSelectionIntent snapshot loadBalancerServiceSnapshotSchemaVersion
    return migrated
  else if snapshot.schemaVersion = serviceSnapshotSchemaVersion then
    return snapshot
  else
    .error (.unsupportedSchema snapshot.schemaVersion serviceSnapshotSchemaVersion)

/-- The numbers that are bounded over a whole snapshot. -/
structure SnapshotTotals where
  frontends : Nat
  nodePorts : Nat
  loadBalancerFrontends : Nat
  backends : Nat
  backendReferences : Nat

def SnapshotTotals.zero : SnapshotTotals := ⟨0, 0, 0, 0, 0⟩

/-- The totals after one more service. -/
def SnapshotTotals.add (totals : SnapshotTotals) (service : ServiceIr) : SnapshotTotals where
  frontends := saturatingAdd totals.frontends service.frontends.length
  nodePorts := saturatingAdd totals.nodePorts service.nodePorts.length
  loadBalancerFrontends := saturatingAdd totals.loadBalancerFrontends
    (service.loadBalancer.elim 0 fun loadBalancer => loadBalancer.frontends.length)
  backends := saturatingAdd totals.backends service.backends.length
  backendReferences :=
    let ofFrontends := service.frontends.foldl (fun count frontend =>
      saturatingAdd count frontend.backendIds.length) totals.backendReferences
    let ofNodePorts := service.nodePorts.foldl (fun count nodePort =>
      saturatingAdd count nodePort.backendIds.length) 0
    let ofLoadBalancer := service.loadBalancer.elim 0 fun loadBalancer =>
      loadBalancer.frontends.foldl (fun count frontend =>
        saturatingAdd count frontend.backendIds.length) 0
    saturatingAdd (saturatingAdd ofFrontends ofNodePorts) ofLoadBalancer

def validateSnapshotCapacities (totals : SnapshotTotals) : Validated Unit := do
  failIf (decide (totals.frontends > maxServiceFrontends))
    (.tooManyFrontends totals.frontends maxServiceFrontends)
  failIf (decide (totals.nodePorts > maxServiceNodePorts))
    (.tooManyNodePorts totals.nodePorts maxServiceNodePorts)
  failIf (decide (totals.loadBalancerFrontends > maxServiceLoadBalancerFrontends))
    (.tooManyLoadBalancerFrontends totals.loadBalancerFrontends maxServiceLoadBalancerFrontends)
  failIf (decide (totals.backends > maxServiceBackends))
    (.tooManyBackends totals.backends maxServiceBackends)
  failIf (decide (totals.backendReferences > maxServiceBackendReferences))
    (.tooManyBackendReferences totals.backendReferences maxServiceBackendReferences)

/-- What the validation has claimed for the services seen so far. -/
structure ValidationState where
  serviceIds : ExtTreeSet ServiceId
  serviceNames : ExtTreeSet (String ×ₗ String)
  frontendOwners : ExtTreeMap FrontendKey ServiceId
  nodePortOwners : ExtTreeMap (UInt16 ×ₗ Protocol) ServiceId
  loadBalancerAddressOwners : ExtTreeMap IpAddr ServiceId
  totals : SnapshotTotals

def ValidationState.initial : ValidationState :=
  ⟨∅, ∅, ∅, ∅, ∅, .zero⟩

/-- The LoadBalancer of a service, once its frontends are checked. -/
def validateServiceLoadBalancer (service : ServiceIr) (clusterIpAddresses : ExtTreeSet IpAddr)
    (addressOwners : ExtTreeMap IpAddr ServiceId) :
    Validated (ServiceIr × ExtTreeMap IpAddr ServiceId) :=
  match service.loadBalancer with
  | none => .ok (service, addressOwners)
  | some loadBalancer => do
      let (linked, addressOwners) ← validateAndNormalizeLoadBalancer service.id
        service.frontends loadBalancer clusterIpAddresses addressOwners
      return ({ service with loadBalancer := some linked }, addressOwners)

/-- One round over the services of a snapshot. -/
def validateService (state : ValidationState) (service : ServiceIr) :
    Validated (ValidationState × ServiceIr) := do
  let (serviceIds, serviceNames) ←
    validateServiceIdentity service state.serviceIds state.serviceNames
  validateSessionAffinity service
  failIf service.frontends.isEmpty (.missingFrontend service.id)
  failIf (decide (service.backends.length > maxBackendsPerService))
    (.tooManyServiceBackends service.id service.backends.length maxBackendsPerService)
  let (_, nodePortOwners) ← service.nodePorts.foldlM (admitNodePort service.id)
    (∅, state.nodePortOwners)
  let service := { service with
    nodePorts := sort (service.nodePorts.map ServiceNodePort.normalized) }
  let frontendOwners ← service.frontends.foldlM (admitFrontend service.id)
    state.frontendOwners
  let service := { service with
    frontends := service.frontends.map ServiceFrontend.normalized
    backends := service.backends.map ServiceBackend.normalized }
  validateBackends service
  validateFrontendBackends service
  validateNodePortBackends service
  let (service, loadBalancerAddressOwners) ← validateServiceLoadBalancer service
    clusterIpAddresses state.loadBalancerAddressOwners
  validateDsrContract service
  return ({
      serviceIds := serviceIds
      serviceNames := serviceNames
      frontendOwners := frontendOwners
      nodePortOwners := nodePortOwners
      loadBalancerAddressOwners := loadBalancerAddressOwners
      totals := state.totals.add service }, { service with
      frontends := sort service.frontends
      backends := sort service.backends })

/-- The services validated so far, in the order of the snapshot. -/
def validateNextService (progress : ValidationState × List ServiceIr) (service : ServiceIr) :
    Validated (ValidationState × List ServiceIr) := do
  let (state, validated) ← validateService clusterIpAddresses progress.1 service
  return (state, progress.2 ++ [validated])

def ServiceSnapshot.validateAndNormalize : Validated ServiceSnapshot := do
  let snapshot ← migrateServiceSnapshotSchema snapshot
  failIf (snapshot.sourceEpoch == 0) .zeroSourceEpoch
  failIf (snapshot.revision == .initial) .zeroRevision
  failIf (decide (snapshot.services.length > maxServices))
    (.tooManyServices snapshot.services.length maxServices)
  let (state, services) ← snapshot.services.foldlM
    (validateNextService snapshot.clusterIpAddresses) (.initial, [])
  validateSnapshotCapacities state.totals
  return { snapshot with services := sortByKey ServiceIr.sortKey services }

end Unf.Service
