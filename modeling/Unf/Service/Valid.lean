import Unf.Service.Validate

/-!
# Valid service snapshots

What the validation accepts, stated without its loops: a snapshot is accepted
exactly when it is valid, and the result is its canonical order.
-/

namespace Unf.Service

open Std (ExtTreeMap ExtTreeSet)
open Unf.Lib List ServiceIr

/-! ## Declarative validity -/

/-- A namespace or name of a service. -/
def ValidComponent (value : String) : Prop :=
  value.utf8ByteSize ≠ 0 ∧ value.utf8ByteSize ≤ maxProvenanceComponentBytes

@[mk_iff]
structure ServiceFrontend.Valid (frontend : ServiceFrontend) : Prop where
  specified : frontend.address.isUnspecified = false
  unicast : frontend.address.isMulticast = false
  port : frontend.port ≠ 0
  protocol : isServiceProtocol frontend.protocol = true
  name : validOptionalProvenance frontend.name = true
  appProtocol : validOptionalProvenance frontend.appProtocol = true

@[mk_iff]
structure ServiceNodePort.Valid (nodePort : ServiceNodePort) : Prop where
  port : nodePort.port ≠ 0
  servicePort : nodePort.servicePort ≠ 0
  protocol : isServiceProtocol nodePort.protocol = true
  name : validOptionalProvenance nodePort.name = true
  appProtocol : validOptionalProvenance nodePort.appProtocol = true

@[mk_iff]
structure ServiceBackend.Valid (backend : ServiceBackend) : Prop where
  identified : backend.id.get ≠ 0
  specified : backend.address.isUnspecified = false
  unicast : backend.address.isMulticast = false
  port : backend.port ≠ 0
  protocol : isServiceProtocol backend.protocol = true
  slicesPresent : backend.endpointSlices ≠ []
  slicesBounded : (sortDedup backend.endpointSlices).length ≤ maxEndpointSliceProvenance
  slices : ∀ value ∈ backend.endpointSlices, value.utf8ByteSize ≠ 0 ∧
    value.utf8ByteSize ≤ maxProvenanceComponentBytes * 2 + 1
  portName : validOptionalProvenance backend.portName = true
  appProtocol : validOptionalProvenance backend.appProtocol = true
  targetWorkload : validOptionalReference backend.targetWorkload = true
  nodeName : validOptionalProvenance backend.nodeName = true
  zone : validOptionalProvenance backend.zone = true

/-- References to backends of the service, of the given family and protocol. -/
@[mk_iff]
structure ValidReferences (backends : List ServiceBackend) (family : AddressFamily)
    (protocol : Protocol) (backendIds : List BackendId) : Prop where
  distinct : backendIds.Nodup
  known : ∀ backendId ∈ backendIds, ∃ backend ∈ backends, backend.id = backendId ∧
    backend.address.family = family ∧ backend.protocol = protocol

@[mk_iff]
structure ServiceLoadBalancerFrontend.Valid (ipFamilies : List AddressFamily)
    (frontend : ServiceLoadBalancerFrontend) : Prop where
  servicePort : frontend.servicePort ≠ 0
  protocol : frontend.protocol = .tcp ∨ frontend.protocol = .udp
  family : frontend.family ∈ ipFamilies
  name : validOptionalProvenance frontend.name = true
  appProtocol : validOptionalProvenance frontend.appProtocol = true

@[mk_iff]
structure ServiceLoadBalancer.Valid (clusterIpAddresses : ExtTreeSet IpAddr)
    (clusterIpFrontends : List ServiceFrontend) (loadBalancer : ServiceLoadBalancer) :
    Prop where
  owned : loadBalancer.class_ = unfLoadBalancerClass
  familiesPresent : loadBalancer.ipFamilies ≠ []
  familiesBounded : loadBalancer.ipFamilies.length ≤ 2
  familiesDistinct : loadBalancer.ipFamilies.Nodup
  singleStack : loadBalancer.ipFamilyPolicy = .singleStack →
    loadBalancer.ipFamilies.length = 1
  dualStack : loadBalancer.ipFamilyPolicy = .requireDualStack →
    loadBalancer.ipFamilies.length = 2
  requestedBounded : loadBalancer.requestedIps.length ≤ loadBalancer.ipFamilies.length
  requestedDistinct : loadBalancer.requestedIps.Nodup
  requestedFamilies : (loadBalancer.requestedIps.map IpAddr.family).Nodup
  requested : ∀ address ∈ loadBalancer.requestedIps,
    address.family ∈ loadBalancer.ipFamilies ∧ usableNodePortAddress address = true ∧
      address ∉ clusterIpAddresses
  rangesBounded : loadBalancer.sourceRanges.length ≤ maxLoadBalancerSourceRangesPerService
  rangesDistinct : loadBalancer.sourceRanges.Nodup
  ranges : ∀ range ∈ loadBalancer.sourceRanges, range.isCanonical = true ∧
    range.address.family ∈ loadBalancer.ipFamilies ∧ range.address.isMulticast = false
  healthCheckNonzero : loadBalancer.healthCheckNodePort ≠ some 0
  healthCheckLocal : loadBalancer.healthCheckNodePort.isSome = true →
    loadBalancer.trafficPolicy = .local
  frontends : ∀ frontend ∈ loadBalancer.frontends, frontend.Valid loadBalancer.ipFamilies
  identities : (loadBalancer.frontends.map ServiceLoadBalancerFrontend.identity).Nodup
  linked : ∀ frontend ∈ loadBalancer.frontends, ∃ linked,
    clusterIpFrontends.find? frontend.links = some linked ∧
      sort frontend.backendIds = sort linked.backendIds
  covered : ∀ identity,
    identity ∈ loadBalancer.frontends.map ServiceLoadBalancerFrontend.identity ↔
      ∃ frontend ∈ clusterIpFrontends,
        frontend.address.family ∈ loadBalancer.ipFamilies ∧ frontend.identity = identity

/-- Under direct server return every backend listens on the port of its frontend. -/
def ServiceIr.DsrValid (service : ServiceIr) : Prop :=
  service.forwardingMode = .dsr → ∃ loadBalancer, service.loadBalancer = some loadBalancer ∧
    ∀ frontend ∈ loadBalancer.frontends, ∀ backendId ∈ frontend.backendIds,
      ∃ backend ∈ service.backends, backend.id = backendId ∧
        backend.port = frontend.servicePort ∧ backend.protocol = frontend.protocol

/-- What a service has to satisfy by itself. -/
@[mk_iff]
structure ServiceIr.Valid (clusterIpAddresses : ExtTreeSet IpAddr) (service : ServiceIr) :
    Prop where
  identified : service.id.get ≠ 0
  «namespace» : ValidComponent service.«namespace»
  name : ValidComponent service.name
  affinity : ∀ timeout, service.sessionAffinity = .clientIp timeout →
    1 ≤ timeout ∧ timeout ≤ 86400
  frontendsPresent : service.frontends ≠ []
  backendsBounded : service.backends.length ≤ maxBackendsPerService
  frontends : ∀ frontend ∈ service.frontends, frontend.Valid
  frontendKeys : (service.frontends.map ServiceFrontend.key).Nodup
  nodePorts : ∀ nodePort ∈ service.nodePorts, nodePort.Valid
  nodePortKeys : (service.nodePorts.map ServiceNodePort.exactKey).Nodup
  nodePortLinks : ∀ nodePort ∈ service.nodePorts,
    service.frontends.any nodePort.links = true
  backends : ∀ backend ∈ service.backends, backend.Valid
  backendIds : (service.backends.map ServiceBackend.id).Nodup
  endpoints : (service.backends.map ServiceBackend.endpoint).Nodup
  frontendBackends : ∀ frontend ∈ service.frontends, ValidReferences service.backends
    frontend.address.family frontend.protocol frontend.backendIds
  nodePortBackends : ∀ nodePort ∈ service.nodePorts, ValidReferences service.backends
    nodePort.family nodePort.protocol nodePort.backendIds
  loadBalancer : ∀ loadBalancer, service.loadBalancer = some loadBalancer →
    loadBalancer.Valid clusterIpAddresses service.frontends
  dsr : service.DsrValid

def ServiceIr.requestedIps (service : ServiceIr) : List IpAddr :=
  service.loadBalancer.elim [] ServiceLoadBalancer.requestedIps

def ServiceIr.loadBalancerFrontends (service : ServiceIr) :
    List ServiceLoadBalancerFrontend :=
  service.loadBalancer.elim [] ServiceLoadBalancer.frontends

/-- The number of references to backends. -/
def ServiceIr.backendReferences (service : ServiceIr) : Nat :=
  (service.frontends.map fun frontend => frontend.backendIds.length).sum +
    (service.nodePorts.map fun nodePort => nodePort.backendIds.length).sum +
    (service.loadBalancerFrontends.map fun frontend => frontend.backendIds.length).sum

/-- The schemas that are understood, without the intent that they cannot carry. -/
structure ServiceSnapshot.SchemaValid (snapshot : ServiceSnapshot) : Prop where
  version : snapshot.schemaVersion = legacyServiceSnapshotSchemaVersion ∨
    snapshot.schemaVersion = nodePortServiceSnapshotSchemaVersion ∨
    snapshot.schemaVersion = loadBalancerServiceSnapshotSchemaVersion ∨
    snapshot.schemaVersion = serviceSnapshotSchemaVersion
  nodePorts : snapshot.schemaVersion = legacyServiceSnapshotSchemaVersion →
    ∀ service ∈ snapshot.services, service.nodePorts = []
  loadBalancers : snapshot.schemaVersion = legacyServiceSnapshotSchemaVersion ∨
      snapshot.schemaVersion = nodePortServiceSnapshotSchemaVersion →
    ∀ service ∈ snapshot.services, service.loadBalancer = none
  advanced : snapshot.schemaVersion = loadBalancerServiceSnapshotSchemaVersion →
    snapshot.hasAdvancedSelectionIntent = false

/-- What all services together may not exceed. -/
@[mk_iff]
structure CapacitiesValid (services : List ServiceIr) : Prop where
  frontends : (services.map fun service => service.frontends.length).sum ≤
    maxServiceFrontends
  nodePorts : (services.map fun service => service.nodePorts.length).sum ≤
    maxServiceNodePorts
  loadBalancerFrontends : (services.map fun service =>
    service.loadBalancerFrontends.length).sum ≤ maxServiceLoadBalancerFrontends
  backends : (services.map fun service => service.backends.length).sum ≤ maxServiceBackends
  backendReferences : (services.map ServiceIr.backendReferences).sum ≤
    maxServiceBackendReferences

/-- What two services of a snapshot may not share. -/
@[mk_iff]
structure ServiceIr.Separate (left right : ServiceIr) : Prop where
  id : left.id ≠ right.id
  provenance : left.provenance ≠ right.provenance
  frontends : ∀ first ∈ left.frontends, ∀ second ∈ right.frontends, first.key ≠ second.key
  nodePorts : ∀ first ∈ left.nodePorts, ∀ second ∈ right.nodePorts,
    first.ownerKey ≠ second.ownerKey
  requestedIps : ∀ address ∈ left.requestedIps, address ∉ right.requestedIps

structure ServiceSnapshot.Valid (snapshot : ServiceSnapshot) : Prop where
  schema : snapshot.SchemaValid
  sourceEpoch : snapshot.sourceEpoch ≠ 0
  revision : snapshot.revision ≠ .initial
  bounded : snapshot.services.length ≤ maxServices
  services : ∀ service ∈ snapshot.services, service.Valid snapshot.clusterIpAddresses
  separate : snapshot.services.Pairwise ServiceIr.Separate
  capacities : CapacitiesValid snapshot.services

/-! ## Building blocks -/

variable {result : Unit} {frontends : List ServiceFrontend} {families : List AddressFamily}
  {loadBalancer : ServiceLoadBalancer} {owners : ExtTreeMap IpAddr ServiceId}
  {clusterIpAddresses : ExtTreeSet IpAddr}
  {service : ServiceId} {backends : List ServiceBackend} {frontend : ServiceFrontend}
  {nodePort : ServiceNodePort} {backendIds : List BackendId} {protocol : Protocol}
  {backendId : BackendId}

theorem rejectForeignOwner_eq_ok {owner : Option ServiceId} {error : ServiceId → ServiceIrError} :
    rejectForeignOwner owner service error = .ok result ↔
      ∀ existing, owner = some existing → existing = service := by
  cases owner <;> simp [rejectForeignOwner]

theorem getElem?_backendTable (distinct : (backends.map ServiceBackend.id).Nodup)
    (backendId : BackendId) (backend : ServiceBackend) :
    (backendTable backends)[backendId]? = some backend ↔
      backend ∈ backends ∧ backend.id = backendId :=
  getElem?_ofList_map distinct backendId backend

/-! ## Services, frontends and backends -/

theorem validateProvenanceComponent_eq_ok {field value : String} :
    validateProvenanceComponent service field value = .ok result ↔ ValidComponent value := by
  simp [validateProvenanceComponent, ValidComponent]

theorem validateServiceIdentity_eq_ok {service : ServiceIr} {ids : ExtTreeSet ServiceId}
    {names : ExtTreeSet (String ×ₗ String)}
    {result : ExtTreeSet ServiceId × ExtTreeSet (String ×ₗ String)} :
    validateServiceIdentity service ids names = .ok result ↔
      (service.id.get ≠ 0 ∧ ValidComponent service.«namespace» ∧
        ValidComponent service.name ∧ service.id ∉ ids ∧ service.provenance ∉ names) ∧
      result = (ids.insert service.id, names.insert service.provenance) := by
  simp only [validateServiceIdentity, eq_ok_iffs, validateProvenanceComponent_eq_ok,
    contains_eq_false_iff, eq_false_iffs, and_assoc, eq_comm (a := result)]

theorem validateSessionAffinity_eq_ok {service : ServiceIr} :
    validateSessionAffinity service = .ok result ↔
      ∀ timeout, service.sessionAffinity = .clientIp timeout → 1 ≤ timeout ∧ timeout ≤ 86400 := by
  cases affinity : service.sessionAffinity <;> simp [validateSessionAffinity, affinity]

theorem validateFrontend_eq_ok :
    validateFrontend service frontend = .ok result ↔ frontend.Valid := by
  simp only [validateFrontend, failIf_bind_eq_ok, failIf_eq_ok, eq_false_iffs,
    ServiceFrontend.valid_iff, and_assoc]

theorem foldlM_admitFrontend_eq_ok {owners result : ExtTreeMap FrontendKey ServiceId} :
    frontends.foldlM (admitFrontend service) owners = .ok result ↔
      (∀ frontend ∈ frontends, frontend.Valid ∧ frontend.key ∉ owners) ∧
      (frontends.map ServiceFrontend.key).Nodup ∧ result = frontends.foldl (fun owners frontend =>
        owners.insert frontend.key service) owners := by
  have step : ∀ state frontend after, admitFrontend service state frontend = .ok after ↔
      (frontend.Valid ∧ frontend.key ∉ state) ∧ after = state.insert frontend.key service := by
    intro state frontend after
    simp only [admitFrontend, eq_ok_iffs, validateFrontend_eq_ok, map_contains_eq_false_iff,
      and_assoc, eq_comm (a := after)]
  simp only [foldlM_eq_ok_iff step, mem_foldl_insert_values, not_or, not_exists, not_and,
    ← and_assoc, forall_split_iff, List.Nodup, pairwise_map]

theorem validateNodePort_eq_ok :
    validateNodePort service nodePort = .ok result ↔ nodePort.Valid := by
  simp only [validateNodePort, failIf_bind_eq_ok, failIf_eq_ok, eq_false_iffs,
    ServiceNodePort.valid_iff, and_assoc]

/-- The state of the loop over the NodePorts of a service. -/
def claimNodePort (service : ServiceId) (state : ExtTreeSet (AddressFamily ×ₗ UInt16 ×ₗ Protocol) ×
      ExtTreeMap (UInt16 ×ₗ Protocol) ServiceId) (nodePort : ServiceNodePort) :
    ExtTreeSet (AddressFamily ×ₗ UInt16 ×ₗ Protocol) ×
      ExtTreeMap (UInt16 ×ₗ Protocol) ServiceId :=
  (state.1.insert nodePort.exactKey, state.2.insert nodePort.ownerKey service)

theorem foldl_claimNodePort (service : ServiceId) (nodePorts : List ServiceNodePort)
    (state : ExtTreeSet (AddressFamily ×ₗ UInt16 ×ₗ Protocol) ×
      ExtTreeMap (UInt16 ×ₗ Protocol) ServiceId) : nodePorts.foldl (claimNodePort service) state =
      (nodePorts.foldl (fun seen nodePort => seen.insert nodePort.exactKey) state.1,
        nodePorts.foldl (fun owners nodePort => owners.insert nodePort.ownerKey service) state.2) :=
  foldl_hom₂ nodePorts Prod.mk _ _ _ state.1 state.2 fun _ _ _ => rfl

theorem foldlM_admitNodePort_eq_ok {nodePorts : List ServiceNodePort}
    {owners : ExtTreeMap (UInt16 ×ₗ Protocol) ServiceId}
    {result : ExtTreeSet (AddressFamily ×ₗ UInt16 ×ₗ Protocol) ×
      ExtTreeMap (UInt16 ×ₗ Protocol) ServiceId} :
    nodePorts.foldlM (admitNodePort service) (∅, owners) = .ok result ↔
      (∀ nodePort ∈ nodePorts, nodePort.Valid ∧
        ∀ existing, owners[nodePort.ownerKey]? = some existing → existing = service) ∧
      (nodePorts.map ServiceNodePort.exactKey).Nodup ∧
      result = nodePorts.foldl (claimNodePort service) (∅, owners) := by
  have step : ∀ state nodePort after, admitNodePort service state nodePort = .ok after ↔
      (nodePort.Valid ∧ nodePort.exactKey ∉ state.1 ∧
        ∀ existing, state.2[nodePort.ownerKey]? = some existing → existing = service) ∧
      after = claimNodePort service state nodePort := by
    intro state nodePort after
    simp only [admitNodePort, eq_ok_iffs, validateNodePort_eq_ok, contains_eq_false_iff,
      rejectForeignOwner_eq_ok, and_assoc, eq_comm (a := after), claimNodePort]
  simp only [foldlM_eq_ok_iff step, foldl_claimNodePort, mem_foldl_insert,
    ExtTreeSet.not_mem_empty, false_or, not_exists, not_and]
  rw [← and_assoc]
  apply and_congr_left
  intro _
  exact forall_split_claims_iff

theorem sortDedup_eq_nil_iff {items : List String} : sortDedup items = [] ↔ items = [] := by
  simp only [eq_nil_iff_forall_not_mem, mem_sortDedup]

/-- The state of the loop over the backends of a service. -/
def claimBackend (state : ExtTreeSet BackendId × ExtTreeSet FrontendKey)
    (backend : ServiceBackend) : ExtTreeSet BackendId × ExtTreeSet FrontendKey :=
  (state.1.insert backend.id, state.2.insert backend.endpoint)

theorem foldl_claimBackend (backends : List ServiceBackend)
    (state : ExtTreeSet BackendId × ExtTreeSet FrontendKey) : backends.foldl claimBackend state =
      (backends.foldl (fun seen backend => seen.insert backend.id) state.1,
        backends.foldl (fun seen backend => seen.insert backend.endpoint) state.2) :=
  foldl_hom₂ backends Prod.mk _ _ _ state.1 state.2 fun _ _ _ => rfl

theorem validateBackend_eq_ok {state after : ExtTreeSet BackendId × ExtTreeSet FrontendKey}
    {backend : ServiceBackend} : validateBackend service state backend.normalized = .ok after ↔
      (backend.Valid ∧ backend.id ∉ state.1 ∧ backend.endpoint ∉ state.2) ∧
        after = claimBackend state backend := by
  simp only [validateBackend, eq_ok_iffs, contains_eq_false_iff, eq_false_iffs, gt_iff_lt,
    any_eq_false, Bool.or_eq_true, beq_iff_eq, decide_eq_true_eq, not_or,
    ServiceBackend.normalized, ServiceBackend.endpoint, mem_sortDedup, ne_eq, sortDedup_eq_nil_iff,
    claimBackend, eq_comm (a := after)]
  constructor
  · rintro ⟨identified, unseen, unseenEndpoint, ⟨specified, unicast⟩, port, protocol,
      ⟨⟨present, bounded⟩, slices⟩, ⟨⟨⟨⟨portName, appProtocol⟩, workload⟩, nodeName⟩, zone⟩, rfl⟩
    exact ⟨⟨⟨identified, specified, unicast, port, protocol, present, bounded, slices,
      portName, appProtocol, workload, nodeName, zone⟩, unseen, unseenEndpoint⟩, rfl⟩
  · rintro ⟨⟨valid, unseen, unseenEndpoint⟩, rfl⟩
    exact ⟨valid.identified, unseen, unseenEndpoint, ⟨valid.specified, valid.unicast⟩, valid.port,
      valid.protocol, ⟨⟨valid.slicesPresent, valid.slicesBounded⟩, valid.slices⟩,
      ⟨⟨⟨⟨valid.portName, valid.appProtocol⟩, valid.targetWorkload⟩, valid.nodeName⟩, valid.zone⟩,
      rfl⟩

/-- The service as it is when references are checked. -/
def ServiceIr.referencesSorted (service : ServiceIr) : ServiceIr :=
  { service with
    nodePorts := sort (service.nodePorts.map ServiceNodePort.normalized)
    frontends := service.frontends.map ServiceFrontend.normalized
    backends := service.backends.map ServiceBackend.normalized }

theorem validateBackends_eq_ok {service : ServiceIr} :
    validateBackends service.referencesSorted = .ok result ↔
      (∀ backend ∈ service.backends, backend.Valid) ∧
        (service.backends.map ServiceBackend.id).Nodup ∧
        (service.backends.map ServiceBackend.endpoint).Nodup := by
  have step : ∀ state (backend : ServiceBackend) after,
      validateBackend service.id state backend.normalized = .ok after ↔
      (backend.Valid ∧ backend.id ∉ state.1 ∧ backend.endpoint ∉ state.2) ∧
        after = claimBackend state backend :=
    fun _ _ _ => validateBackend_eq_ok
  have accepted_iff : (∃ after, service.backends.foldlM (fun state backend =>
      validateBackend service.id state backend.normalized) (∅, ∅) = .ok after) ↔
      (∀ backend ∈ service.backends, backend.Valid) ∧ service.backends.Pairwise
        fun earlier later => earlier.id ≠ later.id ∧ earlier.endpoint ≠ later.endpoint := by
    simp only [foldlM_eq_ok_iff step, exists_and_left, exists_eq, and_true, foldl_claimBackend,
      mem_foldl_insert, ExtTreeSet.not_mem_empty, false_or, not_exists, not_and, ← forall_and,
      ← forall_split_iff]
  simp only [validateBackends, referencesSorted, bind_eq_ok, foldlM_map, pure,
    Except.pure, and_true]
  rw [accepted_iff, List.Nodup, List.Nodup, pairwise_map, pairwise_map, pairwise_and_iff]

/-- A loop over references that refuses repetitions and unknown backends. -/
theorem exists_foldlM_references_iff
    {body : ExtTreeSet BackendId → BackendId → Validated (ExtTreeSet BackendId)}
    {known : BackendId → Prop}
    (step : ∀ references backendId after, body references backendId = .ok after ↔
      (known backendId ∧ backendId ∉ references) ∧ after = references.insert backendId) :
    (∃ after, backendIds.foldlM body ∅ = Except.ok after) ↔
      backendIds.Nodup ∧ ∀ backendId ∈ backendIds, known backendId := by
  have distinct_iff : backendIds.Nodup ↔
      backendIds.Pairwise fun earlier later => ¬earlier = later := Iff.rfl
  rw [and_comm, distinct_iff, ← forall_split_iff]
  simp only [foldlM_eq_ok_iff step, exists_and_left, exists_eq, and_true,
    mem_foldl_insert (fun backendId : BackendId => backendId), ExtTreeSet.not_mem_empty,
    false_or, not_exists, not_and]

theorem validateFrontendBackend_eq_ok {backends : ExtTreeMap BackendId ServiceBackend}
    (references : ExtTreeSet BackendId) (backendId : BackendId) (after : ExtTreeSet BackendId) :
    validateFrontendBackend service backends frontend references backendId = .ok after ↔
      ((∃ backend : ServiceBackend, backends[backendId]? = some backend ∧
          backend.address.family = frontend.address.family ∧
          backend.protocol = frontend.protocol) ∧ backendId ∉ references) ∧
        after = references.insert backendId := by
  simp only [validateFrontendBackend, eq_ok_iffs, contains_eq_false_iff, eq_false_iffs,
    IpAddr.isIpv4_eq_iff]
  constructor
  · rintro ⟨unseen, backend, found, family, protocol, rfl⟩
    exact ⟨⟨⟨backend, found, family.symm, protocol.symm⟩, unseen⟩, rfl⟩
  · rintro ⟨⟨⟨backend, found, family, protocol⟩, unseen⟩, rfl⟩
    exact ⟨unseen, backend, found, family.symm, protocol.symm, rfl⟩

theorem validateNodePortBackend_eq_ok {backends : ExtTreeMap BackendId ServiceBackend}
    (references : ExtTreeSet BackendId) (backendId : BackendId) (after : ExtTreeSet BackendId) :
    validateNodePortBackend service backends nodePort references backendId = .ok after ↔
      ((∃ backend : ServiceBackend, backends[backendId]? = some backend ∧
          backend.address.family = nodePort.family ∧
          backend.protocol = nodePort.protocol) ∧ backendId ∉ references) ∧
        after = references.insert backendId := by
  simp only [validateNodePortBackend, eq_ok_iffs, contains_eq_false_iff, eq_false_iffs]
  constructor
  · rintro ⟨unseen, backend, found, ⟨family, protocol⟩, rfl⟩
    exact ⟨⟨⟨backend, found, family, protocol.symm⟩, unseen⟩, rfl⟩
  · rintro ⟨⟨⟨backend, found, family, protocol⟩, unseen⟩, rfl⟩
    exact ⟨unseen, backend, found, ⟨family, protocol.symm⟩, rfl⟩

/-- The loop over sorted references to normalized backends checks the references. -/
theorem validReferences_backendTable_iff (distinct : (backends.map ServiceBackend.id).Nodup)
    {family : AddressFamily} :
    ((sort backendIds).Nodup ∧ ∀ backendId ∈ sort backendIds, ∃ backend : ServiceBackend,
        (backendTable (backends.map ServiceBackend.normalized))[backendId]? = some backend ∧
          backend.address.family = family ∧ backend.protocol = protocol) ↔
      ValidReferences backends family protocol backendIds := by
  have normalizedDistinct :
      ((backends.map ServiceBackend.normalized).map ServiceBackend.id).Nodup := by
    rw [map_map]
    exact distinct
  simp [getElem?_backendTable normalizedDistinct, validReferences_iff, and_assoc,
    ServiceBackend.normalized]

section Service

variable {service : ServiceIr} (distinct : (service.backends.map ServiceBackend.id).Nodup)

include distinct

theorem validateFrontendBackends_eq_ok :
    validateFrontendBackends service.referencesSorted = .ok result ↔
      ∀ frontend ∈ service.frontends, ValidReferences service.backends
        frontend.address.family frontend.protocol frontend.backendIds := by
  simp only [validateFrontendBackends, forM_eq_ok_iff, bind_eq_ok, pure, Except.pure, and_true,
    exists_foldlM_references_iff validateFrontendBackend_eq_ok, referencesSorted, forall_mem_map]
  exact forall₂_congr fun frontend _ => validReferences_backendTable_iff distinct

theorem validateNodePortBackends_eq_ok :
    validateNodePortBackends service.referencesSorted = .ok result ↔
      ∀ nodePort ∈ service.nodePorts, service.frontends.any nodePort.links = true ∧
        ValidReferences service.backends nodePort.family nodePort.protocol nodePort.backendIds := by
  simp only [validateNodePortBackends, forM_eq_ok_iff, eq_ok_iffs, and_true,
    exists_foldlM_references_iff validateNodePortBackend_eq_ok, referencesSorted, mem_sort,
    forall_mem_map, eq_false_iffs, any_map]
  refine forall₂_congr fun nodePort _ => and_congr Iff.rfl ?_
  exact validReferences_backendTable_iff distinct

end Service

/-! ## LoadBalancers -/

theorem validateIpFamilyPolicy_eq_ok {policy : ServiceIpFamilyPolicy} :
    validateIpFamilyPolicy service policy families = .ok result ↔
      (policy = .singleStack → families.length = 1) ∧
        (policy = .requireDualStack → families.length = 2) := by
  cases policy <;> simp [validateIpFamilyPolicy]

theorem validateLoadBalancerOwnership_eq_ok {result : ServiceLoadBalancer} :
    validateLoadBalancerOwnership service loadBalancer = .ok result ↔
      (loadBalancer.class_ = unfLoadBalancerClass ∧ loadBalancer.ipFamilies ≠ [] ∧
        loadBalancer.ipFamilies.length ≤ 2 ∧ loadBalancer.ipFamilies.Nodup ∧
        (loadBalancer.ipFamilyPolicy = .singleStack → loadBalancer.ipFamilies.length = 1) ∧
        (loadBalancer.ipFamilyPolicy = .requireDualStack → loadBalancer.ipFamilies.length = 2)) ∧
      result = { loadBalancer with ipFamilies := sort loadBalancer.ipFamilies } := by
  simp only [validateLoadBalancerOwnership, eq_ok_iffs, validateIpFamilyPolicy_eq_ok,
    eq_false_iffs, hasAdjacentRepeat_sort_eq_false_iff, length_sort, and_assoc,
    eq_comm (a := result)]

/-- The state of the loop over the requested addresses. -/
def claimRequestedIp (service : ServiceId)
    (state : ExtTreeSet AddressFamily × ExtTreeMap IpAddr ServiceId) (address : IpAddr) :
    ExtTreeSet AddressFamily × ExtTreeMap IpAddr ServiceId :=
  (state.1.insert address.family, state.2.insert address service)

theorem foldl_claimRequestedIp (service : ServiceId) (addresses : List IpAddr)
    (state : ExtTreeSet AddressFamily × ExtTreeMap IpAddr ServiceId) :
    addresses.foldl (claimRequestedIp service) state =
      (addresses.foldl (fun seen address => seen.insert address.family) state.1,
        addresses.foldl (fun owners address => owners.insert address service) state.2) :=
  foldl_hom₂ addresses Prod.mk _ _ _ state.1 state.2 fun _ _ _ => rfl

theorem foldlM_admitRequestedIp_eq_ok {addresses : List IpAddr}
    {result : ExtTreeSet AddressFamily × ExtTreeMap IpAddr ServiceId} :
    addresses.foldlM (admitRequestedIp service families clusterIpAddresses) (∅, owners) =
        .ok result ↔ (∀ address ∈ addresses, (address.family ∈ families ∧
          usableNodePortAddress address = true ∧ address ∉ clusterIpAddresses) ∧
        ∀ existing, owners[address]? = some existing → existing = service) ∧
      (addresses.map IpAddr.family).Nodup ∧
      result = addresses.foldl (claimRequestedIp service) (∅, owners) := by
  have step : ∀ state address after,
      admitRequestedIp service families clusterIpAddresses state address = .ok after ↔
      ((address.family ∈ families ∧ usableNodePortAddress address = true ∧
          address ∉ clusterIpAddresses) ∧ address.family ∉ state.1 ∧
        ∀ existing, state.2[address]? = some existing → existing = service) ∧
      after = claimRequestedIp service state address := by
    intro state address after
    simp only [admitRequestedIp, eq_ok_iffs, contains_eq_false_iff, rejectForeignOwner_eq_ok,
      eq_false_iffs, contains_iff_mem]
    constructor
    · rintro ⟨admitted, unseen, usable, outside, unowned, rfl⟩
      exact ⟨⟨⟨admitted, usable, outside⟩, unseen, unowned⟩, rfl⟩
    · rintro ⟨⟨⟨admitted, usable, outside⟩, unseen, unowned⟩, rfl⟩
      exact ⟨admitted, unseen, usable, outside, unowned, rfl⟩
  simp only [foldlM_eq_ok_iff step, foldl_claimRequestedIp, mem_foldl_insert,
    ExtTreeSet.not_mem_empty, false_or, not_exists, not_and]
  rw [← and_assoc]
  apply and_congr_left
  intro _
  exact forall_split_claims_iff

theorem validateLoadBalancerRequestedIps_eq_ok
    {result : ServiceLoadBalancer × ExtTreeMap IpAddr ServiceId} :
    validateLoadBalancerRequestedIps service loadBalancer clusterIpAddresses owners = .ok result ↔
      (loadBalancer.requestedIps.length ≤ loadBalancer.ipFamilies.length ∧
        loadBalancer.requestedIps.Nodup ∧
        (∀ address ∈ loadBalancer.requestedIps, (address.family ∈ loadBalancer.ipFamilies ∧
            usableNodePortAddress address = true ∧ address ∉ clusterIpAddresses) ∧
          ∀ existing, owners[address]? = some existing → existing = service) ∧
        (loadBalancer.requestedIps.map IpAddr.family).Nodup) ∧
      result = ({ loadBalancer with requestedIps := sort loadBalancer.requestedIps },
        (sort loadBalancer.requestedIps).foldl (fun owners address =>
          owners.insert address service) owners) := by
  have families_iff : ((sort loadBalancer.requestedIps).map IpAddr.family).Nodup ↔
      (loadBalancer.requestedIps.map IpAddr.family).Nodup :=
    ((sort_perm loadBalancer.requestedIps).map _).nodup_iff
  simp only [validateLoadBalancerRequestedIps, eq_ok_iffs, eq_false_iffs,
    hasAdjacentRepeat_sort_eq_false_iff, foldlM_admitRequestedIp_eq_ok, foldl_claimRequestedIp,
    mem_sort, families_iff]
  constructor
  · rintro ⟨bounded, distinct, _, ⟨requested, families, rfl⟩, rfl⟩
    exact ⟨⟨bounded, distinct, requested, families⟩, rfl⟩
  · rintro ⟨⟨bounded, distinct, requested, families⟩, rfl⟩
    exact ⟨bounded, distinct, _, ⟨requested, families, rfl⟩, rfl⟩

theorem validateSourceRange_eq_ok {range : ServiceIpPrefix} :
    validateSourceRange service families range = .ok result ↔
      range.isCanonical = true ∧ range.address.family ∈ families ∧
        range.address.isMulticast = false := by
  simp only [validateSourceRange, failIf_bind_eq_ok, failIf_eq_ok, eq_false_iffs, contains_iff_mem]

theorem validateLoadBalancerSourceControls_eq_ok {result : ServiceLoadBalancer} :
    validateLoadBalancerSourceControls service loadBalancer = .ok result ↔
      (loadBalancer.sourceRanges.length ≤ maxLoadBalancerSourceRangesPerService ∧
        loadBalancer.sourceRanges.Nodup ∧
        (∀ range ∈ loadBalancer.sourceRanges, range.isCanonical = true ∧
          range.address.family ∈ loadBalancer.ipFamilies ∧ range.address.isMulticast = false) ∧
        loadBalancer.healthCheckNodePort ≠ some 0 ∧
        (loadBalancer.healthCheckNodePort.isSome = true → loadBalancer.trafficPolicy = .local)) ∧
      result = { loadBalancer with sourceRanges := sort loadBalancer.sourceRanges } := by
  simp only [validateLoadBalancerSourceControls, eq_ok_iffs, forM_eq_ok_iff,
    validateSourceRange_eq_ok, eq_false_iffs, hasAdjacentRepeat_sort_eq_false_iff, mem_sort,
    Bool.and_eq_false_imp, and_assoc, eq_comm (a := result)]

theorem find?_map_normalized (frontends : List ServiceFrontend)
    (frontend : ServiceLoadBalancerFrontend) :
    (frontends.map ServiceFrontend.normalized).find? frontend.links =
      (frontends.find? frontend.links).map ServiceFrontend.normalized := by
  rw [find?_map]
  rfl

theorem validateLoadBalancerFrontend_eq_ok (actual : ExtTreeSet LoadBalancerFrontendIdentity)
    (frontend : ServiceLoadBalancerFrontend) (after : ExtTreeSet LoadBalancerFrontendIdentity) :
    validateLoadBalancerFrontend service (frontends.map ServiceFrontend.normalized) families
        actual frontend = .ok after ↔
      ((frontend.Valid families ∧ ∃ linked, frontends.find? frontend.links = some linked ∧
          sort frontend.backendIds = sort linked.backendIds) ∧
        frontend.identity ∉ actual) ∧ after = actual.insert frontend.identity := by
  simp only [validateLoadBalancerFrontend, eq_ok_iffs, contains_eq_false_iff, find?_map_normalized,
    Option.map_eq_some_iff, eq_false_iffs, Bool.or_eq_true, beq_iff_eq, contains_iff_mem]
  constructor
  · rintro ⟨port, protocol, family, ⟨name, appProtocol⟩, unseen, _, ⟨linked, found, rfl⟩, same, rfl⟩
    exact ⟨⟨⟨⟨port, protocol, family, name, appProtocol⟩, linked, found, same⟩, unseen⟩, rfl⟩
  · rintro ⟨⟨⟨valid, linked, found, same⟩, unseen⟩, rfl⟩
    exact ⟨valid.servicePort, valid.protocol, valid.family, ⟨valid.name, valid.appProtocol⟩,
      unseen, _, ⟨linked, found, rfl⟩, same, rfl⟩

theorem mem_expectedFrontends {identity : LoadBalancerFrontendIdentity} :
    identity ∈ expectedFrontends (frontends.map ServiceFrontend.normalized) families ↔
      ∃ frontend ∈ frontends, frontend.address.family ∈ families ∧
        frontend.identity = identity := by
  simp [expectedFrontends, ServiceFrontend.normalized, ServiceFrontend.identity, and_assoc]

theorem validateLoadBalancerFrontends_eq_ok {result : ServiceLoadBalancer} :
    validateLoadBalancerFrontends service (frontends.map ServiceFrontend.normalized)
        loadBalancer = .ok result ↔
      ((∀ frontend ∈ loadBalancer.frontends, frontend.Valid loadBalancer.ipFamilies ∧
          ∃ linked, frontends.find? frontend.links = some linked ∧
            sort frontend.backendIds = sort linked.backendIds) ∧
        (loadBalancer.frontends.map ServiceLoadBalancerFrontend.identity).Nodup ∧ ∀ identity,
          identity ∈ loadBalancer.frontends.map ServiceLoadBalancerFrontend.identity ↔
            ∃ frontend ∈ frontends, frontend.address.family ∈ loadBalancer.ipFamilies ∧
              frontend.identity = identity) ∧
      result = { loadBalancer with
        frontends := sort
          (loadBalancer.frontends.map ServiceLoadBalancerFrontend.normalized) } := by
  simp only [validateLoadBalancerFrontends, eq_ok_iffs,
    foldlM_eq_ok_iff validateLoadBalancerFrontend_eq_ok, mem_foldl_insert, ExtTreeSet.not_mem_empty,
    false_or, not_exists, not_and, forall_split_iff, eq_false_iffs, not_not, List.Nodup,
    pairwise_map, ne_eq, eq_comm (a := result)]
  constructor
  · rintro ⟨actual, ⟨⟨valid, distinct⟩, rfl⟩, covered, rfl⟩
    refine ⟨⟨valid, distinct, fun identity => ?_⟩, rfl⟩
    rw [← mem_expectedFrontends, ← covered]
    simp [mem_foldl_insert]
  · rintro ⟨⟨valid, distinct, covered⟩, rfl⟩
    refine ⟨_, ⟨⟨valid, distinct⟩, rfl⟩, ?_, rfl⟩
    apply ExtTreeSet.ext_mem
    intro identity
    rw [mem_expectedFrontends, ← covered]
    simp [mem_foldl_insert]

theorem ServiceLoadBalancerFrontend.valid_sort_iff {frontend : ServiceLoadBalancerFrontend} :
    frontend.Valid (sort families) ↔ frontend.Valid families := by
  simp only [ServiceLoadBalancerFrontend.valid_iff, mem_sort]

theorem validateAndNormalizeLoadBalancer_eq_ok
    {result : ServiceLoadBalancer × ExtTreeMap IpAddr ServiceId} :
    validateAndNormalizeLoadBalancer service (frontends.map ServiceFrontend.normalized)
        loadBalancer clusterIpAddresses owners = .ok result ↔
      (loadBalancer.Valid clusterIpAddresses frontends ∧
        ∀ address ∈ loadBalancer.requestedIps, ∀ existing,
          owners[address]? = some existing → existing = service) ∧
      result = (loadBalancer.normalized, (sort loadBalancer.requestedIps).foldl
        (fun owners address => owners.insert address service) owners) := by
  simp only [validateAndNormalizeLoadBalancer, eq_ok_iffs, Prod.exists,
    validateLoadBalancerOwnership_eq_ok, validateLoadBalancerRequestedIps_eq_ok,
    validateLoadBalancerSourceControls_eq_ok, validateLoadBalancerFrontends_eq_ok,
    eq_comm (a := result)]
  constructor
  · rintro ⟨_, ⟨⟨owned, present, bounded, distinct, single, dual⟩, rfl⟩, _, _,
      ⟨⟨requestedBounded, requestedDistinct, requested, requestedFamilies⟩, same⟩, _,
      ⟨⟨rangesBounded, rangesDistinct, ranges, nonzero, «local»⟩, rfl⟩, _,
      ⟨⟨linked, identities, covered⟩, rfl⟩, rfl⟩
    obtain ⟨rfl, rfl⟩ := Prod.mk.inj same
    simp only [length_sort, mem_sort, ServiceLoadBalancerFrontend.valid_sort_iff]
      at requestedBounded requested ranges linked covered
    refine ⟨⟨?_, fun address member => (requested address member).2⟩, rfl⟩
    exact ⟨owned, present, bounded, distinct, single, dual, requestedBounded,
      requestedDistinct, requestedFamilies, fun address member => (requested address member).1,
      rangesBounded, rangesDistinct, ranges, nonzero, «local»,
      fun frontend member => (linked frontend member).1, identities,
      fun frontend member => (linked frontend member).2, covered⟩
  · rintro ⟨⟨valid, unowned⟩, rfl⟩
    refine ⟨_, ⟨⟨valid.owned, valid.familiesPresent, valid.familiesBounded,
      valid.familiesDistinct, valid.singleStack, valid.dualStack⟩, rfl⟩, _, _,
      ⟨⟨?_, valid.requestedDistinct, ?_, valid.requestedFamilies⟩, rfl⟩, _,
      ⟨⟨valid.rangesBounded, valid.rangesDistinct, ?_, valid.healthCheckNonzero,
        valid.healthCheckLocal⟩, rfl⟩, _, ⟨⟨?_, valid.identities, ?_⟩, rfl⟩, rfl⟩
    all_goals simp only [length_sort, mem_sort, ServiceLoadBalancerFrontend.valid_sort_iff]
    · exact valid.requestedBounded
    · exact fun address member => ⟨valid.requested address member, unowned address member⟩
    · exact valid.ranges
    · exact fun frontend member =>
        ⟨valid.frontends frontend member, valid.linked frontend member⟩
    · exact valid.covered

theorem validateDsrBackend_eq_ok {service : ServiceIr} {frontend : ServiceLoadBalancerFrontend}
    (distinct : (service.backends.map ServiceBackend.id).Nodup) :
    validateDsrBackend service frontend backendId = .ok result ↔
      ∃ backend ∈ service.backends, backend.id = backendId ∧
        backend.port = frontend.servicePort ∧ backend.protocol = frontend.protocol := by
  simp only [validateDsrBackend, eq_ok_iffs, find?_key_eq_some_iff distinct, eq_false_iffs,
    and_assoc]

/-- The service with its lists in the order in which direct server return is checked. -/
def ServiceIr.checked (service : ServiceIr) : ServiceIr :=
  { service.referencesSorted with
    loadBalancer := service.loadBalancer.map ServiceLoadBalancer.normalized }

theorem ServiceIr.exists_mem_checked_backends {service : ServiceIr} {port : UInt16} :
    (∃ backend ∈ service.checked.backends, backend.id = backendId ∧ backend.port = port ∧
        backend.protocol = protocol) ↔
      ∃ backend ∈ service.backends, backend.id = backendId ∧ backend.port = port ∧
        backend.protocol = protocol := by
  simp [checked, referencesSorted, ServiceBackend.normalized]

theorem validateDsrContract_eq_ok {service : ServiceIr}
    (distinct : (service.backends.map ServiceBackend.id).Nodup) :
    validateDsrContract service.checked = .ok result ↔ service.DsrValid := by
  have checkedDistinct : (service.checked.backends.map ServiceBackend.id).Nodup := by
    simpa [checked, referencesSorted, map_map, Function.comp_def,
      ServiceBackend.normalized] using distinct
  rw [validateDsrContract, ServiceIr.DsrValid]
  by_cases direct : service.forwardingMode = .dsr
  · rw [if_neg (by simpa [checked, referencesSorted] using direct)]
    cases balanced : service.loadBalancer with
    | none => simp [checked, balanced, direct]
    | some loadBalancer =>
      have stored : service.checked.loadBalancer = some loadBalancer.normalized := by
        simp [checked, balanced]
      simp only [stored, forM_eq_ok_iff, validateDsrBackend_eq_ok checkedDistinct,
        exists_mem_checked_backends, ServiceLoadBalancer.normalized, mem_sort,
        forall_mem_map, ServiceLoadBalancerFrontend.normalized, direct,
        Option.some.injEq, exists_eq_left', forall_const]
  · rw [if_pos (by simpa [checked, referencesSorted] using direct)]
    simp [direct]

end Unf.Service
