import Unf.Service.CompileOrder

/-!
# Compilation loses no endpoint

The backends that a frontend refers to are exactly the endpoints behind its port, each
of them once, under an identifier that no other backend of the snapshot has.
-/

namespace Unf.Service

open Std (ExtTreeMap ExtTreeSet)
open Unf.Lib List ServiceFrontend ServiceSource

/-- An endpoint of the slices of a service that serves a frontend: the address has the
family of the frontend, the port has its name and protocol. -/
def ServiceSource.Serves (service : ServiceSource) (slices : List EndpointSliceSource)
    (frontend : ServiceFrontend) (endpoint : FrontendKey) : Prop :=
  ∃ slice ∈ slices, slice.«namespace» = service.«namespace» ∧
    slice.serviceName = service.name ∧ ∃ source ∈ slice.endpoints,
      ∃ endpointPort ∈ source.ports, endpointPort.name = frontend.name ∧
        endpointPort.protocol = frontend.protocol ∧ ∃ port, endpointPort.port = some port ∧
          ∃ address ∈ source.addresses, address.family = frontend.address.family ∧
            endpoint = toLex (address, toLex (port, endpointPort.protocol))

/-! ## Candidates -/

section Candidates

variable {service : ServiceSource} {slices : List EndpointSliceSource}
  {servicePort : ServiceSourcePort} {backend : ServiceBackend} {family : AddressFamily}

theorem mem_candidates : backend ∈ candidates service slices family servicePort ↔
      ∃ slice ∈ slices, ∃ source ∈ slice.endpoints, ∃ endpointPort ∈ source.ports,
        (endpointPort.name = servicePort.name ∧ endpointPort.protocol = servicePort.protocol) ∧
        ∃ port, endpointPort.port = some port ∧ ∃ address ∈ source.addresses,
          address.family = family ∧
            backend = candidate service slice source endpointPort port address := by
  have ofPort (slice : EndpointSliceSource) (source : EndpointSource)
      (endpointPort : EndpointPortSource) :
      backend ∈ portCandidates service family slice source endpointPort ↔
        ∃ port, endpointPort.port = some port ∧ ∃ address ∈ source.addresses,
          address.family = family ∧
            backend = candidate service slice source endpointPort port address := by
    rw [portCandidates]
    cases endpointPort.port <;> simp [and_assoc, eq_comm (a := backend)]
  simp only [candidates, endpointCandidates, mem_flatMap, mem_filter, ofPort,
    ServiceSourcePort.matches, Bool.and_eq_true, beq_iff_eq, and_assoc]

/-- The identifier that belongs to an endpoint of the service. -/
def endpointId (service : ServiceSource) (backend : ServiceBackend) : BackendId :=
  ⟨provisionalId (backendKey service.key backend.address backend.port backend.protocol)⟩

theorem id_of_mem_candidates (member : backend ∈ candidates service slices family servicePort) :
    backend.id = endpointId service backend := by
  obtain ⟨_, -, _, -, _, -, -, _, -, _, -, -, rfl⟩ := mem_candidates.mp member
  rfl

theorem endpointId_congr {left right : ServiceBackend} (same : left.endpoint = right.endpoint) :
    endpointId service left = endpointId service right := by
  have endpoint : left.address = right.address ∧ left.port = right.port ∧
      left.protocol = right.protocol := by
    simpa [ServiceBackend.endpoint] using same
  rw [endpointId, endpointId, endpoint.1, endpoint.2.1, endpoint.2.2]

theorem exists_mem_candidates_iff {frontend : ServiceFrontend}
    (name : frontend.name = servicePort.name) (protocol : frontend.protocol = servicePort.protocol)
    {endpoint : FrontendKey} :
    (∃ backend ∈ candidates service (service.matchingSlices slices) frontend.address.family
        servicePort, backend.endpoint = endpoint) ↔ service.Serves slices frontend endpoint := by
  simp only [mem_candidates, ServiceSource.Serves, matchingSlices,
    mem_filter, Bool.and_eq_true, beq_iff_eq, name, protocol]
  constructor
  · rintro ⟨_, ⟨slice, ⟨sliceMember, sameNamespace, sameName⟩, source, sourceMember,
      endpointPort, portMember, ⟨portName, portProtocol⟩, port, resolved, address,
      addressMember, family, rfl⟩, rfl⟩
    exact ⟨slice, sliceMember, sameNamespace, sameName, source, sourceMember, endpointPort,
      portMember, portName, portProtocol, port, resolved, address, addressMember, family, rfl⟩
  · rintro ⟨slice, sliceMember, sameNamespace, sameName, source, sourceMember, endpointPort,
      portMember, portName, portProtocol, port, resolved, address, addressMember, family, rfl⟩
    exact ⟨_, ⟨slice, ⟨sliceMember, sameNamespace, sameName⟩, source, sourceMember,
      endpointPort, portMember, ⟨portName, portProtocol⟩, port, resolved, address,
      addressMember, family, rfl⟩, rfl⟩

theorem mem_serviceCandidates : backend ∈ serviceCandidates service slices ↔
      ∃ pair ∈ service.pairs, backend ∈ candidates service slices pair.1.family pair.2 := by
  rw [serviceCandidates, mem_flatMap]

/-! ## Absorbed candidates -/

/-- Every endpoint that was seen is stored, under its own identifier, and nothing else. -/
theorem foldl_absorb_invariant (found : List ServiceBackend)
    (identified : ∀ backend ∈ found, backend.id = endpointId service backend) :
    (∀ endpoint, endpoint ∈ found.foldl absorb ∅ ↔ ∃ backend ∈ found, backend.endpoint = endpoint) ∧
    ∀ (endpoint : FrontendKey) (backend : ServiceBackend),
      (found.foldl absorb ∅)[endpoint]? = some backend →
        backend.endpoint = endpoint ∧ backend.id = endpointId service backend := by
  induction found using List.reverseRecOn with
  | nil => simp
  | append_singleton found last ih =>
    obtain ⟨stored, kept⟩ := ih fun backend member =>
      identified backend (mem_append_left _ member)
    rw [foldl_append, foldl_cons, foldl_nil]
    constructor
    · intro endpoint
      rw [absorb, mem_map_insert, stored]
      simp [or_comm (a := last.endpoint = endpoint)]
    · intro endpoint backend lookup
      rw [absorb, getElem?_map_insert] at lookup
      split at lookup
      next here =>
        obtain rfl := Option.some.inj lookup
        cases existing : (found.foldl absorb ∅)[last.endpoint]? with
        | none => exact ⟨here, identified last (by simp)⟩
        | some earlier =>
          obtain ⟨sameEndpoint, sameId⟩ := kept last.endpoint earlier existing
          exact ⟨sameEndpoint.trans here, sameId⟩
      next => exact kept endpoint backend lookup

theorem mem_compiledService_backends : backend ∈ (compiledService slices service).backends ↔
      ∃ endpoint : FrontendKey,
        ((serviceCandidates service slices).foldl absorb ∅)[endpoint]? = some backend := by
  simp [compiledService]

theorem id_of_mem_serviceCandidates (backend : ServiceBackend)
    (member : backend ∈ serviceCandidates service slices) :
    backend.id = endpointId service backend := by
  obtain ⟨_, -, listed⟩ := mem_serviceCandidates.mp member
  exact id_of_mem_candidates listed

/-- A compiled backend stands for a candidate with the same endpoint. -/
theorem exists_candidate_of_mem_backends
    (member : backend ∈ (compiledService slices service).backends) :
    backend.id = endpointId service backend ∧
      ∃ seen ∈ serviceCandidates service slices, seen.endpoint = backend.endpoint := by
  obtain ⟨stored, kept⟩ := foldl_absorb_invariant (serviceCandidates service slices)
    fun backend member => id_of_mem_serviceCandidates backend member
  obtain ⟨endpoint, lookup⟩ := mem_compiledService_backends.mp member
  obtain ⟨rfl, sameId⟩ := kept endpoint backend lookup
  refine ⟨sameId, (stored _).mp ?_⟩
  rw [← ExtTreeMap.isSome_getElem?_iff_mem, lookup]
  rfl

theorem exists_backend_of_mem_candidates {seen : ServiceBackend}
    (member : seen ∈ serviceCandidates service slices) :
    ∃ backend ∈ (compiledService slices service).backends,
      backend.endpoint = seen.endpoint ∧ backend.id = seen.id := by
  obtain ⟨stored, kept⟩ := foldl_absorb_invariant (serviceCandidates service slices)
    fun backend member => id_of_mem_serviceCandidates backend member
  have present := (stored seen.endpoint).mpr ⟨seen, member, rfl⟩
  obtain ⟨backend, lookup⟩ := Option.isSome_iff_exists.mp
    (ExtTreeMap.isSome_getElem?_iff_mem.mpr present)
  obtain ⟨sameEndpoint, sameId⟩ := kept _ backend lookup
  refine ⟨backend, mem_compiledService_backends.mpr ⟨_, lookup⟩, sameEndpoint, ?_⟩
  rw [sameId, id_of_mem_serviceCandidates seen member, endpointId_congr sameEndpoint]

theorem mem_candidateIds {found : List ServiceBackend} {backendId : BackendId} :
    backendId ∈ candidateIds found ↔ ∃ backend ∈ found, backend.id = backendId := by
  rw [candidateIds, ExtTreeSet.mem_toList, mem_foldl_insert]
  simp

end Candidates

/-! ## Identifiers -/

variable {service : ServiceSource} {slices : List EndpointSliceSource}

/-- Backends of different services never share a key. -/
theorem provenance_of_backendKey_eq {service' : ServiceSource} {backend backend' : ServiceBackend}
    (same : (registryEntry service backend).2 = (registryEntry service' backend').2) :
    service.provenance = service'.provenance := by
  have components := framedKey_inj same
  have owner := framedKey_inj (List.cons.inj components).1
  obtain ⟨sameNamespace, sameName⟩ : service.«namespace» = service'.«namespace» ∧
      service.name = service'.name := by
    simpa using owner
  rw [provenance, provenance, sameNamespace, sameName]

/-- Where the registry accepts all candidates, no two services share an identifier. -/
theorem SourcesValid.disjoint_ids {services : List ServiceSource}
    (sources : SourcesValid services slices) :
    (activeServices services).Pairwise fun service service' => List.Disjoint
      ((compiledService (service.matchingSlices slices) service).backends.map ServiceBackend.id)
      ((compiledService (service'.matchingSlices slices) service').backends.map
        ServiceBackend.id) := by
  have distinct : (activeServices services).Pairwise fun service service' =>
      service.provenance ≠ service'.provenance :=
    (pairwise_map.mp sources.distinctServices).filter _
  have admitted : ∀ left ∈ backendEntries slices (activeServices services),
      ∀ right ∈ backendEntries slices (activeServices services),
        left.1 = right.1 → left.2 = right.2 := by
    intro left leftMember right rightMember
    have symmetric : Std.Symm fun left right : UInt32 × String =>
        left.1 = right.1 → left.2 = right.2 :=
      ⟨fun _ _ agree same => (agree same.symm).symm⟩
    exact sources.backendIds.forall_of_forall (fun _ _ _ => rfl) leftMember rightMember
  have entered {service : ServiceSource} (member : service ∈ activeServices services)
      {backend : ServiceBackend}
      (listed : backend ∈ (compiledService (service.matchingSlices slices) service).backends) :
      ∃ seen, (registryEntry service seen) ∈ backendEntries slices (activeServices services) ∧
        seen.id = backend.id := by
    obtain ⟨identified, seen, seenMember, sameEndpoint⟩ := exists_candidate_of_mem_backends listed
    refine ⟨seen, mem_flatMap.mpr ⟨service, member, mem_map_of_mem seenMember⟩, ?_⟩
    rw [identified, id_of_mem_serviceCandidates seen seenMember, endpointId_congr sameEndpoint]
  refine distinct.imp_of_mem fun {service service'} member member' different => ?_
  intro backendId owned owned'
  obtain ⟨backend, listed, rfl⟩ := mem_map.mp owned
  obtain ⟨backend', listed', sameId⟩ := mem_map.mp owned'
  obtain ⟨seen, seenMember, seenId⟩ := entered member listed
  obtain ⟨seen', seenMember', seenId'⟩ := entered member' listed'
  have sameHash : seen.id = seen'.id := seenId.trans (sameId.symm.trans seenId'.symm)
  exact different (provenance_of_backendKey_eq (admitted _ seenMember _ seenMember'
    (congrArg (·.get) sameHash)))

/-! ## Losslessness -/

/-- What a frontend is known by. -/
def ServiceFrontend.listing (frontend : ServiceFrontend) :
    IpAddr × UInt16 × Protocol × Option String :=
  (frontend.address, frontend.port, frontend.protocol, frontend.name)

/-- A compiled service has a frontend for each address and port of its source, which
refers to the backends for exactly the endpoints that serve it. -/
structure ServiceIr.Lossless (compiled : ServiceIr) (service : ServiceSource)
    (slices : List EndpointSliceSource) : Prop where
  sameNamespace : compiled.«namespace» = service.«namespace»
  sameName : compiled.name = service.name
  frontends : (compiled.frontends.map ServiceFrontend.listing).Perm
    (service.clusterIps.flatMap fun clusterIp => service.ports.map fun port =>
      (clusterIp, port.port, port.protocol, port.name))
  endpoints : (compiled.backends.map ServiceBackend.endpoint).Nodup
  known : ∀ frontend ∈ compiled.frontends, ∀ backendId ∈ frontend.backendIds,
    ∃ backend ∈ compiled.backends, backend.id = backendId
  exact : ∀ frontend ∈ compiled.frontends, ∀ endpoint,
    (∃ backend ∈ compiled.backends,
      backend.id ∈ frontend.backendIds ∧ backend.endpoint = endpoint) ↔
      service.Serves slices frontend endpoint

theorem lossless_compiledService {clusterIpAddresses : ExtTreeSet IpAddr}
    (valid : (compiledService (service.matchingSlices slices) service).Valid clusterIpAddresses) :
    (compiledService (service.matchingSlices slices) service).normalized.Lossless service
      slices where
  sameNamespace := rfl
  sameName := rfl
  frontends := by
    have sorted := (sort_perm ((compiledService (service.matchingSlices slices)
      service).frontends.map normalized)).map listing
    refine sorted.trans (.of_eq ?_)
    simp [compiledService, pairs, map_flatMap, Function.comp_def,
      listing, normalized, compiledFrontend]
  endpoints := by
    have sorted := (sort_perm ((compiledService (service.matchingSlices slices)
      service).backends.map ServiceBackend.normalized)).map ServiceBackend.endpoint
    refine sorted.nodup_iff.mpr ?_
    rw [map_map]
    exact valid.endpoints
  known := by
    intro frontend member backendId referenced
    obtain ⟨original, originalMember, rfl⟩ := mem_map.mp (mem_sort.mp member)
    obtain ⟨backend, backendMember, identified, -⟩ :=
      (valid.frontendBackends original originalMember).known backendId (mem_sort.mp referenced)
    exact ⟨backend.normalized, mem_sort.mpr (mem_map_of_mem backendMember), identified⟩
  exact := by
    intro frontend member endpoint
    obtain ⟨original, originalMember, rfl⟩ := mem_map.mp (mem_sort.mp member)
    obtain ⟨pair, pairMember, rfl⟩ := mem_map.mp originalMember
    rw [← exists_mem_candidates_iff rfl rfl]
    constructor
    · rintro ⟨_, backendMember, referenced, rfl⟩
      obtain ⟨backend, listed, rfl⟩ := mem_map.mp (mem_sort.mp backendMember)
      obtain ⟨seen, seenMember, sameId⟩ := mem_candidateIds.mp (mem_sort.mp referenced)
      obtain ⟨stored, storedMember, sameEndpoint, storedId⟩ := exists_backend_of_mem_candidates
        (mem_serviceCandidates.mpr ⟨pair, pairMember, seenMember⟩)
      have same : stored = backend := inj_on_of_nodup_map valid.backendIds storedMember
        listed (storedId.trans sameId)
      exact ⟨seen, seenMember, by rw [← sameEndpoint, same]; rfl⟩
    · rintro ⟨seen, seenMember, rfl⟩
      obtain ⟨stored, storedMember, sameEndpoint, storedId⟩ := exists_backend_of_mem_candidates
        (mem_serviceCandidates.mpr ⟨pair, pairMember, seenMember⟩)
      refine ⟨stored.normalized, mem_sort.mpr (mem_map_of_mem storedMember), ?_, sameEndpoint⟩
      exact mem_sort.mpr (mem_candidateIds.mpr ⟨seen, seenMember, storedId.symm⟩)

section Sources

variable {sourceEpoch : UInt64} {revision : Revision} {services : List ServiceSource}
  {slices : List EndpointSliceSource}

/-- No two backends of a compiled snapshot have one identifier. -/
theorem nodup_backendIds (sources : SourcesValid services slices)
    (valid : (compiledSnapshot sourceEpoch revision services slices).Valid) :
    ((compiledSnapshot sourceEpoch revision services slices).normalized.services.flatMap
      fun service => service.backends.map ServiceBackend.id).Nodup := by
  have perm := (compiledSnapshot sourceEpoch revision services slices).services_normalized_perm
  rw [(perm.flatMap_right _).nodup_iff, flatMap_map]
  have sameIds (service : ServiceIr) : (service.normalized.backends.map ServiceBackend.id).Perm
        (service.backends.map ServiceBackend.id) := by
    refine ((sort_perm _).map _).trans (.of_eq ?_)
    rw [map_map]
    rfl
  rw [nodup_flatMap]
  constructor
  · intro service member
    exact (sameIds service).nodup_iff.mpr (valid.services service member).backendIds
  · rw [compiledSnapshot, pairwise_map]
    refine sources.disjoint_ids.imp fun {service service'} disjoint => ?_
    refine disjoint_left.mpr fun backendId owned owned' => ?_
    exact disjoint ((sameIds _).mem_iff.mp owned) ((sameIds _).mem_iff.mp owned')

theorem ServiceIr.Lossless.of_perm {service : ServiceSource} {compiled : ServiceIr}
    {slices' : List EndpointSliceSource} (lossless : compiled.Lossless service slices)
    (same : slices.Perm slices') : compiled.Lossless service slices' where
  sameNamespace := lossless.sameNamespace
  sameName := lossless.sameName
  frontends := lossless.frontends
  endpoints := lossless.endpoints
  known := lossless.known
  exact := by
    intro frontend member endpoint
    rw [lossless.exact frontend member endpoint, ServiceSource.Serves, ServiceSource.Serves]
    simp only [same.mem_iff]

/-- A compiled snapshot does not depend on the order of its sources. It has a service for
each one that is not headless, with the endpoints behind each of its frontends and no
others, and an identifier for each of them that no other backend has. -/
theorem compileServiceSnapshot_lossless {result : ServiceSnapshot}
    (compiled : compileServiceSnapshot sourceEpoch revision services slices = .ok result) :
    (∀ services' slices', UpToOrder ServiceSource.Reordered services services' →
      UpToOrder EndpointSliceSource.Reordered slices slices' →
        compileServiceSnapshot sourceEpoch revision services' slices' = .ok result) ∧
    (∀ service ∈ services, service.clusterIps ≠ [] →
      ∃ compiled ∈ result.services, compiled.Lossless service slices) ∧
    (result.services.flatMap fun service => service.backends.map ServiceBackend.id).Nodup := by
  refine ⟨fun services' slices' sameServices sameSlices =>
    compileServiceSnapshot_order_independent sameServices sameSlices compiled, ?_⟩
  obtain ⟨sources, valid, rfl⟩ := compileServiceSnapshot_eq_ok.mp compiled
  refine ⟨fun service member exposed => ?_, nodup_backendIds sources valid⟩
  have active : service ∈ activeServices (sortByKey ServiceSource.provenance services) := by
    refine mem_filter.mpr ⟨(sortByKey_perm _ services).mem_iff.mpr member, ?_⟩
    simpa using exposed
  have listed := mem_map_of_mem (f := fun service => compiledService
    (service.matchingSlices (sortByKey EndpointSliceSource.provenance slices)) service) active
  have lossless := lossless_compiledService (valid.services _ listed)
  exact ⟨_, (ServiceSnapshot.services_normalized_perm _).mem_iff.mpr
    (mem_map_of_mem listed), lossless.of_perm (sortByKey_perm _ slices)⟩

end Sources

/-- A service with one port, and a slice with two endpoints behind it. -/
def webSource : ServiceSource where
  «namespace» := "default"
  name := "web"
  clusterIps := [.v4 0x0A600001]
  externalTrafficPolicy := .cluster
  internalTrafficPolicy := .cluster
  sessionAffinity := .none
  trafficDistribution := .any
  selectionAlgorithm := .stableHash
  forwardingMode := .nat
  loadBalancer := none
  ports := [⟨none, .tcp, 80, none, none⟩]

def webSlice : EndpointSliceSource where
  «namespace» := "default"
  name := "web-1"
  serviceName := "web"
  addressFamily := .ipv4
  endpoints := [
    ⟨[.v4 0x0A000001], none, none, none, true, true, false, [⟨none, .tcp, some 8080, none⟩]⟩,
    ⟨[.v4 0x0A000002], none, none, none, true, true, false, [⟨none, .tcp, some 8080, none⟩]⟩]

theorem compileServiceSnapshot_lossless_web :
    ∃ result, compileServiceSnapshot 1 ⟨1⟩ [webSource] [webSlice] = .ok result ∧
      ∃ compiled ∈ result.services, compiled.Lossless webSource [webSlice] := by
  have accepts : (compileServiceSnapshot 1 ⟨1⟩ [webSource] [webSlice]).isOk = true := by
    decide +kernel
  cases computed : compileServiceSnapshot 1 ⟨1⟩ [webSource] [webSlice] with
  | error error =>
    rw [computed] at accepts
    cases accepts
  | ok result =>
    have lossless := (compileServiceSnapshot_lossless computed).2.1
    exact ⟨result, rfl, lossless webSource (by simp) (by simp [webSource])⟩

end Unf.Service
