import Unf.Service.Canonical
import Unf.Service.Compile

/-!
# What the snapshot compiler produces

The loops of the compiler, read off as lists: the candidates that the endpoints of a
service give, the conditions under which they are admitted, and the service that
comes out.
-/

namespace Unf.Service

open Std (ExtTreeMap ExtTreeSet)
open Unf.Lib List ProvisionalIdRegistry EndpointSliceSource

/-! ## Candidates -/

section Candidates

variable (service : ServiceSource)

/-- The backend that one address of an endpoint stands for. -/
def candidate (slice : EndpointSliceSource) (endpoint : EndpointSource)
    (endpointPort : EndpointPortSource) (port : UInt16) (address : IpAddr) :
    ServiceBackend where
  id := ⟨provisionalId (backendKey service.key address port endpointPort.protocol)⟩
  address := address
  port := port
  protocol := endpointPort.protocol
  portName := endpointPort.name
  appProtocol := endpointPort.appProtocol
  endpointSlices := [slice.reference]
  targetWorkload := endpoint.targetWorkload
  nodeName := endpoint.nodeName
  zone := endpoint.zone
  ready := endpoint.ready
  serving := endpoint.serving
  terminating := endpoint.terminating

/-- The port of an endpoint serves the port of the service. -/
def ServiceSourcePort.matches (servicePort : ServiceSourcePort)
    (endpointPort : EndpointPortSource) : Bool :=
  endpointPort.name == servicePort.name && endpointPort.protocol == servicePort.protocol

def portCandidates (family : AddressFamily) (slice : EndpointSliceSource)
    (endpoint : EndpointSource) (endpointPort : EndpointPortSource) : List ServiceBackend :=
  endpointPort.port.elim [] fun port =>
    (endpoint.addresses.filter fun address => address.family == family).map
      (candidate service slice endpoint endpointPort port)

def endpointCandidates (family : AddressFamily) (servicePort : ServiceSourcePort)
    (slice : EndpointSliceSource) (endpoint : EndpointSource) : List ServiceBackend :=
  (endpoint.ports.filter servicePort.matches).flatMap
    (portCandidates service family slice endpoint)

/-- The candidates for one family and port, in the order in which they are met. -/
def candidates (slices : List EndpointSliceSource) (family : AddressFamily)
    (servicePort : ServiceSourcePort) : List ServiceBackend :=
  slices.flatMap fun slice =>
    slice.endpoints.flatMap (endpointCandidates service family servicePort slice)

end Candidates

/-- Every port that serves the service port is resolved. -/
def Resolved (slices : List EndpointSliceSource) (servicePort : ServiceSourcePort) : Prop :=
  ∀ slice ∈ slices, ∀ endpoint ∈ slice.endpoints,
    ∀ endpointPort ∈ endpoint.ports.filter servicePort.matches, endpointPort.port.isSome = true

/-- The entry of a backend in the registry. -/
def registryEntry (service : ServiceSource) (backend : ServiceBackend) : UInt32 × String :=
  (backend.id.get, backendKey service.key backend.address backend.port backend.protocol)

/-- The registry with entries for backends. -/
def ProvisionalIdRegistry.enter (registry : ProvisionalIdRegistry)
    (entries : List (UInt32 × String)) : ProvisionalIdRegistry :=
  { registry with backendKeys := register registry.backendKeys entries }

/-! ## Admission of candidates -/

/-- The backends after one more sighting. -/
def absorb (backends : ExtTreeMap FrontendKey ServiceBackend) (candidate : ServiceBackend) :
    ExtTreeMap FrontendKey ServiceBackend :=
  backends.insert candidate.endpoint
    (backends[candidate.endpoint]?.elim candidate fun existing => existing.merge candidate)

/-- What has to agree when an endpoint is seen again. -/
def ServiceBackend.provenance (backend : ServiceBackend) :
    BackendId × Option String × Option String × Option String × Bool × Bool × Bool :=
  (backend.id, backend.targetWorkload, backend.nodeName, backend.zone, backend.ready,
    backend.serving, backend.terminating)

theorem ServiceBackend.sameProvenance_iff {left right : ServiceBackend} :
    left.sameProvenance right = true ↔ left.provenance = right.provenance := by
  simp [sameProvenance, provenance, and_assoc]

theorem admitId_eq_ok {registry after : ExtTreeMap UInt32 String} {kind key : String}
    {id : UInt32} : admitId registry kind id key = .ok after ↔
      (∀ existing, registry[id]? = some existing → existing = key) ∧
        after = registry.insert id key := by
  rw [admitId]
  cases found : registry[id]? with
  | none => simp [eq_comm (a := after)]
  | some existing =>
    by_cases same : existing = key
    · have unchanged : registry.insert id key = registry := by
        apply ExtTreeMap.ext_getElem?
        intro other
        rw [getElem?_map_insert]
        split
        next here => rw [← here, found, same]
        next => rfl
      simp [same, unchanged, eq_comm (a := after)]
    · simp [same]

theorem mergeBackend_eq_ok {service : String}
    {backends after : ExtTreeMap FrontendKey ServiceBackend} {candidate : ServiceBackend} :
    mergeBackend service backends candidate = .ok after ↔
      (∀ existing : ServiceBackend, backends[candidate.endpoint]? = some existing →
        existing.provenance = candidate.provenance) ∧ after = absorb backends candidate := by
  rw [mergeBackend, absorb]
  cases found : backends[candidate.endpoint]? with
  | none => simp [eq_comm (a := after)]
  | some existing =>
    simp only [Option.some.injEq, forall_eq', ← ServiceBackend.sameProvenance_iff]
    cases same : existing.sameProvenance candidate <;> simp [eq_comm (a := after)]

/-- One candidate goes through the registry and into the backends. -/
def admitCandidate (service : ServiceSource) (progress : BackendProgress)
    (candidate : ServiceBackend) : Compiled BackendProgress := do
  let entry := registryEntry service candidate
  let backendKeys ← admitId progress.ids.backendKeys "backend" entry.1 entry.2
  let backends ← mergeBackend service.reference progress.backends candidate
  return ⟨{ progress.ids with backendKeys := backendKeys }, backends,
    progress.backendIds.insert candidate.id⟩

theorem compileAddress_eq (service : ServiceSource) (slice : EndpointSliceSource)
    (endpoint : EndpointSource) (endpointPort : EndpointPortSource) (port : UInt16)
    (progress : BackendProgress) (address : IpAddr) :
    compileAddress service slice endpoint endpointPort port progress address =
      admitCandidate service progress
        (candidate service slice endpoint endpointPort port address) := by
  simp only [compileAddress, backendId, bind_assoc, pure_bind,
    admitCandidate, registryEntry, candidate]

section Loops

variable {service : ServiceSource} {clusterIp : IpAddr} {servicePort : ServiceSourcePort}
  {progress after : BackendProgress}

theorem foldlM_compileSlice_eq_ok {slices : List EndpointSliceSource} :
    slices.foldlM (compileSlice service clusterIp servicePort) progress = .ok after ↔
      Resolved slices servicePort ∧ (candidates service slices clusterIp.family servicePort).foldlM
          (admitCandidate service) progress = .ok after := by
  have portStep (slice : EndpointSliceSource) (endpoint : EndpointSource)
      (state : BackendProgress) (endpointPort : EndpointPortSource) (after : BackendProgress) :
      compileEndpointPort service clusterIp servicePort slice endpoint state endpointPort =
          .ok after ↔
        endpointPort.port.isSome = true ∧
          (portCandidates service clusterIp.family slice endpoint endpointPort).foldlM
            (admitCandidate service) state = .ok after := by
    rw [compileEndpointPort, portCandidates]
    cases endpointPort.port with
    | none => simp [bind_eq_ok]
    | some port =>
      have sameBody : compileAddress service slice endpoint endpointPort port =
          fun state address => admitCandidate service state
            (candidate service slice endpoint endpointPort port address) := by
        funext state address
        exact compileAddress_eq service slice endpoint endpointPort port state address
      have sameFilter : (fun address : IpAddr => address.isIpv4 == clusterIp.isIpv4) =
          fun address => address.family == clusterIp.family := by
        funext address
        rw [Bool.eq_iff_iff, beq_iff_eq, beq_iff_eq, IpAddr.isIpv4_eq_iff]
      simp only [Option.elim_some, ok_bind, sameBody, sameFilter, foldlM_map,
        Option.isSome_some, true_and]
  have endpointStep (slice : EndpointSliceSource) (state : BackendProgress)
      (endpoint : EndpointSource) (after : BackendProgress) :
      compileEndpoint service clusterIp servicePort slice state endpoint = .ok after ↔
        (∀ endpointPort ∈ endpoint.ports.filter servicePort.matches,
          endpointPort.port.isSome = true) ∧
        (endpointCandidates service clusterIp.family servicePort slice endpoint).foldlM
          (admitCandidate service) state = .ok after :=
    foldlM_flatMap_eq_ok (portStep slice endpoint)
  have sliceStep (state : BackendProgress) (slice : EndpointSliceSource) (after : BackendProgress) :
      compileSlice service clusterIp servicePort state slice = .ok after ↔
        (∀ endpoint ∈ slice.endpoints, ∀ endpointPort ∈ endpoint.ports.filter servicePort.matches,
            endpointPort.port.isSome = true) ∧
        (slice.endpoints.flatMap
          (endpointCandidates service clusterIp.family servicePort slice)).foldlM
          (admitCandidate service) state = .ok after :=
    foldlM_flatMap_eq_ok (endpointStep slice)
  exact foldlM_flatMap_eq_ok sliceStep

/-- No endpoint is seen again with another provenance. -/
def Mergeable : ExtTreeMap FrontendKey ServiceBackend → List ServiceBackend → Prop :=
  Agrees (fun backends endpoint => backends[endpoint]?.map ServiceBackend.provenance) absorb
    ServiceBackend.endpoint ServiceBackend.provenance

theorem admitCandidate_eq_ok {candidate : ServiceBackend} :
    admitCandidate service progress candidate = .ok after ↔
      (∀ existing, progress.ids.backendKeys[(registryEntry service candidate).1]? =
        some existing → existing = (registryEntry service candidate).2) ∧
      (∀ existing, progress.backends[candidate.endpoint]?.map ServiceBackend.provenance =
        some existing → existing = candidate.provenance) ∧
      after = ⟨progress.ids.enter [registryEntry service candidate],
        absorb progress.backends candidate, progress.backendIds.insert candidate.id⟩ := by
  simp only [admitCandidate, eq_ok_iffs, admitId_eq_ok, mergeBackend_eq_ok, Option.map_eq_some_iff,
    forall_exists_index, and_imp, forall_apply_eq_imp_iff₂]
  constructor
  · rintro ⟨_, ⟨registered, rfl⟩, _, ⟨merged, rfl⟩, rfl⟩
    exact ⟨registered, merged, rfl⟩
  · rintro ⟨registered, merged, rfl⟩
    exact ⟨_, ⟨registered, rfl⟩, _, ⟨merged, rfl⟩, rfl⟩

/-- The progress after candidates that are all admitted. -/
def BackendProgress.recordAll (service : ServiceSource) (progress : BackendProgress)
    (candidates : List ServiceBackend) : BackendProgress where
  ids := progress.ids.enter (candidates.map (registryEntry service))
  backends := candidates.foldl absorb progress.backends
  backendIds := candidates.foldl (fun seen candidate => seen.insert candidate.id)
    progress.backendIds

theorem foldlM_admitCandidate_eq_ok {candidates : List ServiceBackend} :
    candidates.foldlM (admitCandidate service) progress = .ok after ↔
      (Registrable progress.ids.backendKeys (candidates.map (registryEntry service)) ∧
        Mergeable progress.backends candidates) ∧
      after = progress.recordAll service candidates := by
  induction candidates generalizing progress with
  | nil =>
    have registrable : Registrable progress.ids.backendKeys [] := agrees_nil
    have mergeable : Mergeable progress.backends [] := agrees_nil
    simp [registrable, mergeable, pure, Except.pure, eq_comm (a := after),
      BackendProgress.recordAll, enter, register]
  | cons candidate candidates ih =>
    simp only [foldlM_cons, bind_eq_ok, ih, admitCandidate_eq_ok,
      map_cons, Registrable, Mergeable, agrees_cons]
    constructor
    · rintro ⟨_, ⟨registered, merged, rfl⟩, ⟨registrable, mergeable⟩, rfl⟩
      exact ⟨⟨⟨registered, registrable⟩, merged, mergeable⟩, rfl⟩
    · rintro ⟨⟨⟨registered, registrable⟩, merged, mergeable⟩, rfl⟩
      exact ⟨_, ⟨registered, merged, rfl⟩, ⟨registrable, mergeable⟩, rfl⟩

end Loops

/-! ## Services -/

section Service

variable (service : ServiceSource) (slices : List EndpointSliceSource)

/-- The identifiers of candidates, in ascending order. -/
def candidateIds (candidates : List ServiceBackend) : List BackendId :=
  (candidates.foldl (fun seen candidate => seen.insert candidate.id)
    (∅ : ExtTreeSet BackendId)).toList

def compiledFrontend (pair : IpAddr × ServiceSourcePort) : ServiceFrontend where
  address := pair.1
  port := pair.2.port
  protocol := pair.2.protocol
  name := pair.2.name
  appProtocol := pair.2.appProtocol
  backendIds := candidateIds (candidates service slices pair.1.family pair.2)

/-- The NodePort of an address and a port, if the port has one. -/
def compiledNodePorts (pair : IpAddr × ServiceSourcePort) : List ServiceNodePort :=
  pair.2.nodePort.elim [] fun nodePort => [{
    family := pair.1.family
    port := nodePort
    servicePort := pair.2.port
    protocol := pair.2.protocol
    name := pair.2.name
    appProtocol := pair.2.appProtocol
    trafficPolicy := service.externalTrafficPolicy
    backendIds := candidateIds (candidates service slices pair.1.family pair.2) }]

/-- The addresses with the ports, in the order of the loops. -/
def ServiceSource.pairs : List (IpAddr × ServiceSourcePort) :=
  service.clusterIps.flatMap fun clusterIp => service.ports.map (Prod.mk clusterIp)

/-- The candidates of all addresses and ports. -/
def serviceCandidates : List ServiceBackend :=
  service.pairs.flatMap fun pair => candidates service slices pair.1.family pair.2

end Service

section ServiceLoop

variable {service : ServiceSource} {slices : List EndpointSliceSource}

/-- The progress after one address and port. -/
def ServiceProgress.record (service : ServiceSource) (slices : List EndpointSliceSource)
    (progress : ServiceProgress) (pair : IpAddr × ServiceSourcePort) : ServiceProgress where
  ids := progress.ids.enter
    ((candidates service slices pair.1.family pair.2).map (registryEntry service))
  backends := (candidates service slices pair.1.family pair.2).foldl absorb progress.backends
  frontends := progress.frontends ++ [compiledFrontend service slices pair]
  nodePorts := progress.nodePorts ++ compiledNodePorts service slices pair

variable {progress after : ServiceProgress}

theorem compileServicePort_eq_ok {clusterIp : IpAddr} {servicePort : ServiceSourcePort} :
    compileServicePort service slices clusterIp progress servicePort = .ok after ↔
      (Resolved slices servicePort ∧ Registrable progress.ids.backendKeys
          ((candidates service slices clusterIp.family servicePort).map (registryEntry service)) ∧
        Mergeable progress.backends (candidates service slices clusterIp.family servicePort)) ∧
      after = progress.record service slices (clusterIp, servicePort) := by
  have family : (if clusterIp.isIpv4 = true then AddressFamily.ipv4 else AddressFamily.ipv6) =
      clusterIp.family := by
    cases clusterIp <;> rfl
  simp only [compileServicePort, eq_ok_iffs, foldlM_compileSlice_eq_ok,
    foldlM_admitCandidate_eq_ok, family]
  constructor
  · rintro ⟨_, ⟨resolved, ⟨registrable, mergeable⟩, rfl⟩, rfl⟩
    exact ⟨⟨resolved, registrable, mergeable⟩, rfl⟩
  · rintro ⟨⟨resolved, registrable, mergeable⟩, rfl⟩
    exact ⟨_, ⟨resolved, ⟨registrable, mergeable⟩, rfl⟩, rfl⟩

/-- The progress after several addresses and ports. -/
def ServiceProgress.recordAll (service : ServiceSource) (slices : List EndpointSliceSource)
    (progress : ServiceProgress) (pairs : List (IpAddr × ServiceSourcePort)) :
    ServiceProgress where
  ids := progress.ids.enter
    ((pairs.flatMap fun pair => candidates service slices pair.1.family pair.2).map
      (registryEntry service))
  backends := (pairs.flatMap fun pair =>
    candidates service slices pair.1.family pair.2).foldl absorb progress.backends
  frontends := progress.frontends ++ pairs.map (compiledFrontend service slices)
  nodePorts := progress.nodePorts ++ pairs.flatMap (compiledNodePorts service slices)

theorem ServiceProgress.recordAll_record (progress : ServiceProgress)
    (pair : IpAddr × ServiceSourcePort) (pairs : List (IpAddr × ServiceSourcePort)) :
    (progress.record service slices pair).recordAll service slices pairs =
      progress.recordAll service slices (pair :: pairs) := by
  simp [record, recordAll, enter, register_append]

theorem foldlM_pairs_eq_ok {pairs : List (IpAddr × ServiceSourcePort)} :
    pairs.foldlM (fun progress pair =>
        compileServicePort service slices pair.1 progress pair.2) progress = .ok after ↔
      ((∀ pair ∈ pairs, Resolved slices pair.2) ∧ Registrable progress.ids.backendKeys
          ((pairs.flatMap fun pair => candidates service slices pair.1.family pair.2).map
            (registryEntry service)) ∧ Mergeable progress.backends
          (pairs.flatMap fun pair => candidates service slices pair.1.family pair.2)) ∧
      after = progress.recordAll service slices pairs := by
  induction pairs generalizing progress with
  | nil =>
    have registrable : Registrable progress.ids.backendKeys [] := agrees_nil
    have mergeable : Mergeable progress.backends [] := agrees_nil
    simp [registrable, mergeable, pure, Except.pure, eq_comm (a := after),
      ServiceProgress.recordAll, enter, register]
  | cons pair pairs ih =>
    simp only [foldlM_cons, bind_eq_ok, ih, compileServicePort_eq_ok, forall_mem_cons, flatMap_cons,
      map_append, registrable_append, Mergeable, agrees_append, ← ServiceProgress.recordAll_record]
    constructor
    · rintro ⟨_, ⟨⟨resolved, registrable, mergeable⟩, rfl⟩,
        ⟨restResolved, restRegistrable, restMergeable⟩, rfl⟩
      exact ⟨⟨⟨resolved, restResolved⟩, ⟨registrable, restRegistrable⟩, mergeable,
        restMergeable⟩, rfl⟩
    · rintro ⟨⟨⟨resolved, restResolved⟩, ⟨registrable, restRegistrable⟩, mergeable,
        restMergeable⟩, rfl⟩
      exact ⟨_, ⟨⟨resolved, registrable, mergeable⟩, rfl⟩,
        ⟨restResolved, restRegistrable, restMergeable⟩, rfl⟩

theorem foldlM_compileClusterIp_eq_ok :
    service.clusterIps.foldlM (compileClusterIp service slices) progress = .ok after ↔
      ((∀ pair ∈ service.pairs, Resolved slices pair.2) ∧ Registrable progress.ids.backendKeys
          ((serviceCandidates service slices).map (registryEntry service)) ∧
        Mergeable progress.backends (serviceCandidates service slices)) ∧
      after = progress.recordAll service slices service.pairs := by
  have step (state : ServiceProgress) (clusterIp : IpAddr) (after : ServiceProgress) :
      compileClusterIp service slices state clusterIp = .ok after ↔
        True ∧ (service.ports.map (Prod.mk clusterIp)).foldlM (fun progress pair =>
          compileServicePort service slices pair.1 progress pair.2) state = .ok after := by
    simp [compileClusterIp, foldlM_map]
  rw [foldlM_flatMap_eq_ok step, ← ServiceSource.pairs, foldlM_pairs_eq_ok, serviceCandidates]
  simp

end ServiceLoop

/-- What a service needs of its slices, whatever else is compiled. -/
structure ServiceSource.Compilable (service : ServiceSource)
    (slices : List EndpointSliceSource) : Prop where
  families : ∀ slice ∈ slices, ∀ endpoint ∈ slice.endpoints,
    ∀ address ∈ endpoint.addresses, address.family = slice.addressFamily
  resolved : ∀ pair ∈ service.pairs, Resolved slices pair.2
  mergeable : Mergeable ∅ (serviceCandidates service slices)

/-- The service that comes out of the compiler. -/
def compiledService (slices : List EndpointSliceSource) (service : ServiceSource) :
    ServiceIr where
  id := ⟨provisionalId service.key⟩
  «namespace» := service.«namespace»
  name := service.name
  internalTrafficPolicy := service.internalTrafficPolicy
  sessionAffinity := service.sessionAffinity
  trafficDistribution := service.trafficDistribution
  selectionAlgorithm := service.selectionAlgorithm
  forwardingMode := service.forwardingMode
  frontends := service.pairs.map (compiledFrontend service slices)
  nodePorts := service.pairs.flatMap (compiledNodePorts service slices)
  loadBalancer := service.loadBalancer.map (compileLoadBalancer service
    (service.pairs.map (compiledFrontend service slices)))
  backends := ((serviceCandidates service slices).foldl absorb ∅).toList.map Prod.snd

/-- The entry of a service in the registry. -/
def ServiceSource.registryEntry (service : ServiceSource) : UInt32 × String :=
  (provisionalId service.key, service.key)

theorem validateSliceFamilies_eq_ok {slices : List EndpointSliceSource} {result : Unit} :
    validateSliceFamilies slices = .ok result ↔
      ∀ slice ∈ slices, ∀ endpoint ∈ slice.endpoints, ∀ address ∈ endpoint.addresses,
        address.family = slice.addressFamily := by
  have addressStep (slice : EndpointSliceSource) (address : IpAddr) :
      validateSliceAddress slice address = .ok ⟨⟩ ↔ address.family = slice.addressFamily := by
    rw [validateSliceAddress]
    cases slice.addressFamily <;> simp [IpAddr.isIpv4_iff, IpAddr.isIpv6_iff]
  simp only [validateSliceFamilies, forM_eq_ok_iff, addressStep, mem_flatMap,
    forall_exists_index, and_imp]
  exact forall₂_congr fun slice _ => ⟨fun holds endpoint member address listed =>
    holds address endpoint member listed, fun holds address endpoint member listed =>
    holds endpoint member address listed⟩

variable {endpointSlices : List EndpointSliceSource}
  {ids : ProvisionalIdRegistry} {services : List ServiceSource}

theorem compileService_eq_ok {service : ServiceSource}
    {result : ProvisionalIdRegistry × ServiceIr} :
    compileService endpointSlices ids service = .ok result ↔
      ((∀ existing, ids.serviceKeys[service.registryEntry.1]? = some existing →
          existing = service.registryEntry.2) ∧
        Registrable ids.backendKeys ((serviceCandidates service
          (service.matchingSlices endpointSlices)).map (registryEntry service)) ∧
        service.Compilable (service.matchingSlices endpointSlices)) ∧
      result = (⟨ids.serviceKeys.insert service.registryEntry.1 service.registryEntry.2,
          register ids.backendKeys ((serviceCandidates service
            (service.matchingSlices endpointSlices)).map (registryEntry service))⟩,
        compiledService (service.matchingSlices endpointSlices) service) := by
  simp only [compileService, serviceId, eq_ok_iffs, admitId_eq_ok, validateSliceFamilies_eq_ok,
    foldlM_compileClusterIp_eq_ok]
  constructor
  · rintro ⟨_, ⟨_, ⟨registered, rfl⟩, rfl⟩, families, _,
      ⟨⟨resolved, registrable, mergeable⟩, rfl⟩, rfl⟩
    exact ⟨⟨registered, registrable, families, resolved, mergeable⟩, rfl⟩
  · rintro ⟨⟨registered, registrable, families, resolved, mergeable⟩, rfl⟩
    exact ⟨_, ⟨_, ⟨registered, rfl⟩, rfl⟩, families, _,
      ⟨⟨resolved, registrable, mergeable⟩, rfl⟩, rfl⟩

/-! ## Snapshots -/

/-- The services that are not headless. -/
def activeServices (services : List ServiceSource) : List ServiceSource :=
  services.filter fun service => !service.clusterIps.isEmpty

/-- The entries of all backends of some services. -/
def backendEntries (endpointSlices : List EndpointSliceSource)
    (services : List ServiceSource) : List (UInt32 × String) :=
  services.flatMap fun service => (serviceCandidates service
    (service.matchingSlices endpointSlices)).map (registryEntry service)

theorem foldlM_compileNextService_eq_ok {compiled : List ServiceIr}
    {result : ProvisionalIdRegistry × List ServiceIr} :
    services.foldlM (compileNextService endpointSlices) (ids, compiled) = .ok result ↔
      (Registrable ids.serviceKeys ((activeServices services).map ServiceSource.registryEntry) ∧
        Registrable ids.backendKeys (backendEntries endpointSlices (activeServices services)) ∧
        ∀ service ∈ activeServices services,
          service.Compilable (service.matchingSlices endpointSlices)) ∧
      result = (⟨register ids.serviceKeys
            ((activeServices services).map ServiceSource.registryEntry),
          register ids.backendKeys (backendEntries endpointSlices (activeServices services))⟩,
        compiled ++ (activeServices services).map fun service =>
          compiledService (service.matchingSlices endpointSlices) service) := by
  induction services generalizing ids compiled with
  | nil =>
    have registrable (registry : ExtTreeMap UInt32 String) : Registrable registry [] := agrees_nil
    simp [activeServices, backendEntries, registrable, register, pure, Except.pure,
      eq_comm (a := result)]
  | cons service services ih =>
    rw [foldlM_cons, bind_eq_ok]
    by_cases headless : service.clusterIps.isEmpty = true
    · have skipped : activeServices (service :: services) = activeServices services := by
        simp [activeServices, headless]
      simp only [compileNextService, headless, if_true, Except.ok.injEq, exists_eq_left',
        ih, skipped]
    · have kept : activeServices (service :: services) = service :: activeServices services := by
        simp [activeServices, headless]
      simp only [compileNextService, headless, if_false, eq_ok_iffs, Prod.exists,
        compileService_eq_ok, Prod.mk.injEq, ih, kept, backendEntries, Bool.false_eq_true,
        forall_mem_cons]
      constructor
      · rintro ⟨_, _, ⟨_, _, ⟨⟨registered, registrable, compilable⟩, rfl, rfl⟩, rfl, rfl⟩,
          ⟨restRegistered, restRegistrable, restCompilable⟩, rfl⟩
        refine ⟨⟨agrees_cons.mpr ⟨registered, restRegistered⟩,
          registrable_append.mpr ⟨registrable, restRegistrable⟩, compilable, restCompilable⟩, ?_⟩
        simp [register]
      · rintro ⟨⟨registered, registrable, compilable, restCompilable⟩, rfl⟩
        obtain ⟨registered, restRegistered⟩ := agrees_cons.mp registered
        obtain ⟨registrable, restRegistrable⟩ := registrable_append.mp registrable
        refine ⟨_, _, ⟨_, _, ⟨⟨registered, registrable, compilable⟩, rfl, rfl⟩, rfl, rfl⟩,
          ⟨restRegistered, restRegistrable, restCompilable⟩, ?_⟩
        simp [register]

theorem rejectDuplicates_eq_ok {α : Type} {provenance : α → String ×ₗ String}
    {error : α → ServiceCompileError} {items : List α} {result : Unit} :
    rejectDuplicates provenance error (sortByKey provenance items) = .ok result ↔
      (items.map provenance).Nodup := by
  have adjacent (listed : List α) : rejectDuplicates provenance error listed = .ok result ↔
      hasAdjacentRepeat (listed.map provenance) = false := by
    induction listed with
    | nil => simp [rejectDuplicates, hasAdjacentRepeat]
    | cons first rest ih =>
      cases rest with
      | nil => simp [rejectDuplicates, hasAdjacentRepeat]
      | cons second rest =>
        simp only [rejectDuplicates, failIf_bind_eq_ok, ih, map_cons, hasAdjacentRepeat,
          eq_false_iffs]
  have sorted : ((sortByKey provenance items).map provenance).Pairwise (· ≤ ·) :=
    pairwise_map.mpr (sortByKey_sorted provenance items)
  rw [adjacent, hasAdjacentRepeat_eq_false_iff sorted,
    ((sortByKey_perm provenance items).map provenance).nodup_iff]

/-- The snapshot that is compiled from sources, before it is validated. -/
def compiledSnapshot (sourceEpoch : UInt64) (revision : Revision)
    (services : List ServiceSource) (endpointSlices : List EndpointSliceSource) :
    ServiceSnapshot where
  schemaVersion := serviceSnapshotSchemaVersion
  sourceEpoch := sourceEpoch
  revision := revision
  services := (activeServices services).map fun service =>
    compiledService (service.matchingSlices endpointSlices) service

/-- The sources can be compiled, to a snapshot that may be invalid. -/
structure SourcesValid (services : List ServiceSource)
    (endpointSlices : List EndpointSliceSource) : Prop where
  distinctServices : (services.map ServiceSource.provenance).Nodup
  distinctSlices : (endpointSlices.map EndpointSliceSource.provenance).Nodup
  serviceIds : ((activeServices services).map ServiceSource.registryEntry).Pairwise
    fun left right => left.1 = right.1 → left.2 = right.2
  backendIds : (backendEntries endpointSlices (activeServices services)).Pairwise
    fun left right => left.1 = right.1 → left.2 = right.2
  compilable : ∀ service ∈ activeServices services,
    service.Compilable (service.matchingSlices endpointSlices)

theorem compileServiceSnapshot_eq_ok {sourceEpoch : UInt64} {revision : Revision}
    {result : ServiceSnapshot} :
    compileServiceSnapshot sourceEpoch revision services endpointSlices = .ok result ↔
      SourcesValid (sortByKey ServiceSource.provenance services)
        (sortByKey provenance endpointSlices) ∧
      (compiledSnapshot sourceEpoch revision (sortByKey ServiceSource.provenance services)
        (sortByKey provenance endpointSlices)).Valid ∧
      result = (compiledSnapshot sourceEpoch revision (sortByKey ServiceSource.provenance services)
        (sortByKey provenance endpointSlices)).normalized := by
  have sortedServices := ((sortByKey_perm ServiceSource.provenance services).map
    ServiceSource.provenance).nodup_iff
  have sortedSlices := ((sortByKey_perm provenance endpointSlices).map provenance).nodup_iff
  simp only [compileServiceSnapshot, rejectDuplicateServices, rejectDuplicateEndpointSlices,
    eq_ok_iffs, rejectDuplicates_eq_ok, Prod.exists, foldlM_compileNextService_eq_ok, empty,
    registrable_empty_iff, ServiceSnapshot.validateAndNormalize_eq_ok]
  constructor
  · rintro ⟨uniqueServices, uniqueSlices, _, _,
      ⟨⟨serviceIds, backendIds, compilable⟩, same⟩, valid, rfl⟩
    obtain ⟨rfl, rfl⟩ := Prod.mk.inj same
    exact ⟨⟨sortedServices.mpr uniqueServices, sortedSlices.mpr uniqueSlices, serviceIds,
      backendIds, compilable⟩, valid, rfl⟩
  · rintro ⟨sources, valid, rfl⟩
    exact ⟨sortedServices.mp sources.distinctServices, sortedSlices.mp sources.distinctSlices, _, _,
      ⟨⟨sources.serviceIds, sources.backendIds, sources.compilable⟩, rfl⟩, valid, rfl⟩

end Unf.Service
