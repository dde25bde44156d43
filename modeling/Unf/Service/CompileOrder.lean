import Unf.Service.Compiled

/-!
# The order of sources does not matter

Services, EndpointSlices, the endpoints of a slice and the ports of a service come in
the order in which they happened to be observed. A snapshot compiled from them does
not depend on it.
-/

namespace Unf.Service

open Std (ExtTreeMap ExtTreeSet)
open Unf.Lib List Option ServiceBackend ServiceSnapshot List.Perm

/-- The same service with its ports in another order. -/
def ServiceSource.Reordered (left right : ServiceSource) : Prop :=
  left = { right with ports := left.ports } ∧ left.ports.Perm right.ports

/-- The same slice with its endpoints in another order. -/
def EndpointSliceSource.Reordered (left right : EndpointSliceSource) : Prop :=
  left = { right with endpoints := left.endpoints } ∧ left.endpoints.Perm right.endpoints

/-! ## Candidates -/

/-- Candidates depend on a port through its name and protocol only. -/
theorem candidates_congr (service : ServiceSource) (slices : List EndpointSliceSource)
    (family : AddressFamily) {left right : ServiceSourcePort} (name : left.name = right.name)
    (protocol : left.protocol = right.protocol) :
    candidates service slices family left = candidates service slices family right := by
  have sameMatches : left.matches = right.matches := by
    funext endpointPort
    rw [ServiceSourcePort.matches, ServiceSourcePort.matches, name, protocol]
  have sameEndpoint : endpointCandidates service family left =
      endpointCandidates service family right := by
    funext slice endpoint
    rw [endpointCandidates, endpointCandidates, sameMatches]
  rw [candidates, candidates, sameEndpoint]

section Reordered

variable {service service' : ServiceSource} {slices slices' : List EndpointSliceSource}

theorem ServiceSource.Reordered.key_eq (same : service.Reordered service') :
    service.key = service'.key := by
  rw [same.1]
  rfl

theorem registryEntry_congr (same : service.Reordered service') :
    registryEntry service = registryEntry service' := by
  funext backend
  rw [registryEntry, registryEntry, same.key_eq]

variable (sameService : service.Reordered service')

include sameService in
theorem candidate_congr {slice slice' : EndpointSliceSource} (same : slice.Reordered slice') :
    candidate service slice = candidate service' slice' := by
  have reference : slice.reference = slice'.reference := by
    rw [same.1]
    rfl
  funext endpoint endpointPort port address
  simp only [candidate, sameService.key_eq, reference]

variable (same : UpToOrder EndpointSliceSource.Reordered slices slices')

include sameService same in
theorem candidates_perm (family : AddressFamily) (servicePort : ServiceSourcePort) :
    (candidates service slices family servicePort).Perm
      (candidates service' slices' family servicePort) := by
  apply same.flatMap_perm
  intro slice slice' reordered
  have sameCandidates : endpointCandidates service family servicePort slice =
      endpointCandidates service' family servicePort slice' := by
    have samePort : portCandidates service family slice =
        portCandidates service' family slice' := by
      funext endpoint endpointPort
      rw [portCandidates, portCandidates, candidate_congr sameService reordered]
    funext endpoint
    rw [endpointCandidates, endpointCandidates, samePort]
  rw [sameCandidates]
  exact reordered.2.flatMap_right _

include sameService same in
theorem matchingSlices_upToOrder :
    UpToOrder EndpointSliceSource.Reordered (service.matchingSlices slices)
      (service'.matchingSlices slices') := by
  have sameName : service.matchingSlices = service'.matchingSlices := by
    rw [sameService.1]
    rfl
  rw [sameName]
  apply same.filter
  intro slice slice' reordered
  rw [reordered.1]

theorem pairs_perm (same : service.Reordered service') : service.pairs.Perm service'.pairs := by
  have sameIps : service.clusterIps = service'.clusterIps := by rw [same.1]
  rw [ServiceSource.pairs, sameIps]
  exact flatMap_left _ fun clusterIp _ => same.2.map _

include sameService same in
theorem serviceCandidates_perm :
    (serviceCandidates service slices).Perm (serviceCandidates service' slices') := by
  rw [serviceCandidates, serviceCandidates]
  refine ((pairs_perm sameService).flatMap_right _).trans ?_
  exact flatMap_left _ fun pair _ => candidates_perm sameService same _ _

/-! ## Conditions -/

theorem mergeable_empty_iff {candidates : List ServiceBackend} :
    Mergeable ∅ candidates ↔ candidates.Pairwise fun left right =>
      left.endpoint = right.endpoint → left.provenance = right.provenance := by
  have step (backends : ExtTreeMap FrontendKey ServiceBackend) (candidate : ServiceBackend)
      (agrees : ∀ existing, backends[candidate.endpoint]?.map provenance =
        some existing → existing = candidate.provenance) (sought : FrontendKey) :
      (absorb backends candidate)[sought]?.map provenance =
        if candidate.endpoint = sought then some candidate.provenance
        else backends[sought]?.map provenance := by
    rw [absorb, getElem?_map_insert]
    split
    · cases found : backends[candidate.endpoint]? with
      | none => simp
      | some existing =>
        have same := agrees existing.provenance (by simp [found])
        rw [← same]
        rfl
    · rfl
  rw [Mergeable, agrees_iff step]
  simp

variable {servicePort : ServiceSourcePort}

include same in
theorem Resolved.of_reordered (resolved : Resolved slices servicePort) :
    Resolved slices' servicePort := by
  intro slice' member endpoint endpointMember
  obtain ⟨slice, sliceMember, reordered⟩ := same.exists_mem_left member
  exact resolved slice sliceMember endpoint (reordered.2.mem_iff.mpr endpointMember)

include sameService same in
theorem ServiceSource.Compilable.of_reordered (compilable : service.Compilable slices) :
    service'.Compilable slices' where
  families slice' member endpoint endpointMember address addressMember := by
    obtain ⟨slice, sliceMember, reordered⟩ := same.exists_mem_left member
    have sameFamily : slice.addressFamily = slice'.addressFamily := by rw [reordered.1]
    rw [← sameFamily]
    exact compilable.families slice sliceMember endpoint
      (reordered.2.mem_iff.mpr endpointMember) address addressMember
  resolved pair member :=
    (compilable.resolved pair ((pairs_perm sameService).mem_iff.mpr member)).of_reordered same
  mergeable := by
    have agree := mergeable_empty_iff.mp compilable.mergeable
    rw [mergeable_empty_iff]
    refine ((serviceCandidates_perm sameService same).pairwise_iff ?_).mp agree
    intro left right agree sameEndpoint
    exact (agree sameEndpoint.symm).symm

/-! ## Compiled services -/

theorem candidateIds_perm {left right : List ServiceBackend} (perm : left.Perm right) :
    candidateIds left = candidateIds right := by
  have sameSet : left.foldl (fun seen candidate => seen.insert candidate.id)
      (∅ : ExtTreeSet BackendId) =
        right.foldl (fun seen candidate => seen.insert candidate.id) ∅ := by
    apply ExtTreeSet.ext_mem
    intro id
    simp only [mem_foldl_insert, perm.mem_iff]
  rw [candidateIds, candidateIds, sameSet]

include sameService same in
theorem compiledFrontend_congr :
    compiledFrontend service slices = compiledFrontend service' slices' := by
  funext pair
  simp only [compiledFrontend, candidateIds_perm (candidates_perm sameService same _ _)]

include sameService same in
theorem compiledNodePorts_congr :
    compiledNodePorts service slices = compiledNodePorts service' slices' := by
  have policy : service.externalTrafficPolicy = service'.externalTrafficPolicy := by
    rw [sameService.1]
  funext pair
  simp only [compiledNodePorts, candidateIds_perm (candidates_perm sameService same _ _), policy]

/-- A name that is kept as long as all sightings share it. -/
def keepShared (existing candidate : Option String) : Option String :=
  if existing ≠ candidate then none else existing

theorem keepShared_right_comm (existing first second : Option String) :
    keepShared (keepShared existing first) second =
      keepShared (keepShared existing second) first := by
  by_cases sameFirst : existing = first
  · by_cases sameSecond : existing = second
    · simp [← sameFirst, ← sameSecond]
    · simp [keepShared, ← sameFirst, sameSecond]
  · by_cases sameSecond : existing = second
    · simp [keepShared, sameFirst, ← sameSecond]
    · simp [keepShared, sameFirst, sameSecond]

theorem keepShared_comm (first second : Option String) :
    keepShared first second = keepShared second first := by
  by_cases same : first = second
  · rw [same]
  · simp [keepShared, same, Ne.symm same]

/-- A slice that is new is added in its place. -/
def addSlice (slices : List String) (slice : String) : List String :=
  if slices.contains slice then slices else sort (slices ++ [slice])

variable {slice : String} {first second : ServiceBackend} {slice' : String}

theorem mem_addSlice {slices : List String} {other : String} :
    other ∈ addSlice slices slice ↔ other ∈ slices ∨ other = slice := by
  rw [addSlice]
  split
  next listed =>
    rw [contains_iff_mem] at listed
    constructor
    · exact .inl
    · rintro (member | rfl)
      · exact member
      · exact listed
  next => simp

theorem addSlice_eq_self {slices : List String} {slice : String} (listed : slice ∈ slices) :
    addSlice slices slice = slices := by
  simp [addSlice, listed]

theorem addSlice_right_comm (slices : List String) (first second : String) :
    addSlice (addSlice slices first) second = addSlice (addSlice slices second) first := by
  by_cases sameSlice : first = second
  · rw [sameSlice]
  by_cases firstListed : first ∈ slices
  · rw [addSlice_eq_self firstListed, addSlice_eq_self (mem_addSlice.mpr (.inl firstListed))]
  by_cases secondListed : second ∈ slices
  · rw [addSlice_eq_self secondListed, addSlice_eq_self (mem_addSlice.mpr (.inl secondListed))]
  · have firstAdded : addSlice slices first = sort (slices ++ [first]) := by
      simp [addSlice, firstListed]
    have secondAdded : addSlice slices second = sort (slices ++ [second]) := by
      simp [addSlice, secondListed]
    rw [firstAdded, secondAdded, addSlice, addSlice, if_neg, if_neg]
    · apply sort_eq_of_perm
      refine ((sort_perm _).append_right _).trans (.trans ?_ ((sort_perm _).append_right _).symm)
      rw [append_assoc, append_assoc]
      exact (swap second first []).append_left slices
    · simp [firstListed, sameSlice]
    · simp [secondListed, Ne.symm sameSlice]

theorem ServiceBackend.merge_eq (existing candidate : ServiceBackend) :
    existing.merge candidate = { existing with
      portName := keepShared existing.portName candidate.portName
      appProtocol := keepShared existing.appProtocol candidate.appProtocol
      endpointSlices := addSlice existing.endpointSlices
        (candidate.endpointSlices.headD "") } := rfl

/-- Two sightings may be merged in either order. -/
theorem ServiceBackend.merge_right_comm (existing first second : ServiceBackend) :
    (existing.merge first).merge second = (existing.merge second).merge first := by
  simp only [merge_eq, keepShared_right_comm _ first.portName,
    keepShared_right_comm _ first.appProtocol,
    addSlice_right_comm _ (first.endpointSlices.headD "")]

theorem addSlice_singleton_comm (first second : String) :
    addSlice [first] second = addSlice [second] first := by
  by_cases same : first = second
  · rw [same]
  · have different : second ≠ first := Ne.symm same
    simp only [addSlice, contains_cons, contains_nil, Bool.or_false, beq_iff_eq, same, different]
    exact sort_eq_of_perm (swap second first [])

/-- Two sightings of one endpoint that agree on its provenance give the same backend,
whichever comes first. -/
theorem ServiceBackend.merge_comm (firstSlices : first.endpointSlices = [slice])
    (secondSlices : second.endpointSlices = [slice'])
    (sameEndpoint : first.endpoint = second.endpoint)
    (sameProvenance : first.provenance = second.provenance) :
    first.merge second = second.merge first := by
  have endpoint : first.address = second.address ∧ first.port = second.port ∧
      first.protocol = second.protocol := by
    simpa [endpoint] using sameEndpoint
  simp only [provenance, Prod.mk.injEq] at sameProvenance
  obtain ⟨id, workload, node, zone, ready, serving, terminating⟩ := sameProvenance
  rw [merge_eq, merge_eq, firstSlices, secondSlices, headD_cons, headD_cons,
    addSlice_singleton_comm, keepShared_comm first.portName, keepShared_comm first.appProtocol,
    endpoint.1, endpoint.2.1, endpoint.2.2, id, workload, node, zone, ready, serving, terminating]

theorem absorb_right_comm {backends : ExtTreeMap FrontendKey ServiceBackend}
    (firstSlices : first.endpointSlices = [slice]) (secondSlices : second.endpointSlices = [slice'])
    (agree : first.endpoint = second.endpoint → first.provenance = second.provenance) :
    absorb (absorb backends first) second = absorb (absorb backends second) first := by
  apply ExtTreeMap.ext_getElem?
  intro sought
  by_cases sameEndpoint : first.endpoint = second.endpoint
  · simp only [absorb, getElem?_map_insert, sameEndpoint]
    split
    · cases backends[second.endpoint]? with
      | none => simp [merge_comm firstSlices secondSlices sameEndpoint (agree sameEndpoint)]
      | some existing => simp [existing.merge_right_comm first second]
    · rfl
  · have different : second.endpoint ≠ first.endpoint := Ne.symm sameEndpoint
    simp only [absorb, getElem?_map_insert, sameEndpoint]
    by_cases atFirst : first.endpoint = sought
    · have notSecond : second.endpoint ≠ sought := atFirst ▸ different
      simp [atFirst, notSecond]
    · simp [atFirst]

theorem endpointSlices_of_mem_serviceCandidates {backend : ServiceBackend}
    (member : backend ∈ serviceCandidates service slices) :
    ∃ slice, backend.endpointSlices = [slice] := by
  simp only [serviceCandidates, candidates, endpointCandidates, List.mem_flatMap] at member
  obtain ⟨_, -, slice, -, endpoint, -, endpointPort, -, listed⟩ := member
  rw [portCandidates] at listed
  cases resolved : endpointPort.port with
  | none => simp [resolved] at listed
  | some port =>
    rw [resolved, Option.elim_some, List.mem_map] at listed
    obtain ⟨_, -, rfl⟩ := listed
    exact ⟨slice.reference, rfl⟩

include sameService same in
theorem absorbed_congr (mergeable : Mergeable ∅ (serviceCandidates service slices)) :
    (serviceCandidates service slices).foldl absorb ∅ =
      (serviceCandidates service' slices').foldl absorb ∅ := by
  have agree := mergeable_empty_iff.mp mergeable
  apply (serviceCandidates_perm sameService same).foldl_eq'
  intro first firstMember second secondMember backends
  obtain ⟨slice, firstSlices⟩ := endpointSlices_of_mem_serviceCandidates firstMember
  obtain ⟨slice', secondSlices⟩ := endpointSlices_of_mem_serviceCandidates secondMember
  apply absorb_right_comm firstSlices secondSlices
  have symmetric : Std.Symm fun left right : ServiceBackend =>
      left.endpoint = right.endpoint → left.provenance = right.provenance :=
    ⟨fun _ _ agree sameEndpoint => (agree sameEndpoint.symm).symm⟩
  exact agree.forall_of_forall (fun _ _ _ => rfl) firstMember secondMember

theorem mem_pairs {pair : IpAddr × ServiceSourcePort} :
    pair ∈ service.pairs ↔ pair.1 ∈ service.clusterIps ∧ pair.2 ∈ service.ports := by
  obtain ⟨clusterIp, servicePort⟩ := pair
  simp [ServiceSource.pairs]

/-- The frontends of a service that a LoadBalancer frontend links to all have the same
candidates. -/
theorem backendIds_of_links {loadBalanced : ServiceLoadBalancerFrontend}
    (name : loadBalanced.name = servicePort.name)
    (protocol : loadBalanced.protocol = servicePort.protocol) {frontend : ServiceFrontend}
    (member : frontend ∈ service.pairs.map (compiledFrontend service slices))
    (links : loadBalanced.links frontend = true) : frontend.backendIds =
      candidateIds (candidates service slices loadBalanced.family servicePort) := by
  obtain ⟨pair, -, rfl⟩ := List.mem_map.mp member
  simp only [ServiceLoadBalancerFrontend.links, Bool.and_eq_true, beq_iff_eq] at links
  obtain ⟨⟨⟨⟨sameFamily, -⟩, sameProtocol⟩, sameName⟩, -⟩ := links
  have samePort := candidates_congr service slices pair.1.family (sameName.trans name)
    (sameProtocol.trans protocol)
  rw [← sameFamily]
  exact congrArg candidateIds samePort

theorem compileLoadBalancerFrontend_links (frontends : List ServiceFrontend)
    (family : AddressFamily) (servicePort : ServiceSourcePort) :
    (compileLoadBalancerFrontend frontends family servicePort).backendIds =
      (frontends.find? (compileLoadBalancerFrontend frontends family servicePort).links).elim []
        ServiceFrontend.backendIds := by
  have sameSearch : (fun frontend : ServiceFrontend =>
      frontend.address.isIpv4 == (family == .ipv4) && frontend.port == servicePort.port &&
        frontend.protocol == servicePort.protocol && frontend.name == servicePort.name &&
        frontend.appProtocol == servicePort.appProtocol) =
      (compileLoadBalancerFrontend frontends family servicePort).links := by
    funext frontend
    have sameFamily : (frontend.address.isIpv4 == (family == .ipv4)) =
        (frontend.address.family == family) := by
      cases frontend.address <;> cases family <;> rfl
    rw [sameFamily]
    rfl
  rw [← sameSearch]
  rfl

/-- Whichever frontend of the family and port is found, it has all candidates. -/
theorem compileLoadBalancerFrontend_backendIds (slices : List EndpointSliceSource)
    (family : AddressFamily) (member : servicePort ∈ service.ports) :
    (compileLoadBalancerFrontend (service.pairs.map (compiledFrontend service slices)) family
      servicePort).backendIds = if ∃ clusterIp ∈ service.clusterIps, clusterIp.family = family then
        candidateIds (candidates service slices family servicePort) else [] := by
  rw [compileLoadBalancerFrontend_links]
  cases found : (service.pairs.map (compiledFrontend service slices)).find?
      (compileLoadBalancerFrontend (service.pairs.map (compiledFrontend service slices)) family
        servicePort).links with
  | none =>
    rw [if_neg, elim_none]
    rintro ⟨clusterIp, listed, rfl⟩
    have absent := find?_eq_none.mp found (compiledFrontend service slices
      (clusterIp, servicePort)) (mem_map_of_mem (mem_pairs.mpr ⟨listed, member⟩))
    simp [ServiceLoadBalancerFrontend.links, compileLoadBalancerFrontend,
      compiledFrontend] at absent
  | some frontend =>
    have links := find?_some found
    have listed := mem_of_find?_eq_some found
    rw [Option.elim_some, backendIds_of_links rfl rfl listed links, if_pos]
    · rfl
    · obtain ⟨pair, pairMember, rfl⟩ := List.mem_map.mp listed
      simp only [ServiceLoadBalancerFrontend.links, Bool.and_eq_true, beq_iff_eq] at links
      exact ⟨pair.1, (mem_pairs.mp pairMember).1, links.1.1.1.1⟩

/-- LoadBalancer frontends of compiled services carry the references of every frontend they
link to. -/
theorem linksUniform_compiledService (slices : List EndpointSliceSource)
    (service : ServiceSource) : (compiledService slices service).LinksUniform := by
  intro loadBalanced member frontend frontendMember links
  cases balanced : service.loadBalancer with
  | none => simp [ServiceIr.loadBalancerFrontends, compiledService, balanced] at member
  | some source =>
    simp only [ServiceIr.loadBalancerFrontends, compiledService, balanced, map_some,
      Option.elim_some, compileLoadBalancer, List.mem_flatMap, List.mem_map] at member
    obtain ⟨family, -, servicePort, portMember, rfl⟩ := member
    rw [backendIds_of_links rfl rfl frontendMember links,
      compileLoadBalancerFrontend_backendIds _ _ portMember, if_pos]
    · rfl
    · obtain ⟨pair, pairMember, rfl⟩ := List.mem_map.mp frontendMember
      simp only [ServiceLoadBalancerFrontend.links, Bool.and_eq_true, beq_iff_eq] at links
      exact ⟨pair.1, (mem_pairs.mp pairMember).1, links.1.1.1.1⟩

include sameService same

theorem compileLoadBalancer_normalized_congr (source : ServiceLoadBalancerSource) :
    (compileLoadBalancer service (service.pairs.map (compiledFrontend service slices))
        source).normalized =
      (compileLoadBalancer service' (service'.pairs.map (compiledFrontend service' slices'))
        source).normalized := by
  have policy : service.externalTrafficPolicy = service'.externalTrafficPolicy := by
    rw [sameService.1]
  have ips : service.clusterIps = service'.clusterIps := by rw [sameService.1]
  have sameFrontend (family : AddressFamily) (servicePort : ServiceSourcePort)
      (member : servicePort ∈ service.ports) :
      compileLoadBalancerFrontend (service.pairs.map (compiledFrontend service slices)) family
          servicePort =
        compileLoadBalancerFrontend (service'.pairs.map (compiledFrontend service' slices'))
          family servicePort := by
    have backendIds := compileLoadBalancerFrontend_backendIds slices family member
    have backendIds' := compileLoadBalancerFrontend_backendIds slices' family
      (sameService.2.mem_iff.mp member)
    rw [ips, candidateIds_perm (candidates_perm sameService same _ _), ← backendIds']
      at backendIds
    simp only [compileLoadBalancerFrontend] at backendIds ⊢
    rw [backendIds]
  have frontends : (source.ipFamilies.flatMap fun family => service.ports.map
      (compileLoadBalancerFrontend (service.pairs.map (compiledFrontend service slices))
        family)).Perm
      (source.ipFamilies.flatMap fun family => service'.ports.map
        (compileLoadBalancerFrontend (service'.pairs.map (compiledFrontend service' slices'))
          family)) := by
    apply flatMap_left
    intro family _
    rw [map_congr_left (sameFrontend family)]
    exact sameService.2.map _
  simp only [ServiceLoadBalancer.normalized, compileLoadBalancer, policy,
    sort_eq_of_perm (frontends.map _)]

theorem compiledService_normalized_congr
    (mergeable : Mergeable ∅ (serviceCandidates service slices)) :
    (compiledService slices service).normalized =
      (compiledService slices' service').normalized := by
  have pairs := pairs_perm sameService
  have frontends : sort ((service.pairs.map (compiledFrontend service slices)).map
      ServiceFrontend.normalized) =
        sort ((service'.pairs.map (compiledFrontend service' slices')).map
          ServiceFrontend.normalized) := by
    rw [compiledFrontend_congr sameService same]
    exact sort_eq_of_perm ((pairs.map _).map _)
  have nodePorts : sort ((service.pairs.flatMap (compiledNodePorts service slices)).map
      ServiceNodePort.normalized) =
        sort ((service'.pairs.flatMap (compiledNodePorts service' slices')).map
          ServiceNodePort.normalized) := by
    rw [compiledNodePorts_congr sameService same]
    exact sort_eq_of_perm ((pairs.flatMap_right _).map _)
  have loadBalancer : service.loadBalancer = service'.loadBalancer := by rw [sameService.1]
  have balanced : (service.loadBalancer.map (compileLoadBalancer service
      (service.pairs.map (compiledFrontend service slices)))).map
        ServiceLoadBalancer.normalized =
      (service'.loadBalancer.map (compileLoadBalancer service'
        (service'.pairs.map (compiledFrontend service' slices')))).map
          ServiceLoadBalancer.normalized := by
    rw [Option.map_map, Option.map_map]
    congr 1
    funext source
    exact compileLoadBalancer_normalized_congr sameService same source
  have key := sameService.key_eq
  have fields := sameService.1
  simp only [ServiceIr.normalized, compiledService, frontends, nodePorts, balanced, key,
    absorbed_congr sameService same mergeable]
  rw [fields]

end Reordered

/-! ## Snapshots -/

section Sources

variable {services services' : List ServiceSource}
  {slices slices' : List EndpointSliceSource}

theorem activeServices_upToOrder (same : UpToOrder ServiceSource.Reordered services services') :
    UpToOrder ServiceSource.Reordered (activeServices services) (activeServices services') := by
  apply same.filter
  intro service service' reordered
  rw [reordered.1]

variable (sameServices : UpToOrder ServiceSource.Reordered services services')
  (sameSlices : UpToOrder EndpointSliceSource.Reordered slices slices')

include sameServices sameSlices in
theorem SourcesValid.of_reordered (valid : SourcesValid services slices) :
    SourcesValid services' slices' where
  distinctServices := by
    refine (sameServices.map_perm ?_).nodup_iff.mp valid.distinctServices
    intro service service' reordered
    rw [reordered.1]
    rfl
  distinctSlices := by
    refine (sameSlices.map_perm ?_).nodup_iff.mp valid.distinctSlices
    intro slice slice' reordered
    rw [reordered.1]
    rfl
  serviceIds := by
    have sameEntry (service service' : ServiceSource) (reordered : service.Reordered service') :
        service.registryEntry = service'.registryEntry := by
      rw [ServiceSource.registryEntry, ServiceSource.registryEntry, reordered.key_eq]
    have perm := (activeServices_upToOrder sameServices).map_perm sameEntry
    exact (perm.pairwise_iff fun agree same => (agree same.symm).symm).mp valid.serviceIds
  backendIds := by
    have perm : (backendEntries slices (activeServices services)).Perm
        (backendEntries slices' (activeServices services')) := by
      apply (activeServices_upToOrder sameServices).flatMap_perm
      intro service service' reordered
      rw [registryEntry_congr reordered]
      exact (serviceCandidates_perm reordered (matchingSlices_upToOrder reordered sameSlices)).map _
    exact (perm.pairwise_iff fun agree same => (agree same.symm).symm).mp valid.backendIds
  compilable service' member := by
    obtain ⟨service, serviceMember, reordered⟩ :=
      (activeServices_upToOrder sameServices).exists_mem_left member
    exact (valid.compilable service serviceMember).of_reordered reordered
      (matchingSlices_upToOrder reordered sameSlices)

variable {sourceEpoch : UInt64} {revision : Revision}

theorem linksUniform_compiledSnapshot (service : ServiceIr)
    (member : service ∈ (compiledSnapshot sourceEpoch revision services slices).services) :
    service.LinksUniform := by
  obtain ⟨source, -, rfl⟩ := List.mem_map.mp member
  exact linksUniform_compiledService _ _

include sameServices sameSlices

/-- Reordered sources give snapshots with the same canonical order. -/
theorem compiledSnapshot_normalized_congr (sources : SourcesValid services slices)
    (valid : (compiledSnapshot sourceEpoch revision services slices).Valid) :
    (compiledSnapshot sourceEpoch revision services slices).normalized =
      (compiledSnapshot sourceEpoch revision services' slices').normalized := by
  have sameService (service service' : ServiceSource)
      (related : service ∈ activeServices services ∧ service.Reordered service') :
      (compiledService (service.matchingSlices slices) service).normalized =
        (compiledService (service'.matchingSlices slices') service').normalized :=
    compiledService_normalized_congr related.2 (matchingSlices_upToOrder related.2 sameSlices)
      (sources.compilable service related.1).mergeable
  have perm : ((compiledSnapshot sourceEpoch revision services slices).services.map
      ServiceIr.normalized).Perm
        ((compiledSnapshot sourceEpoch revision services' slices').services.map
          ServiceIr.normalized) := by
    simp only [compiledSnapshot, List.map_map]
    exact (activeServices_upToOrder sameServices).and_mem.map_perm sameService
  have distinct : (((compiledSnapshot sourceEpoch revision services slices).services.map
      ServiceIr.normalized).map ServiceIr.sortKey).Nodup := by
    have ids := valid.distinct
    rw [List.map_map]
    refine List.Nodup.of_map (fun key => (ofLex key).1) ?_
    rw [List.map_map]
    exact ids
  rw [ServiceSnapshot.normalized, sortByKey_eq_of_perm _ perm distinct]
  rfl

/-- Compiling sources in another order gives the same snapshot. -/
theorem compileServiceSnapshot_order_independent {result : ServiceSnapshot}
    (compiled : compileServiceSnapshot sourceEpoch revision services slices = .ok result) :
    compileServiceSnapshot sourceEpoch revision services' slices' = .ok result := by
  rw [compileServiceSnapshot_eq_ok] at compiled ⊢
  obtain ⟨sources, valid, rfl⟩ := compiled
  have sortedServices := sameServices.of_perm (sortByKey_perm ServiceSource.provenance services)
    (sortByKey_perm ServiceSource.provenance services').symm
  have sortedSlices := sameSlices.of_perm (sortByKey_perm EndpointSliceSource.provenance slices)
    (sortByKey_perm EndpointSliceSource.provenance slices').symm
  have sameOrder := compiledSnapshot_normalized_congr sortedServices sortedSlices sources valid
  refine ⟨sources.of_reordered sortedServices sortedSlices, ?_, sameOrder⟩
  apply valid_of_normalized (schemaValid_of_current rfl)
  · rw [← sameOrder, valid_normalized_iff valid]
    exact fun service member => (linksUniform_compiledSnapshot service member).linksStable
  · exact fun service member => linksUniform_compiledSnapshot service member

end Sources

end Unf.Service
