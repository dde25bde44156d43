import Unf.Service.ValidSnapshot

/-!
# The canonical order of a snapshot

Bringing a snapshot into canonical order twice changes nothing the second time. A
valid snapshot stays valid, but for one check: the ClusterIP frontend that a
LoadBalancer frontend is compared with is the first one in the order of the
snapshot, so it may be another one once the frontends are sorted.
-/

namespace Unf.Service

open Std (ExtTreeSet)
open Unf.Lib List ServiceFrontend ServiceLoadBalancerFrontend ServiceIr ServiceNodePort

/-! ## Idempotence -/

@[simp] theorem ServiceFrontend.normalized_normalized (frontend : ServiceFrontend) :
    frontend.normalized.normalized = frontend.normalized := by
  simp [ServiceFrontend.normalized]

@[simp] theorem ServiceBackend.normalized_normalized (backend : ServiceBackend) :
    backend.normalized.normalized = backend.normalized := by
  simp [ServiceBackend.normalized, sortDedup_sortDedup]

@[simp] theorem ServiceNodePort.normalized_normalized (nodePort : ServiceNodePort) :
    nodePort.normalized.normalized = nodePort.normalized := by
  simp [ServiceNodePort.normalized]

@[simp] theorem ServiceLoadBalancerFrontend.normalized_normalized
    (frontend : ServiceLoadBalancerFrontend) :
    frontend.normalized.normalized = frontend.normalized := by
  simp [ServiceLoadBalancerFrontend.normalized]

@[simp] theorem ServiceLoadBalancer.normalized_normalized (loadBalancer : ServiceLoadBalancer) :
    loadBalancer.normalized.normalized = loadBalancer.normalized := by
  simp [ServiceLoadBalancer.normalized,
    sort_map_sort_map ServiceLoadBalancerFrontend.normalized_normalized]

variable (service : ServiceIr)

@[simp] theorem ServiceIr.normalized_normalized :
    service.normalized.normalized = service.normalized := by
  simp [ServiceIr.normalized, sort_map_sort_map ServiceFrontend.normalized_normalized,
    sort_map_sort_map ServiceNodePort.normalized_normalized,
    sort_map_sort_map ServiceBackend.normalized_normalized, Function.comp_def]

@[simp] theorem ServiceSnapshot.normalized_normalized (snapshot : ServiceSnapshot) :
    snapshot.normalized.normalized = snapshot.normalized := by
  have fixed : (sortByKey ServiceIr.sortKey
      (snapshot.services.map ServiceIr.normalized)).map ServiceIr.normalized =
        sortByKey ServiceIr.sortKey (snapshot.services.map ServiceIr.normalized) := by
    conv_rhs => rw [← map_id (sortByKey _ _)]
    apply map_congr_left
    intro service member
    obtain ⟨original, -, rfl⟩ := mem_map.mp ((mem_sortByKey _).mp member)
    exact original.normalized_normalized
  simp [ServiceSnapshot.normalized, fixed]

/-! ## The linked frontend -/

variable {left right : ServiceFrontend}

theorem ServiceFrontend.le_iff :
    left ≤ right ↔ left.sortKey ≤ right.sortKey := Iff.rfl

theorem ServiceFrontend.address_le_of_le (le : left ≤ right) : left.address ≤ right.address := by
  rw [le_iff, sortKey, sortKey, Prod.Lex.toLex_le_toLex] at le
  rcases le with less | ⟨same, -⟩
  · exact less.le
  · exact same.le

theorem ServiceFrontend.le_of_address_lt (less : left.address < right.address) : left ≤ right := by
  rw [le_iff, sortKey, sortKey, Prod.Lex.toLex_le_toLex]
  exact .inl less

/-- Frontends with the same identity share their key when they share the address. -/
theorem ServiceFrontend.key_eq_of_identity_eq (sameIdentity : left.identity = right.identity)
    (sameAddress : left.address = right.address) : left.key = right.key := by
  have same : left.port = right.port ∧ left.protocol = right.protocol := by
    simp only [ServiceFrontend.identity, EmbeddingLike.apply_eq_iff_eq, Prod.mk.injEq]
      at sameIdentity
    exact ⟨sameIdentity.2.1, sameIdentity.2.2.1⟩
  rw [key, key, sameAddress, same.1, same.2]

/-- The ClusterIP frontend of the least address among those that a LoadBalancer frontend
links to. -/
def ServiceLoadBalancerFrontend.LinksFirst (loadBalanced : ServiceLoadBalancerFrontend)
    (frontends : List ServiceFrontend) (frontend : ServiceFrontend) : Prop :=
  frontend ∈ frontends ∧ loadBalanced.links frontend = true ∧
    ∀ other ∈ frontends, loadBalanced.links other = true → frontend.address ≤ other.address

theorem find?_sort_frontends_eq_some_iff {frontends : List ServiceFrontend}
    (distinct : (frontends.map key).Nodup)
    {loadBalanced : ServiceLoadBalancerFrontend} {linked : ServiceFrontend} :
    (sort (frontends.map ServiceFrontend.normalized)).find? loadBalanced.links = some linked ↔
      ∃ frontend, loadBalanced.LinksFirst frontends frontend ∧ linked = frontend.normalized := by
  rw [find?_sort_eq_some_iff]
  constructor
  · rintro ⟨member, links, least⟩
    obtain ⟨frontend, frontendMember, rfl⟩ := mem_map.mp member
    refine ⟨frontend, ⟨frontendMember, links, fun other otherMember otherLinks => ?_⟩, rfl⟩
    have addresses := address_le_of_le (least other.normalized
      (mem_map.mpr ⟨other, otherMember, rfl⟩) otherLinks)
    exact addresses
  · rintro ⟨frontend, ⟨member, links, least⟩, rfl⟩
    refine ⟨mem_map.mpr ⟨frontend, member, rfl⟩, links, fun item itemMember itemLinks => ?_⟩
    obtain ⟨other, otherMember, rfl⟩ := mem_map.mp itemMember
    rcases (least other otherMember itemLinks).lt_or_eq with less | same
    · exact le_of_address_lt less
    · have sameIdentity : frontend.identity = other.identity :=
        (links_iff.mp links).trans (links_iff.mp itemLinks).symm
      have sameFrontend := inj_on_of_nodup_map distinct member otherMember
        (key_eq_of_identity_eq sameIdentity same)
      exact (congrArg ServiceFrontend.normalized sameFrontend).le

/-- Every LoadBalancer frontend carries the references of the ClusterIP frontend of the
least address among those it links to. -/
def ServiceIr.LinksStable : Prop :=
  ∀ loadBalanced ∈ service.loadBalancerFrontends, ∀ frontend,
    loadBalanced.LinksFirst service.frontends frontend →
      loadBalanced.backendIds.Perm frontend.backendIds

/-! ## Validity of the canonical order -/

section Service

variable {clusterIpAddresses : ExtTreeSet IpAddr} {service : ServiceIr}
  {frontends : List ServiceFrontend}

theorem ServiceFrontend.valid_normalized_iff {frontend : ServiceFrontend} :
    frontend.normalized.Valid ↔ frontend.Valid := by
  simp only [valid_iff, ServiceFrontend.normalized]

theorem ServiceNodePort.valid_normalized_iff {nodePort : ServiceNodePort} :
    nodePort.normalized.Valid ↔ nodePort.Valid := by
  simp only [valid_iff, ServiceNodePort.normalized]

theorem ServiceBackend.valid_normalized_iff {backend : ServiceBackend} :
    backend.normalized.Valid ↔ backend.Valid := by
  simp only [ServiceBackend.valid_iff, ServiceBackend.normalized, ne_eq, sortDedup_eq_nil_iff,
    sortDedup_sortDedup, mem_sortDedup]

/-- References are as valid as before when they and the backends are reordered. -/
theorem validReferences_normalized_iff {backends : List ServiceBackend}
    {family : AddressFamily} {protocol : Protocol} {backendIds : List BackendId} :
    ValidReferences (sort (backends.map ServiceBackend.normalized)) family protocol
        (sort backendIds) ↔ ValidReferences backends family protocol backendIds := by
  simp [validReferences_iff, ServiceBackend.normalized]

theorem ServiceLoadBalancerFrontend.valid_normalized_iff {families : List AddressFamily}
    {frontend : ServiceLoadBalancerFrontend} :
    frontend.normalized.Valid (sort families) ↔ frontend.Valid families := by
  simp only [valid_iff, ServiceLoadBalancerFrontend.normalized, mem_sort]

/-- Of the frontends that a LoadBalancer frontend links to, one has the least address. -/
theorem exists_linksFirst (distinct : (frontends.map key).Nodup)
    {loadBalanced : ServiceLoadBalancerFrontend} {linked : ServiceFrontend}
    (found : frontends.find? loadBalanced.links = some linked) :
    ∃ frontend, loadBalanced.LinksFirst frontends frontend := by
  have links : loadBalanced.links linked = true := find?_some found
  have present : ((sort (frontends.map ServiceFrontend.normalized)).find?
      loadBalanced.links).isSome = true := by
    rw [find?_isSome]
    exact ⟨linked.normalized, mem_sort.mpr (mem_map.mpr
      ⟨linked, mem_of_find?_eq_some found, rfl⟩), links⟩
  obtain ⟨first, firstFound⟩ := Option.isSome_iff_exists.mp present
  obtain ⟨frontend, linksFirst, -⟩ := (find?_sort_frontends_eq_some_iff distinct).mp firstFound
  exact ⟨frontend, linksFirst⟩

variable {loadBalancer : ServiceLoadBalancer}

/-- All checks of a LoadBalancer but that of its links are the same after sorting. -/
theorem ServiceLoadBalancer.valid_normalized_iff_of_linked
    (linked : (∀ frontend ∈ loadBalancer.normalized.frontends, ∃ linked,
        (sort (frontends.map ServiceFrontend.normalized)).find? frontend.links = some linked ∧
          sort frontend.backendIds = sort linked.backendIds) ↔
      ∀ frontend ∈ loadBalancer.frontends, ∃ linked, frontends.find? frontend.links = some linked ∧
          sort frontend.backendIds = sort linked.backendIds) :
    loadBalancer.normalized.Valid clusterIpAddresses
        (sort (frontends.map ServiceFrontend.normalized)) ↔
      loadBalancer.Valid clusterIpAddresses frontends := by
  have requestedFamilies : ((sort loadBalancer.requestedIps).map IpAddr.family).Nodup ↔
      (loadBalancer.requestedIps.map IpAddr.family).Nodup :=
    ((sort_perm _).map _).nodup_iff
  have identities : (loadBalancer.normalized.frontends.map
      ServiceLoadBalancerFrontend.identity).Perm
        (loadBalancer.frontends.map ServiceLoadBalancerFrontend.identity) :=
    map_sort_map_perm _ ServiceLoadBalancerFrontend.normalized (fun _ => rfl) _
  have covering (identity : LoadBalancerFrontendIdentity) :
      (∃ frontend ∈ sort (frontends.map ServiceFrontend.normalized),
          frontend.address.family ∈ loadBalancer.normalized.ipFamilies ∧
            frontend.identity = identity) ↔
        ∃ frontend ∈ frontends, frontend.address.family ∈ loadBalancer.ipFamilies ∧
          frontend.identity = identity := by
    simp [ServiceLoadBalancer.normalized, ServiceFrontend.normalized, ServiceFrontend.identity]
  have nonempty : sort loadBalancer.ipFamilies = [] ↔ loadBalancer.ipFamilies = [] := by
    rw [← length_eq_zero_iff, length_sort, length_eq_zero_iff]
  rw [ServiceLoadBalancer.valid_iff, ServiceLoadBalancer.valid_iff, linked, identities.nodup_iff]
  simp only [identities.mem_iff, covering]
  simp only [ServiceLoadBalancer.normalized, ne_eq, nonempty, length_sort, nodup_sort, mem_sort,
    requestedFamilies, forall_mem_map, ServiceLoadBalancerFrontend.valid_normalized_iff]

theorem ServiceLoadBalancer.valid_normalized_iff (distinct : (frontends.map key).Nodup)
    (valid : loadBalancer.Valid clusterIpAddresses frontends) :
    loadBalancer.normalized.Valid clusterIpAddresses
        (sort (frontends.map ServiceFrontend.normalized)) ↔
      ∀ loadBalanced ∈ loadBalancer.frontends, ∀ frontend,
        loadBalanced.LinksFirst frontends frontend →
          loadBalanced.backendIds.Perm frontend.backendIds := by
  constructor
  · intro normalizedValid loadBalanced member frontend linksFirst
    obtain ⟨linked, found, same⟩ := normalizedValid.linked loadBalanced.normalized
      (mem_sort.mpr (mem_map_of_mem member))
    have own := (find?_sort_frontends_eq_some_iff distinct).mpr ⟨frontend, linksFirst, rfl⟩
    obtain rfl := Option.some.inj (found.symm.trans own)
    have sorted : sort loadBalanced.backendIds = sort frontend.backendIds := by
      simpa [ServiceLoadBalancerFrontend.normalized, ServiceFrontend.normalized] using same
    exact perm_of_sort_eq sorted
  · intro stable
    refine (ServiceLoadBalancer.valid_normalized_iff_of_linked
      ⟨fun _ => valid.linked, fun _ frontend member => ?_⟩).mpr valid
    obtain ⟨original, originalMember, rfl⟩ := mem_map.mp (mem_sort.mp member)
    obtain ⟨_, found, -⟩ := valid.linked original originalMember
    obtain ⟨first, linksFirst⟩ := exists_linksFirst distinct found
    refine ⟨first.normalized, (find?_sort_frontends_eq_some_iff distinct).mpr
      ⟨first, linksFirst, rfl⟩, ?_⟩
    simpa [ServiceLoadBalancerFrontend.normalized, ServiceFrontend.normalized] using
      sort_eq_of_perm (stable original originalMember first linksFirst)

/-- All checks of a service but those of its LoadBalancer are the same after sorting. -/
theorem ServiceIr.valid_normalized_iff_of_loadBalancer
    (loadBalancer : (∀ loadBalancer, service.normalized.loadBalancer = some loadBalancer →
        loadBalancer.Valid clusterIpAddresses service.normalized.frontends) ↔
      ∀ loadBalancer, service.loadBalancer = some loadBalancer →
        loadBalancer.Valid clusterIpAddresses service.frontends) :
    service.normalized.Valid clusterIpAddresses ↔ service.Valid clusterIpAddresses := by
  have present : sort (service.frontends.map ServiceFrontend.normalized) = [] ↔
      service.frontends = [] := by
    rw [← length_eq_zero_iff, length_sort, length_map, length_eq_zero_iff]
  have frontendKeys : (service.normalized.frontends.map key).Nodup ↔
      (service.frontends.map key).Nodup :=
    (map_sort_map_perm _ ServiceFrontend.normalized (fun _ => rfl) _).nodup_iff
  have nodePortKeys : (service.normalized.nodePorts.map exactKey).Nodup ↔
      (service.nodePorts.map exactKey).Nodup :=
    (map_sort_map_perm _ ServiceNodePort.normalized (fun _ => rfl) _).nodup_iff
  have backendIds : (service.normalized.backends.map ServiceBackend.id).Nodup ↔
      (service.backends.map ServiceBackend.id).Nodup :=
    (map_sort_map_perm _ ServiceBackend.normalized (fun _ => rfl) _).nodup_iff
  have endpoints : (service.normalized.backends.map ServiceBackend.endpoint).Nodup ↔
      (service.backends.map ServiceBackend.endpoint).Nodup :=
    (map_sort_map_perm _ ServiceBackend.normalized (fun _ => rfl) _).nodup_iff
  have links (nodePort : ServiceNodePort) :
      (sort (service.frontends.map ServiceFrontend.normalized)).any
          nodePort.normalized.links = true ↔
        service.frontends.any nodePort.links = true := by
    rw [(sort_perm _).any_eq, any_map]
    rfl
  have dsr : service.normalized.DsrValid ↔ service.DsrValid := by
    cases balanced : service.loadBalancer <;>
      simp [ServiceIr.DsrValid, ServiceIr.normalized, ServiceLoadBalancer.normalized,
        ServiceLoadBalancerFrontend.normalized, ServiceBackend.normalized]
  rw [valid_iff, valid_iff, loadBalancer, frontendKeys, nodePortKeys, backendIds, endpoints, dsr]
  simp only [ServiceIr.normalized, ne_eq, present, length_sort, length_map, mem_sort,
    forall_mem_map, ServiceFrontend.valid_normalized_iff,
    ServiceNodePort.valid_normalized_iff, ServiceBackend.valid_normalized_iff, links]
  simp only [ServiceFrontend.normalized, ServiceNodePort.normalized, validReferences_normalized_iff]

theorem ServiceIr.valid_normalized_iff (valid : service.Valid clusterIpAddresses) :
    service.normalized.Valid clusterIpAddresses ↔ service.LinksStable := by
  have loadBalancer_iff : (∀ loadBalancer, service.normalized.loadBalancer = some loadBalancer →
          loadBalancer.Valid clusterIpAddresses service.normalized.frontends) ↔
        service.LinksStable := by
    cases balanced : service.loadBalancer with
    | none => simp [ServiceIr.normalized, ServiceIr.LinksStable, loadBalancerFrontends, balanced]
    | some loadBalancer =>
      simpa [ServiceIr.normalized, ServiceIr.LinksStable, loadBalancerFrontends, balanced] using
        ServiceLoadBalancer.valid_normalized_iff valid.frontendKeys
          (valid.loadBalancer loadBalancer balanced)
  constructor
  · intro normalizedValid
    exact loadBalancer_iff.mp normalizedValid.loadBalancer
  · intro stable
    exact (valid_normalized_iff_of_loadBalancer
      ⟨fun _ => valid.loadBalancer, fun _ => loadBalancer_iff.mpr stable⟩).mpr valid

end Service

/-! ## Snapshots of the same services -/

/-- The changed service claims nothing that the original one does not. -/
structure ServiceIr.Within (changed original : ServiceIr) : Prop where
  id : changed.id = original.id
  provenance : changed.provenance = original.provenance
  frontendKeys : (changed.frontends.map ServiceFrontend.key).Perm
    (original.frontends.map ServiceFrontend.key)
  nodePortKeys : ∀ key ∈ changed.nodePorts.map ServiceNodePort.ownerKey,
    key ∈ original.nodePorts.map ServiceNodePort.ownerKey
  requestedIps : ∀ address ∈ changed.requestedIps, address ∈ original.requestedIps
  nodePorts : changed.nodePorts.length ≤ original.nodePorts.length
  loadBalancerFrontends :
    changed.loadBalancerFrontends.length ≤ original.loadBalancerFrontends.length
  backends : changed.backends.length ≤ original.backends.length
  backendReferences : changed.backendReferences ≤ original.backendReferences

namespace ServiceIr

theorem Within.frontends {changed original : ServiceIr} (within : changed.Within original) :
    changed.frontends.length = original.frontends.length := by
  simpa using within.frontendKeys.length_eq

theorem Within.trans {first second third : ServiceIr} (inner : first.Within second)
    (outer : second.Within third) : first.Within third where
  id := inner.id.trans outer.id
  provenance := inner.provenance.trans outer.provenance
  frontendKeys := inner.frontendKeys.trans outer.frontendKeys
  nodePortKeys key member := outer.nodePortKeys key (inner.nodePortKeys key member)
  requestedIps address member := outer.requestedIps address (inner.requestedIps address member)
  nodePorts := inner.nodePorts.trans outer.nodePorts
  loadBalancerFrontends := inner.loadBalancerFrontends.trans outer.loadBalancerFrontends
  backends := inner.backends.trans outer.backends
  backendReferences := inner.backendReferences.trans outer.backendReferences

theorem Within.separate {changedLeft changedRight left right : ServiceIr}
    (withinLeft : changedLeft.Within left) (withinRight : changedRight.Within right)
    (separate : left.Separate right) : changedLeft.Separate changedRight where
  id := by
    rw [withinLeft.id, withinRight.id]
    exact separate.id
  provenance := by
    rw [withinLeft.provenance, withinRight.provenance]
    exact separate.provenance
  frontends first firstMember second secondMember same := by
    obtain ⟨left, leftMember, leftKey⟩ := mem_map.mp
      (withinLeft.frontendKeys.mem_iff.mp (mem_map_of_mem firstMember))
    obtain ⟨right, rightMember, rightKey⟩ := mem_map.mp
      (withinRight.frontendKeys.mem_iff.mp (mem_map_of_mem secondMember))
    exact separate.frontends left leftMember right rightMember
      (leftKey.trans (same.trans rightKey.symm))
  nodePorts first firstMember second secondMember same := by
    obtain ⟨left, leftMember, leftKey⟩ := mem_map.mp
      (withinLeft.nodePortKeys _ (mem_map_of_mem firstMember))
    obtain ⟨right, rightMember, rightKey⟩ := mem_map.mp
      (withinRight.nodePortKeys _ (mem_map_of_mem secondMember))
    exact separate.nodePorts left leftMember right rightMember
      (leftKey.trans (same.trans rightKey.symm))
  requestedIps address requested otherRequested :=
    separate.requestedIps address (withinLeft.requestedIps address requested)
      (withinRight.requestedIps address otherRequested)

theorem Separate.symm {left right : ServiceIr} (separate : left.Separate right) :
    right.Separate left where
  id := separate.id.symm
  provenance := separate.provenance.symm
  frontends first firstMember second secondMember same :=
    separate.frontends second secondMember first firstMember same.symm
  nodePorts first firstMember second secondMember same :=
    separate.nodePorts second secondMember first firstMember same.symm
  requestedIps address requested otherRequested :=
    separate.requestedIps address otherRequested requested

/-- Sorting a service changes nothing of what it claims. -/
theorem within_normalized_and :
    service.normalized.Within service ∧ service.Within service.normalized := by
  have frontendKeys : (service.normalized.frontends.map key).Perm (service.frontends.map key) :=
    map_sort_map_perm _ ServiceFrontend.normalized (fun _ => rfl) _
  have nodePortKeys : (service.normalized.nodePorts.map ownerKey).Perm
      (service.nodePorts.map ownerKey) :=
    map_sort_map_perm _ ServiceNodePort.normalized (fun _ => rfl) _
  have requestedIps (address : IpAddr) :
      address ∈ service.normalized.requestedIps ↔ address ∈ service.requestedIps := by
    cases balanced : service.loadBalancer <;> simp [requestedIps,
      ServiceIr.normalized, balanced, ServiceLoadBalancer.normalized]
  have nodePorts : service.normalized.nodePorts.length = service.nodePorts.length := by
    simp [ServiceIr.normalized]
  have loadBalancerFrontends : service.normalized.loadBalancerFrontends.length =
      service.loadBalancerFrontends.length := by
    cases balanced : service.loadBalancer <;> simp [loadBalancerFrontends,
      ServiceIr.normalized, balanced, ServiceLoadBalancer.normalized]
  have backends : service.normalized.backends.length = service.backends.length := by
    simp [ServiceIr.normalized]
  exact ⟨⟨rfl, rfl, frontendKeys, fun _ => nodePortKeys.mem_iff.mp,
      fun address => (requestedIps address).mp, nodePorts.le, loadBalancerFrontends.le,
      backends.le, service.backendReferences_normalized.le⟩,
    ⟨rfl, rfl, frontendKeys.symm, fun _ => nodePortKeys.mem_iff.mpr,
      fun address => (requestedIps address).mpr, nodePorts.ge, loadBalancerFrontends.ge,
      backends.ge, service.backendReferences_normalized.ge⟩⟩

theorem within_normalized : service.normalized.Within service :=
  service.within_normalized_and.1

theorem within_of_normalized : service.Within service.normalized :=
  service.within_normalized_and.2

end ServiceIr

/-- Services in another order, each with no more than before, are together within the
bounds. -/
theorem CapacitiesValid.of_perm {base services changed : List ServiceIr}
    {before after : ServiceIr → ServiceIr}
    (within : ∀ service, (after service).Within (before service))
    (perm : services.Perm (base.map before)) (changedPerm : changed.Perm (base.map after))
    (valid : CapacitiesValid services) : CapacitiesValid changed := by
  have bounded {count : ServiceIr → Nat}
      (le : ∀ service, count (after service) ≤ count (before service)) :
      (changed.map count).sum ≤ (services.map count).sum := by
    rw [(changedPerm.map count).sum_eq, (perm.map count).sum_eq, map_map, map_map]
    exact sum_le_sum fun service _ => le service
  exact ⟨(bounded fun service => (within service).frontends.le).trans valid.frontends,
    (bounded fun service => (within service).nodePorts).trans valid.nodePorts,
    (bounded fun service => (within service).loadBalancerFrontends).trans
      valid.loadBalancerFrontends,
    (bounded fun service => (within service).backends).trans valid.backends,
    (bounded fun service => (within service).backendReferences).trans valid.backendReferences⟩

namespace ServiceSnapshot

variable {snapshot : ServiceSnapshot}

theorem mem_clusterIpAddresses {address : IpAddr} : address ∈ snapshot.clusterIpAddresses ↔
      ∃ service ∈ snapshot.services, ∃ frontend ∈ service.frontends,
        frontend.address = address := by
  simp [clusterIpAddresses]

section Changed

variable {snapshot changed : ServiceSnapshot} {base : List ServiceIr}
  {before after : ServiceIr → ServiceIr}
  (within : ∀ service, (after service).Within (before service))
  (perm : snapshot.services.Perm (base.map before))
  (changedPerm : changed.services.Perm (base.map after))

include within perm changedPerm

theorem clusterIpAddresses_of_perm : changed.clusterIpAddresses = snapshot.clusterIpAddresses := by
  have addresses_iff (service : ServiceIr) (address : IpAddr) :
      (∃ frontend ∈ (after service).frontends, frontend.address = address) ↔
        ∃ frontend ∈ (before service).frontends, frontend.address = address := by
    have addresses := (within service).frontendKeys.map fun key => (ofLex key).1
    simpa [key] using addresses.mem_iff (a := address)
  apply ExtTreeSet.ext_mem
  intro address
  simp only [mem_clusterIpAddresses, perm.mem_iff, changedPerm.mem_iff, mem_map,
    exists_exists_and_eq_and, addresses_iff]

/-- A valid snapshot whose services are reordered and claim no more is valid when its
schema and every one of its services are. -/
theorem Valid.of_perm (valid : snapshot.Valid)
    (schema : changed.SchemaValid) (sourceEpoch : changed.sourceEpoch = snapshot.sourceEpoch)
    (revision : changed.revision = snapshot.revision)
    (services : ∀ service ∈ base, (after service).Valid snapshot.clusterIpAddresses) :
    changed.Valid where
  schema := schema
  sourceEpoch := by
    rw [sourceEpoch]
    exact valid.sourceEpoch
  revision := by
    rw [revision]
    exact valid.revision
  bounded := by
    rw [changedPerm.length_eq, length_map, ← length_map (f := before), ← perm.length_eq]
    exact valid.bounded
  services service member := by
    obtain ⟨original, originalMember, rfl⟩ := mem_map.mp (changedPerm.mem_iff.mp member)
    rw [clusterIpAddresses_of_perm within perm changedPerm]
    exact services original originalMember
  separate := by
    have separate := (perm.pairwise_iff fun separate =>
      ServiceIr.Separate.symm separate).mp valid.separate
    apply (changedPerm.pairwise_iff fun separate => ServiceIr.Separate.symm separate).mpr
    rw [pairwise_map] at separate ⊢
    exact separate.imp fun separate => (within _).separate (within _) separate
  capacities := valid.capacities.of_perm within perm changedPerm

end Changed

def LinksStable (snapshot : ServiceSnapshot) : Prop :=
  ∀ service ∈ snapshot.services, service.LinksStable

theorem services_normalized_perm (snapshot : ServiceSnapshot) :
    snapshot.normalized.services.Perm (snapshot.services.map ServiceIr.normalized) :=
  sortByKey_perm _ _

theorem schemaValid_of_current (current : snapshot.schemaVersion = serviceSnapshotSchemaVersion) :
    snapshot.SchemaValid := by
  constructor <;> simp [current, legacyServiceSnapshotSchemaVersion,
    nodePortServiceSnapshotSchemaVersion, loadBalancerServiceSnapshotSchemaVersion,
    serviceSnapshotSchemaVersion]

/-- The canonical order of a valid snapshot is valid exactly when sorting leaves every
LoadBalancer frontend with a ClusterIP frontend of the same references. -/
theorem valid_normalized_iff (valid : snapshot.Valid) :
    snapshot.normalized.Valid ↔ snapshot.LinksStable := by
  have perm := snapshot.services_normalized_perm
  constructor
  · intro normalizedValid service member
    rw [← ServiceIr.valid_normalized_iff (valid.services service member),
      ← clusterIpAddresses_of_perm ServiceIr.within_normalized (.of_eq (by simp)) perm]
    exact normalizedValid.services service.normalized (perm.mem_iff.mpr (mem_map_of_mem member))
  · intro stable
    apply valid.of_perm ServiceIr.within_normalized (.of_eq (by simp)) perm
      (schemaValid_of_current rfl) rfl rfl
    intro service member
    exact (ServiceIr.valid_normalized_iff (valid.services service member)).mpr
      (stable service member)

end ServiceSnapshot

theorem ServiceSnapshot.Valid.distinct {snapshot : ServiceSnapshot} (valid : snapshot.Valid) :
    (snapshot.services.map ServiceIr.id).Nodup :=
  pairwise_map.mpr (valid.separate.imp ServiceIr.Separate.id)

/-! ## Validity before sorting -/

/-- Every LoadBalancer frontend carries the references of every ClusterIP frontend that
it links to, so that it does not matter which one comes first. -/
def ServiceIr.LinksUniform : Prop :=
  ∀ loadBalanced ∈ service.loadBalancerFrontends, ∀ frontend ∈ service.frontends,
    loadBalanced.links frontend = true → loadBalanced.backendIds.Perm frontend.backendIds

theorem ServiceIr.LinksUniform.linksStable {service : ServiceIr}
    (uniform : service.LinksUniform) : service.LinksStable :=
  fun loadBalanced member frontend linksFirst =>
    uniform loadBalanced member frontend linksFirst.1 linksFirst.2.1

section OfNormalized

variable {clusterIpAddresses : ExtTreeSet IpAddr}

theorem ServiceLoadBalancer.valid_of_normalized {frontends : List ServiceFrontend}
    {loadBalancer : ServiceLoadBalancer} (valid : loadBalancer.normalized.Valid clusterIpAddresses
      (sort (frontends.map ServiceFrontend.normalized)))
    (uniform : ∀ loadBalanced ∈ loadBalancer.frontends, ∀ frontend ∈ frontends,
      loadBalanced.links frontend = true → loadBalanced.backendIds.Perm frontend.backendIds) :
    loadBalancer.Valid clusterIpAddresses frontends := by
  refine (ServiceLoadBalancer.valid_normalized_iff_of_linked
    ⟨fun _ frontend member => ?_, fun _ => valid.linked⟩).mp valid
  obtain ⟨_, found, -⟩ := valid.linked frontend.normalized (mem_sort.mpr (mem_map_of_mem member))
  obtain ⟨linked, linkedMember, links⟩ :
      ∃ linked ∈ frontends, frontend.links linked = true := by
    obtain ⟨linked, linkedMember, rfl⟩ := mem_map.mp (mem_sort.mp (mem_of_find?_eq_some found))
    have links := find?_some found
    exact ⟨linked, linkedMember, links⟩
  obtain ⟨first, firstFound⟩ := Option.isSome_iff_exists.mp
    (find?_isSome.mpr ⟨linked, linkedMember, links⟩)
  exact ⟨first, firstFound, sort_eq_of_perm (uniform frontend member first
    (mem_of_find?_eq_some firstFound) (find?_some firstFound))⟩

theorem ServiceIr.valid_of_normalized {service : ServiceIr}
    (valid : service.normalized.Valid clusterIpAddresses) (uniform : service.LinksUniform) :
    service.Valid clusterIpAddresses := by
  refine (valid_normalized_iff_of_loadBalancer
    ⟨fun _ loadBalancer balanced => ?_, fun _ => valid.loadBalancer⟩).mp valid
  refine ServiceLoadBalancer.valid_of_normalized (valid.loadBalancer _ (by
    simp [ServiceIr.normalized, balanced])) fun loadBalanced member => ?_
  exact uniform loadBalanced (by simpa [loadBalancerFrontends, balanced])

/-- A snapshot is valid when its canonical order is and the links of its LoadBalancers do
not depend on the order. -/
theorem ServiceSnapshot.valid_of_normalized {snapshot : ServiceSnapshot}
    (schema : snapshot.SchemaValid) (valid : snapshot.normalized.Valid)
    (uniform : ∀ service ∈ snapshot.services, service.LinksUniform) : snapshot.Valid := by
  have perm := snapshot.services_normalized_perm
  have within := ServiceIr.within_of_normalized
  apply valid.of_perm within perm (.of_eq (by simp)) schema rfl rfl
  intro service member
  exact ServiceIr.valid_of_normalized (valid.services service.normalized
    (perm.mem_iff.mpr (mem_map_of_mem member))) (uniform service member)

end OfNormalized

end Unf.Service
