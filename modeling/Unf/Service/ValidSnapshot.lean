import Unf.Service.Valid

/-!
# Accepted service snapshots

The validation of a whole snapshot: what it has claimed after the services seen so
far, and that it accepts exactly the valid snapshots.
-/

namespace Unf.Service

open Std (ExtTreeMap ExtTreeSet)
open Unf.Lib List ServiceIr

/-! ## One service -/

/-- The service takes nothing that the services seen so far have claimed. -/
@[mk_iff]
structure ValidationState.Admits (state : ValidationState) (service : ServiceIr) : Prop where
  id : service.id ∉ state.serviceIds
  provenance : service.provenance ∉ state.serviceNames
  frontends : ∀ frontend ∈ service.frontends, frontend.key ∉ state.frontendOwners
  nodePorts : ∀ nodePort ∈ service.nodePorts, ∀ existing,
    state.nodePortOwners[nodePort.ownerKey]? = some existing → existing = service.id
  requestedIps : ∀ address ∈ service.requestedIps, ∀ existing,
    state.loadBalancerAddressOwners[address]? = some existing → existing = service.id

/-- The state after one more service. -/
def ValidationState.claim (state : ValidationState) (service : ServiceIr) :
    ValidationState where
  serviceIds := state.serviceIds.insert service.id
  serviceNames := state.serviceNames.insert service.provenance
  frontendOwners := service.frontends.foldl (fun owners frontend =>
    owners.insert frontend.key service.id) state.frontendOwners
  nodePortOwners := service.nodePorts.foldl (fun owners nodePort =>
    owners.insert nodePort.ownerKey service.id) state.nodePortOwners
  loadBalancerAddressOwners := (sort service.requestedIps).foldl (fun owners address =>
    owners.insert address service.id) state.loadBalancerAddressOwners
  totals := state.totals.add service.checked

variable {clusterIpAddresses : ExtTreeSet IpAddr}
  {service : ServiceIr} {totals : SnapshotTotals} {services : List ServiceIr}
  {snapshot : ServiceSnapshot} {result : Unit}

theorem validateServiceLoadBalancer_eq_ok {owners : ExtTreeMap IpAddr ServiceId}
    {result : ServiceIr × ExtTreeMap IpAddr ServiceId} :
    validateServiceLoadBalancer service.referencesSorted clusterIpAddresses owners = .ok result ↔
      ((∀ loadBalancer, service.loadBalancer = some loadBalancer →
          loadBalancer.Valid clusterIpAddresses service.frontends) ∧
        ∀ address ∈ service.requestedIps, ∀ existing,
          owners[address]? = some existing → existing = service.id) ∧
      result = (service.checked, (sort service.requestedIps).foldl
        (fun owners address => owners.insert address service.id) owners) := by
  have kept : service.referencesSorted.loadBalancer = service.loadBalancer := rfl
  rw [validateServiceLoadBalancer, kept]
  cases balanced : service.loadBalancer with
  | none =>
    have unchanged : service.checked = service.referencesSorted := by
      simp [checked, referencesSorted, balanced]
    have unrequested : service.requestedIps = [] := by
      simp [requestedIps, balanced]
    simp [unrequested, unchanged, sort, eq_comm (a := result)]
  | some loadBalancer =>
    simp only [eq_ok_iffs, referencesSorted, validateAndNormalizeLoadBalancer_eq_ok,
      requestedIps, balanced, Option.elim_some, Option.some.injEq, forall_eq', and_assoc,
      exists_and_left, exists_eq_left, checked, Option.map_some, eq_comm (a := result)]

theorem validateService_eq_ok {state : ValidationState} {result : ValidationState × ServiceIr} :
    validateService clusterIpAddresses state service = .ok result ↔
      (service.Valid clusterIpAddresses ∧ state.Admits service) ∧
        result = (state.claim service, service.normalized) := by
  simp only [validateService, bind_eq_ok, Prod.exists, failIf_eq_ok, exists_const,
    validateServiceIdentity_eq_ok, validateSessionAffinity_eq_ok, eq_false_iffs, gt_iff_lt,
    foldlM_admitNodePort_eq_ok, foldlM_admitFrontend_eq_ok, foldl_claimNodePort, pure_eq_ok,
    eq_comm (a := result)]
  constructor
  · rintro ⟨_, _, ⟨⟨identified, «namespace», name, newId, newName⟩, same⟩, affinity, present,
      bounded, _, _, ⟨nodePorts, nodePortKeys, sameOwners⟩, _,
      ⟨frontends, frontendKeys, rfl⟩, _, backendsDone, _, frontendBackendsDone, _,
      nodePortBackendsDone, _, _, balanced, _, direct, rfl⟩
    obtain ⟨rfl, rfl⟩ := Prod.mk.inj same
    obtain ⟨-, rfl⟩ := Prod.mk.inj sameOwners
    obtain ⟨backends, backendIds, endpoints⟩ := validateBackends_eq_ok.mp backendsDone
    have frontendBackends := (validateFrontendBackends_eq_ok backendIds).mp
      frontendBackendsDone
    have nodePortBackends := (validateNodePortBackends_eq_ok backendIds).mp
      nodePortBackendsDone
    obtain ⟨⟨loadBalancer, requestedIps⟩, sameBalanced⟩ :=
      validateServiceLoadBalancer_eq_ok.mp balanced
    obtain ⟨rfl, rfl⟩ := Prod.mk.inj sameBalanced
    have dsr := (validateDsrContract_eq_ok backendIds).mp direct
    refine ⟨⟨?_, newId, newName, fun frontend member => (frontends frontend member).2,
      fun nodePort member => (nodePorts nodePort member).2, requestedIps⟩, rfl⟩
    exact ⟨identified, «namespace», name, affinity, present, bounded,
      fun frontend member => (frontends frontend member).1, frontendKeys,
      fun nodePort member => (nodePorts nodePort member).1, nodePortKeys,
      fun nodePort member => (nodePortBackends nodePort member).1, backends, backendIds,
      endpoints, frontendBackends, fun nodePort member => (nodePortBackends nodePort member).2,
      loadBalancer, dsr⟩
  · rintro ⟨⟨valid, admitted⟩, rfl⟩
    refine ⟨_, _, ⟨⟨valid.identified, valid.namespace, valid.name, admitted.id,
      admitted.provenance⟩, rfl⟩, valid.affinity, valid.frontendsPresent,
      valid.backendsBounded, _, _, ⟨fun nodePort member => ⟨valid.nodePorts nodePort member,
        admitted.nodePorts nodePort member⟩, valid.nodePortKeys, rfl⟩, _,
      ⟨fun frontend member => ⟨valid.frontends frontend member,
        admitted.frontends frontend member⟩, valid.frontendKeys, rfl⟩, (), ?_, (), ?_, (), ?_,
      _, _, validateServiceLoadBalancer_eq_ok.mpr
        ⟨⟨valid.loadBalancer, admitted.requestedIps⟩, rfl⟩, (), ?_, rfl⟩
    · exact validateBackends_eq_ok.mpr ⟨valid.backends, valid.backendIds, valid.endpoints⟩
    · exact (validateFrontendBackends_eq_ok valid.backendIds).mpr valid.frontendBackends
    · exact (validateNodePortBackends_eq_ok valid.backendIds).mpr fun nodePort member =>
        ⟨valid.nodePortLinks nodePort member, valid.nodePortBackends nodePort member⟩
    · exact (validateDsrContract_eq_ok valid.backendIds).mpr valid.dsr

/-! ## Claims of several services -/

/-- The owners of keys that services have claimed. -/
structure OwnersOf {κ : Type} [LinearOrder κ] (owners : ExtTreeMap κ ServiceId)
    (services : List ServiceIr) (keys : ServiceIr → List κ) : Prop where
  mem_iff : ∀ key, key ∈ owners ↔ ∃ service ∈ services, key ∈ keys service
  owned : ∀ (key : κ) owner, owners[key]? = some owner → ∃ service ∈ services, service.id = owner

section Owners

variable {κ : Type} [LinearOrder κ] {owners : ExtTreeMap κ ServiceId}
  {services : List ServiceIr} {keys : ServiceIr → List κ}

theorem OwnersOf.empty (keys : ServiceIr → List κ) : OwnersOf ∅ [] keys := by
  constructor <;> simp

theorem OwnersOf.claim {α : Type} {claimKey : α → κ} {items : List α} {service : ServiceIr}
    (represents : OwnersOf owners services keys)
    (claimed : ∀ key, key ∈ items.map claimKey ↔ key ∈ keys service) :
    OwnersOf (items.foldl (fun owners item => owners.insert (claimKey item) service.id) owners)
      (services ++ [service]) keys := by
  constructor
  · intro key
    rw [mem_foldl_insert_values, represents.mem_iff, ← mem_map, claimed]
    simp
  · intro key owner found
    rw [getElem?_foldl_insert] at found
    split at found
    · exact ⟨service, by simp, Option.some.inj found⟩
    · obtain ⟨earlier, member, same⟩ := represents.owned key owner found
      exact ⟨earlier, mem_append_left _ member, same⟩

/-- A service that none of the owners is finds its keys free or not at all. -/
theorem OwnersOf.forall_owner_iff {service : ServiceIr} (represents : OwnersOf owners services keys)
    (foreign : ∀ earlier ∈ services, earlier.id ≠ service.id) (key : κ) :
    (∀ existing, owners[key]? = some existing → existing = service.id) ↔
      ∀ earlier ∈ services, key ∉ keys earlier := by
  have absent_iff : (∀ existing, owners[key]? = some existing → existing = service.id) ↔
      key ∉ owners := by
    constructor
    · intro own present
      obtain ⟨existing, found⟩ := Option.isSome_iff_exists.mp
        (ExtTreeMap.isSome_getElem?_iff_mem.mpr present)
      obtain ⟨earlier, member, same⟩ := represents.owned key existing found
      exact foreign earlier member (same.trans (own existing found))
    · intro absent existing found
      rw [ExtTreeMap.getElem?_eq_none absent] at found
      cases found
  rw [absent_iff, represents.mem_iff]
  simp

end Owners

/-- The state holds exactly what the services have claimed. -/
structure ValidationState.Represents (state : ValidationState) (services : List ServiceIr) :
    Prop where
  ids : ∀ id, id ∈ state.serviceIds ↔ ∃ service ∈ services, service.id = id
  names : ∀ name, name ∈ state.serviceNames ↔ ∃ service ∈ services, service.provenance = name
  frontends : OwnersOf state.frontendOwners services fun service =>
    service.frontends.map ServiceFrontend.key
  nodePorts : OwnersOf state.nodePortOwners services fun service =>
    service.nodePorts.map ServiceNodePort.ownerKey
  requestedIps : OwnersOf state.loadBalancerAddressOwners services ServiceIr.requestedIps
  totals : state.totals = (services.map ServiceIr.checked).foldl SnapshotTotals.add .zero

namespace ValidationState

variable {state : ValidationState} {services : List ServiceIr} {service : ServiceIr}

theorem represents_initial : ValidationState.initial.Represents [] where
  ids := by simp [initial]
  names := by simp [initial]
  frontends := .empty _
  nodePorts := .empty _
  requestedIps := .empty _
  totals := rfl

theorem Represents.claim (represents : state.Represents services) :
    (state.claim service).Represents (services ++ [service]) where
  ids id := by
    rw [ValidationState.claim, mem_set_insert, represents.ids]
    simp [or_comm (a := service.id = id)]
  names name := by
    rw [ValidationState.claim, mem_set_insert, represents.names]
    simp [or_comm (a := service.provenance = name)]
  frontends := represents.frontends.claim fun _ => Iff.rfl
  nodePorts := represents.nodePorts.claim fun _ => Iff.rfl
  requestedIps := represents.requestedIps.claim fun _ => by rw [map_id', mem_sort]
  totals := by
    rw [ValidationState.claim, represents.totals]
    simp

theorem Represents.foldl_claim (services : List ServiceIr) :
    (services.foldl ValidationState.claim .initial).Represents services := by
  induction services using List.reverseRecOn with
  | nil => exact represents_initial
  | append_singleton services service ih =>
    rw [foldl_append]
    exact ih.claim

theorem Represents.admits_iff (represents : state.Represents services) :
    state.Admits service ↔ ∀ earlier ∈ services, earlier.Separate service := by
  have ids_iff : service.id ∉ state.serviceIds ↔ ∀ earlier ∈ services, earlier.id ≠ service.id := by
    rw [represents.ids]
    simp
  have names_iff : service.provenance ∉ state.serviceNames ↔
      ∀ earlier ∈ services, earlier.provenance ≠ service.provenance := by
    rw [represents.names]
    simp
  simp only [ValidationState.admits_iff, separate_iff, forall_and, ids_iff]
  apply and_congr_right
  intro foreign
  simp only [represents.frontends.mem_iff, represents.nodePorts.forall_owner_iff foreign,
    represents.requestedIps.forall_owner_iff foreign]
  grind

end ValidationState

/-! ## Capacities -/

/-- A total that has stopped at the largest word stays there. -/
theorem saturatingAdd_min (total count : Nat) :
    saturatingAdd (min total (2 ^ 64 - 1)) count = min (total + count) (2 ^ 64 - 1) := by
  rw [saturatingAdd]
  omega

theorem foldl_saturatingAdd {α : Type} (count : α → Nat) (items : List α) (total : Nat) :
    items.foldl (fun total item => saturatingAdd total (count item)) (min total (2 ^ 64 - 1)) =
      min (total + (items.map count).sum) (2 ^ 64 - 1) := by
  induction items generalizing total with
  | nil => simp
  | cons item items ih =>
    rw [foldl_cons, saturatingAdd_min, ih, map_cons, sum_cons, Nat.add_assoc]

/-- The totals count the services, up to the largest machine word. -/
structure SnapshotTotals.Counts (totals : SnapshotTotals) (services : List ServiceIr) :
    Prop where
  frontends : totals.frontends =
    min (services.map fun service => service.frontends.length).sum (2 ^ 64 - 1)
  nodePorts : totals.nodePorts =
    min (services.map fun service => service.nodePorts.length).sum (2 ^ 64 - 1)
  loadBalancerFrontends : totals.loadBalancerFrontends =
    min (services.map fun service => service.loadBalancerFrontends.length).sum (2 ^ 64 - 1)
  backends : totals.backends =
    min (services.map fun service => service.backends.length).sum (2 ^ 64 - 1)
  backendReferences : totals.backendReferences =
    min (services.map ServiceIr.backendReferences).sum (2 ^ 64 - 1)

theorem ServiceIr.length_loadBalancerFrontends (service : ServiceIr) :
    (service.loadBalancer.elim 0 fun loadBalancer => loadBalancer.frontends.length) =
      service.loadBalancerFrontends.length := by
  cases balanced : service.loadBalancer <;> simp [loadBalancerFrontends, balanced]

theorem ServiceIr.foldl_loadBalancerFrontends (service : ServiceIr) :
    (service.loadBalancer.elim 0 fun loadBalancer =>
        loadBalancer.frontends.foldl (fun count frontend =>
          saturatingAdd count frontend.backendIds.length) 0) =
      min (service.loadBalancerFrontends.map fun frontend => frontend.backendIds.length).sum
        (2 ^ 64 - 1) := by
  have counted := foldl_saturatingAdd (fun frontend : ServiceLoadBalancerFrontend =>
    frontend.backendIds.length) service.loadBalancerFrontends 0
  cases balanced : service.loadBalancer with
  | none => simp [loadBalancerFrontends, balanced]
  | some loadBalancer => simpa [loadBalancerFrontends, balanced] using counted

theorem SnapshotTotals.add_backendReferences (totals : SnapshotTotals) (service : ServiceIr)
    (count : Nat) (counted : totals.backendReferences = min count (2 ^ 64 - 1)) :
    (totals.add service).backendReferences =
      min (count + service.backendReferences) (2 ^ 64 - 1) := by
  have ofFrontends := foldl_saturatingAdd (fun frontend : ServiceFrontend =>
    frontend.backendIds.length) service.frontends count
  have ofNodePorts := foldl_saturatingAdd (fun nodePort : ServiceNodePort =>
    nodePort.backendIds.length) service.nodePorts 0
  simp only [Nat.zero_min] at ofNodePorts
  simp only [SnapshotTotals.add, counted, service.foldl_loadBalancerFrontends,
    ServiceIr.backendReferences]
  rw [saturatingAdd, saturatingAdd]
  omega

theorem SnapshotTotals.Counts.add (counts : totals.Counts services) :
    (totals.add service).Counts (services ++ [service]) := by
  have references := totals.add_backendReferences service _ counts.backendReferences
  constructor <;> simp only [map_append, sum_append, map_cons, map_nil, sum_singleton]
  case backendReferences => exact references
  all_goals simp only [SnapshotTotals.add, counts.frontends, counts.nodePorts,
    counts.loadBalancerFrontends, counts.backends, service.length_loadBalancerFrontends,
    saturatingAdd_min]

theorem SnapshotTotals.Counts.foldl_add (services : List ServiceIr) :
    (services.foldl SnapshotTotals.add .zero).Counts services := by
  induction services using List.reverseRecOn with
  | nil => constructor <;> rfl
  | append_singleton services service ih =>
    rw [foldl_append]
    exact ih.add

theorem validateSnapshotCapacities_eq_ok (counts : totals.Counts services) :
    validateSnapshotCapacities totals = .ok result ↔ CapacitiesValid services := by
  have saturated : ∀ {count limit : Nat}, limit < 2 ^ 64 - 1 →
      (¬min count (2 ^ 64 - 1) > limit ↔ count ≤ limit) := by
    omega
  simp only [validateSnapshotCapacities, failIf_bind_eq_ok, failIf_eq_ok,
    decide_eq_false_iff_not, counts.frontends, counts.nodePorts,
    counts.loadBalancerFrontends, counts.backends, counts.backendReferences]
  rw [saturated (by decide), saturated (by decide), saturated (by decide),
    saturated (by decide), saturated (by decide), capacitiesValid_iff]

/-- Sorting the frontends of a LoadBalancer does not change what their references
count. -/
theorem ServiceIr.loadBalancerFrontends_lengths_perm (changed original : ServiceIr)
    (sorted : changed.loadBalancer = original.loadBalancer.map ServiceLoadBalancer.normalized) :
    (changed.loadBalancerFrontends.map fun frontend => frontend.backendIds.length).Perm
      (original.loadBalancerFrontends.map fun frontend => frontend.backendIds.length) := by
  rw [loadBalancerFrontends, loadBalancerFrontends, sorted]
  cases original.loadBalancer with
  | none => exact .refl _
  | some loadBalancer =>
    exact map_sort_map_perm (fun frontend => frontend.backendIds.length)
      ServiceLoadBalancerFrontend.normalized
      (fun frontend => length_sort frontend.backendIds) _

theorem ServiceIr.nodePorts_lengths_perm (service : ServiceIr) :
    ((sort (service.nodePorts.map ServiceNodePort.normalized)).map
      fun nodePort => nodePort.backendIds.length).Perm
        (service.nodePorts.map fun nodePort => nodePort.backendIds.length) :=
  map_sort_map_perm (fun nodePort => nodePort.backendIds.length) ServiceNodePort.normalized
    (fun nodePort => length_sort nodePort.backendIds) _

/-- Reordering does not change the number of references. -/
theorem ServiceIr.backendReferences_checked (service : ServiceIr) :
    service.checked.backendReferences = service.backendReferences := by
  have ofFrontends : (service.checked.frontends.map fun frontend => frontend.backendIds.length) =
        service.frontends.map fun frontend => frontend.backendIds.length := by
    simp [checked, referencesSorted, ServiceFrontend.normalized]
  have ofNodePorts := service.nodePorts_lengths_perm.sum_eq
  have ofLoadBalancer := (loadBalancerFrontends_lengths_perm service.checked service rfl).sum_eq
  rw [ServiceIr.backendReferences, ServiceIr.backendReferences, ofFrontends, ofLoadBalancer,
    ← ofNodePorts]
  rfl

theorem ServiceIr.backendReferences_normalized (service : ServiceIr) :
    service.normalized.backendReferences = service.backendReferences := by
  have ofFrontends := (map_sort_map_perm (fun frontend => frontend.backendIds.length)
    ServiceFrontend.normalized (fun frontend => length_sort frontend.backendIds)
    service.frontends).sum_eq
  have ofNodePorts := service.nodePorts_lengths_perm.sum_eq
  have ofLoadBalancer := (loadBalancerFrontends_lengths_perm service.normalized service rfl).sum_eq
  rw [ServiceIr.backendReferences, ServiceIr.backendReferences, ofLoadBalancer, ← ofNodePorts,
    ← ofFrontends]
  rfl

theorem capacitiesValid_map_checked (services : List ServiceIr) :
    CapacitiesValid (services.map checked) ↔ CapacitiesValid services := by
  have loadBalancerFrontends (service : ServiceIr) :
      service.checked.loadBalancerFrontends.length = service.loadBalancerFrontends.length := by
    cases balanced : service.loadBalancer <;> simp [loadBalancerFrontends, checked, balanced,
      ServiceLoadBalancer.normalized]
  have frontends (service : ServiceIr) :
      service.checked.frontends.length = service.frontends.length := by
    simp [checked, referencesSorted]
  have nodePorts (service : ServiceIr) :
      service.checked.nodePorts.length = service.nodePorts.length := by
    simp [checked, referencesSorted]
  have backends (service : ServiceIr) :
      service.checked.backends.length = service.backends.length := by
    simp [checked, referencesSorted]
  simp only [capacitiesValid_iff, map_map, Function.comp_def, loadBalancerFrontends,
    frontends, nodePorts, backends, backendReferences_checked]

/-! ## Schemas -/

theorem rejectLegacyLoadBalancerIntent_eq_ok {schema : UInt16} :
    rejectLegacyLoadBalancerIntent snapshot schema = .ok result ↔
      ∀ service ∈ snapshot.services, service.loadBalancer = none := by
  simp [rejectLegacyLoadBalancerIntent]

theorem migrateServiceSnapshotSchema_eq_ok {result : ServiceSnapshot} :
    migrateServiceSnapshotSchema snapshot = .ok result ↔ snapshot.SchemaValid ∧
        result = { snapshot with schemaVersion := serviceSnapshotSchemaVersion } := by
  have valid_iff : snapshot.SchemaValid ↔
      (snapshot.schemaVersion = 1 ∧ (∀ service ∈ snapshot.services, service.nodePorts = []) ∧
        ∀ service ∈ snapshot.services, service.loadBalancer = none) ∨
      (snapshot.schemaVersion = 2 ∧ ∀ service ∈ snapshot.services, service.loadBalancer = none) ∨
      (snapshot.schemaVersion = 3 ∧ snapshot.hasAdvancedSelectionIntent = false) ∨
      snapshot.schemaVersion = 4 := by
    constructor
    · rintro ⟨version | version | version | version, nodePorts, loadBalancers, advanced⟩
      · exact .inl ⟨version, nodePorts version, loadBalancers (.inl version)⟩
      · exact .inr (.inl ⟨version, loadBalancers (.inr version)⟩)
      · exact .inr (.inr (.inl ⟨version, advanced version⟩))
      · exact .inr (.inr (.inr version))
    · rintro (⟨version, nodePorts, loadBalancers⟩ | ⟨version, loadBalancers⟩ |
        ⟨version, advanced⟩ | version) <;>
        constructor <;> simp_all [legacyServiceSnapshotSchemaVersion,
          nodePortServiceSnapshotSchemaVersion, loadBalancerServiceSnapshotSchemaVersion,
          serviceSnapshotSchemaVersion]
  rw [valid_iff, migrateServiceSnapshotSchema]
  simp only [legacyServiceSnapshotSchemaVersion, nodePortServiceSnapshotSchemaVersion,
    loadBalancerServiceSnapshotSchemaVersion, serviceSnapshotSchemaVersion]
  by_cases legacy : snapshot.schemaVersion = 1
  · simp [legacy, rejectLegacyLoadBalancerIntent_eq_ok, bind_eq_ok, pure, Except.pure,
      and_assoc, eq_comm (a := result)]
  by_cases nodePort : snapshot.schemaVersion = 2
  · simp [nodePort, rejectLegacyLoadBalancerIntent_eq_ok, bind_eq_ok, pure, Except.pure,
      eq_comm (a := result)]
  by_cases balanced : snapshot.schemaVersion = 3
  · simp [balanced, rejectLegacyAdvancedSelectionIntent, pure, Except.pure, eq_comm (a := result)]
  by_cases current : snapshot.schemaVersion = 4
  · have unchanged : { snapshot with schemaVersion := 4 } = snapshot := by
      rw [← current]
    simp only [unchanged]
    simp [current, pure, Except.pure, eq_comm (a := result)]
  · simp [legacy, nodePort, balanced, current]

/-! ## Snapshots -/

theorem validateNextService_eq_ok (progress : ValidationState × List ServiceIr)
    (service : ServiceIr) (after : ValidationState × List ServiceIr) :
    validateNextService clusterIpAddresses progress service = .ok after ↔
      (service.Valid clusterIpAddresses ∧ progress.1.Admits service) ∧
        after = (progress.1.claim service, progress.2 ++ [service.normalized]) := by
  simp only [validateNextService, eq_ok_iffs, validateService_eq_ok, and_assoc, exists_and_left,
    exists_eq_left, eq_comm (a := after)]

theorem foldl_progress (services : List ServiceIr) (progress : ValidationState × List ServiceIr) :
    services.foldl (fun progress service =>
        (progress.1.claim service, progress.2 ++ [service.normalized])) progress =
      (services.foldl ValidationState.claim progress.1, progress.2 ++ services.map normalized) := by
  induction services generalizing progress with
  | nil => simp
  | cons service services ih =>
    rw [foldl_cons, ih]
    simp

theorem foldlM_validateNextService_eq_ok {result : ValidationState × List ServiceIr} :
    services.foldlM (validateNextService clusterIpAddresses) (.initial, []) = .ok result ↔
      ((∀ service ∈ services, service.Valid clusterIpAddresses) ∧
        services.Pairwise ServiceIr.Separate) ∧
      result = (services.foldl ValidationState.claim .initial, services.map normalized) := by
  simp only [foldlM_eq_ok_iff validateNextService_eq_ok, foldl_progress,
    (ValidationState.Represents.foldl_claim _).admits_iff, forall_split_iff, nil_append]

/-- A snapshot is accepted exactly when it is valid, and comes out in canonical
order. -/
theorem ServiceSnapshot.validateAndNormalize_eq_ok {result : ServiceSnapshot} :
    snapshot.validateAndNormalize = .ok result ↔ snapshot.Valid ∧ result = snapshot.normalized := by
  simp only [ServiceSnapshot.validateAndNormalize, bind_eq_ok, Prod.exists, failIf_eq_ok,
    exists_const, migrateServiceSnapshotSchema_eq_ok, foldlM_validateNextService_eq_ok,
    eq_false_iffs, pure_eq_ok]
  have counts (services : List ServiceIr) :
      (services.foldl ValidationState.claim .initial).totals.Counts (services.map checked) := by
    rw [(ValidationState.Represents.foldl_claim services).totals]
    exact .foldl_add _
  constructor
  · rintro ⟨_, ⟨schema, rfl⟩, sourceEpoch, revision, bounded, _, _,
      ⟨⟨services, separate⟩, same⟩, _, capacities, rfl⟩
    obtain ⟨rfl, rfl⟩ := Prod.mk.inj same
    rw [validateSnapshotCapacities_eq_ok (counts _), capacitiesValid_map_checked] at capacities
    exact ⟨⟨schema, sourceEpoch, revision, bounded, services, separate, capacities⟩, rfl⟩
  · rintro ⟨valid, rfl⟩
    refine ⟨_, ⟨valid.schema, rfl⟩, valid.sourceEpoch, valid.revision, valid.bounded, _, _,
      ⟨⟨valid.services, valid.separate⟩, rfl⟩, (), ?_, rfl⟩
    rw [validateSnapshotCapacities_eq_ok (counts _), capacitiesValid_map_checked]
    exact valid.capacities

end Unf.Service
