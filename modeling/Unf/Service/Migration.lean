import Unf.Service.Canonical

/-!
# Projection to older schemas and back

Consumers of an older schema are served a projection of the snapshot, and snapshots
of an older schema are migrated when they are validated. The module says for which
snapshots the two are inverse to each other.
-/

namespace Unf.Service

open Unf.Lib List ServiceIr

/-! ## Projections -/

/-- The schemas before the current one. -/
inductive LegacySchema where
  | v1
  | v2
  | v3
  deriving DecidableEq, Repr

def LegacySchema.version : LegacySchema → UInt16
  | v1 => legacyServiceSnapshotSchemaVersion
  | v2 => nodePortServiceSnapshotSchemaVersion
  | v3 => loadBalancerServiceSnapshotSchemaVersion

/-- The service without the fields that the schema does not carry. -/
def LegacySchema.clear : LegacySchema → ServiceIr → ServiceIr
  | v1, service => { service with nodePorts := [], loadBalancer := none }
  | v2, service => { service with loadBalancer := none }
  | v3, service => service

variable (schema : LegacySchema) (snapshot : ServiceSnapshot)

namespace ServiceSnapshot

/-- The view of a snapshot that consumers of an older schema are served. -/
def projection : Validated ServiceSnapshot := do
  let projected ← snapshot.validateAndNormalize
  rejectLegacyAdvancedSelectionIntent projected schema.version
  return { projected with
    services := projected.services.map schema.clear
    schemaVersion := schema.version }

def legacyV1Projection : ServiceSnapshot → Validated ServiceSnapshot := projection .v1

def nodePortV2Projection : ServiceSnapshot → Validated ServiceSnapshot := projection .v2

def loadBalancerV3Projection : ServiceSnapshot → Validated ServiceSnapshot := projection .v3

/-- The snapshot without the fields that the schema does not carry, in its own schema. -/
def cleared : ServiceSnapshot :=
  { snapshot with services := snapshot.services.map schema.clear }

end ServiceSnapshot

/-! ## Equality up to the order of lists -/

def ServiceFrontend.SameUpToOrder (left right : ServiceFrontend) : Prop :=
  left = { right with backendIds := left.backendIds } ∧
    left.backendIds.Perm right.backendIds

def ServiceNodePort.SameUpToOrder (left right : ServiceNodePort) : Prop :=
  left = { right with backendIds := left.backendIds } ∧
    left.backendIds.Perm right.backendIds

def ServiceLoadBalancerFrontend.SameUpToOrder (left right : ServiceLoadBalancerFrontend) :
    Prop :=
  left = { right with backendIds := left.backendIds } ∧
    left.backendIds.Perm right.backendIds

def ServiceBackend.SameUpToOrder (left right : ServiceBackend) : Prop :=
  left = { right with endpointSlices := left.endpointSlices } ∧
    left.endpointSlices.Perm right.endpointSlices

structure ServiceLoadBalancer.SameUpToOrder (left right : ServiceLoadBalancer) : Prop where
  fields : left = { right with
    ipFamilies := left.ipFamilies
    requestedIps := left.requestedIps
    sourceRanges := left.sourceRanges
    frontends := left.frontends }
  ipFamilies : left.ipFamilies.Perm right.ipFamilies
  requestedIps : left.requestedIps.Perm right.requestedIps
  sourceRanges : left.sourceRanges.Perm right.sourceRanges
  frontends : UpToOrder ServiceLoadBalancerFrontend.SameUpToOrder left.frontends
    right.frontends

structure ServiceIr.SameUpToOrder (left right : ServiceIr) : Prop where
  fields : left = { right with
    frontends := left.frontends
    nodePorts := left.nodePorts
    loadBalancer := left.loadBalancer
    backends := left.backends }
  frontends : UpToOrder ServiceFrontend.SameUpToOrder left.frontends right.frontends
  nodePorts : UpToOrder ServiceNodePort.SameUpToOrder left.nodePorts right.nodePorts
  loadBalancer : Option.Rel ServiceLoadBalancer.SameUpToOrder left.loadBalancer
    right.loadBalancer
  backends : UpToOrder ServiceBackend.SameUpToOrder left.backends right.backends

structure ServiceSnapshot.SameUpToOrder (left right : ServiceSnapshot) : Prop where
  fields : left = { right with services := left.services }
  services : UpToOrder ServiceIr.SameUpToOrder left.services right.services

/-! ## Canonical order is a reordering -/

theorem ServiceFrontend.sameUpToOrder_normalized (frontend : ServiceFrontend) :
    frontend.SameUpToOrder frontend.normalized :=
  ⟨rfl, (sort_perm _).symm⟩

theorem ServiceNodePort.sameUpToOrder_normalized (nodePort : ServiceNodePort) :
    nodePort.SameUpToOrder nodePort.normalized :=
  ⟨rfl, (sort_perm _).symm⟩

theorem ServiceLoadBalancerFrontend.sameUpToOrder_normalized
    (frontend : ServiceLoadBalancerFrontend) : frontend.SameUpToOrder frontend.normalized :=
  ⟨rfl, (sort_perm _).symm⟩

theorem ServiceBackend.sameUpToOrder_normalized_iff {backend : ServiceBackend} :
    backend.SameUpToOrder backend.normalized ↔ backend.endpointSlices.Nodup := by
  rw [ServiceBackend.SameUpToOrder, ServiceBackend.normalized, perm_sortDedup_iff]
  simp

theorem ServiceLoadBalancer.sameUpToOrder_normalized (loadBalancer : ServiceLoadBalancer) :
    loadBalancer.SameUpToOrder loadBalancer.normalized where
  fields := rfl
  ipFamilies := (sort_perm _).symm
  requestedIps := (sort_perm _).symm
  sourceRanges := (sort_perm _).symm
  frontends := upToOrder_of_perm (sort_perm _) fun frontend _ =>
    frontend.sameUpToOrder_normalized

/-- Canonical order only reorders a service exactly when no provenance is repeated. -/
theorem ServiceIr.sameUpToOrder_normalized_iff {service : ServiceIr}
    (distinct : (service.backends.map ServiceBackend.id).Nodup) :
    service.SameUpToOrder service.normalized ↔
      ∀ backend ∈ service.backends, backend.endpointSlices.Nodup := by
  constructor
  · intro same backend member
    have sameId : ∀ left right : ServiceBackend, left.SameUpToOrder right →
        left.id = right.id := by
      rintro left right ⟨fields, -⟩
      rw [fields]
    exact ServiceBackend.sameUpToOrder_normalized_iff.mp
      (same.backends.same_canonical (sort_perm _) sameId (fun _ => rfl) distinct backend member)
  · intro unrepeated
    refine ⟨rfl, upToOrder_of_perm (sort_perm _) fun frontend _ =>
        frontend.sameUpToOrder_normalized,
      upToOrder_of_perm (sort_perm _) fun nodePort _ => nodePort.sameUpToOrder_normalized, ?_,
      upToOrder_of_perm (sort_perm _) fun backend member =>
        ServiceBackend.sameUpToOrder_normalized_iff.mpr (unrepeated backend member)⟩
    cases balanced : service.loadBalancer with
    | none => simp [ServiceIr.normalized, balanced]
    | some loadBalancer =>
      simpa [ServiceIr.normalized, balanced] using
        Option.Rel.some loadBalancer.sameUpToOrder_normalized

/-- The canonical order of a valid snapshot, in its own schema. -/
theorem ServiceSnapshot.sameUpToOrder_iff {snapshot projected : ServiceSnapshot}
    (valid : snapshot.Valid) (stamped : projected = { snapshot.normalized with
      schemaVersion := snapshot.schemaVersion }) :
    snapshot.SameUpToOrder projected ↔ ∀ service ∈ snapshot.services, ∀ backend ∈ service.backends,
        backend.endpointSlices.Nodup := by
  have perm := snapshot.services_normalized_perm
  subst stamped
  constructor
  · intro same service member
    rw [← sameUpToOrder_normalized_iff (valid.services service member).backendIds]
    have sameId : ∀ left right : ServiceIr, left.SameUpToOrder right → left.id = right.id := by
      intro left right same
      rw [same.fields]
    exact same.services.same_canonical perm sameId (fun _ => rfl) valid.distinct service member
  · intro unrepeated
    refine ⟨rfl, upToOrder_of_perm perm fun service member => ?_⟩
    exact (sameUpToOrder_normalized_iff
      (valid.services service member).backendIds).mpr (unrepeated service member)

/-! ## Cleared services -/

namespace LegacySchema

variable (schema : LegacySchema) {service : ServiceIr}

theorem clear_normalized (service : ServiceIr) :
    schema.clear service.normalized = (schema.clear service).normalized := by
  cases schema <;> simp [clear, ServiceIr.normalized, sort]

theorem within_clear (service : ServiceIr) : (schema.clear service).Within service := by
  have references : (schema.clear service).backendReferences ≤ service.backendReferences := by
    cases schema <;>
      simp only [clear, loadBalancerFrontends, backendReferences,
        map_nil, sum_nil, Option.elim_none] <;> omega
  cases schema <;> refine ⟨rfl, rfl, .refl _, ?_, ?_, ?_, ?_, ?_, references⟩ <;>
    simp [clear, requestedIps, loadBalancerFrontends]

theorem within_clear_normalized (service : ServiceIr) :
    (schema.clear service.normalized).Within service := by
  rw [clear_normalized]
  exact (schema.clear service).within_normalized.trans (schema.within_clear service)

/-- A service that does not ask for direct server return stays valid when intent is
dropped. -/
theorem valid_clear {clusterIpAddresses : Std.ExtTreeSet IpAddr}
    (valid : service.Valid clusterIpAddresses) (translated : service.forwardingMode = .nat) :
    (schema.clear service).Valid clusterIpAddresses := by
  have indirect : service.forwardingMode ≠ .dsr := by simp [translated]
  cases schema with
  | v1 => exact { valid with
      nodePorts := by simp [clear]
      nodePortKeys := by simp [clear]
      nodePortLinks := by simp [clear]
      nodePortBackends := by simp [clear]
      loadBalancer := by simp [clear]
      dsr := fun direct => absurd direct indirect }
  | v2 => exact { valid with
      loadBalancer := by simp [clear]
      dsr := fun direct => absurd direct indirect }
  | v3 => exact valid

theorem linksStable_clear (stable : service.LinksStable) : (schema.clear service).LinksStable := by
  cases schema with
  | v1 => simp [clear, ServiceIr.LinksStable, loadBalancerFrontends]
  | v2 => simp [clear, ServiceIr.LinksStable, loadBalancerFrontends]
  | v3 => exact stable

/-- The fields that a schema does not carry are empty in snapshots of that schema. -/
theorem clear_of_schemaValid {snapshot : ServiceSnapshot} (valid : snapshot.SchemaValid)
    (stamped : snapshot.schemaVersion = schema.version) (member : service ∈ snapshot.services) :
    schema.clear service = service := by
  cases schema with
  | v1 =>
    have unported := valid.nodePorts stamped service member
    have unbalanced := valid.loadBalancers (.inl stamped) service member
    rw [clear, ← unported, ← unbalanced]
  | v2 =>
    have unbalanced := valid.loadBalancers (.inr stamped) service member
    rw [clear, ← unbalanced]
  | v3 => rfl

end LegacySchema

/-! ## Projected snapshots -/

namespace ServiceSnapshot

variable {snapshot : ServiceSnapshot} {schema : LegacySchema}

theorem hasAdvancedSelectionIntent_normalized (snapshot : ServiceSnapshot) :
    snapshot.normalized.hasAdvancedSelectionIntent = snapshot.hasAdvancedSelectionIntent := by
  rw [hasAdvancedSelectionIntent, snapshot.services_normalized_perm.any_eq, any_map]
  rfl

/-- The projection of a snapshot that has one. -/
def projected (schema : LegacySchema) (snapshot : ServiceSnapshot) : ServiceSnapshot :=
  { snapshot.normalized.cleared schema with schemaVersion := schema.version }

theorem projection_eq_ok {result : ServiceSnapshot} : snapshot.projection schema = .ok result ↔
      (snapshot.Valid ∧ snapshot.hasAdvancedSelectionIntent = false) ∧
        result = snapshot.projected schema := by
  simp only [projection, eq_ok_iffs, validateAndNormalize_eq_ok,
    rejectLegacyAdvancedSelectionIntent]
  constructor
  · rintro ⟨_, ⟨valid, rfl⟩, plain, rfl⟩
    rw [hasAdvancedSelectionIntent_normalized] at plain
    exact ⟨⟨valid, plain⟩, rfl⟩
  · rintro ⟨⟨valid, plain⟩, rfl⟩
    refine ⟨_, ⟨valid, rfl⟩, ?_, rfl⟩
    rw [hasAdvancedSelectionIntent_normalized]
    exact plain

theorem projected_services_perm (schema : LegacySchema) (snapshot : ServiceSnapshot) :
    (snapshot.projected schema).services.Perm
      (snapshot.services.map fun service => schema.clear service.normalized) := by
  have perm := snapshot.services_normalized_perm.map schema.clear
  rwa [map_map] at perm

theorem schemaValid_projected (plain : snapshot.hasAdvancedSelectionIntent = false) :
    (snapshot.projected schema).SchemaValid := by
  rw [← hasAdvancedSelectionIntent_normalized] at plain
  cases schema with
  | v1 => constructor <;> simp [projected, cleared, LegacySchema.version, LegacySchema.clear,
      legacyServiceSnapshotSchemaVersion, loadBalancerServiceSnapshotSchemaVersion]
  | v2 => constructor <;> simp [projected, cleared, LegacySchema.version, LegacySchema.clear,
      legacyServiceSnapshotSchemaVersion, nodePortServiceSnapshotSchemaVersion,
      loadBalancerServiceSnapshotSchemaVersion]
  | v3 =>
    have unchanged : (snapshot.projected .v3).services = snapshot.normalized.services := map_id _
    constructor
    · simp [projected, LegacySchema.version]
    · simp [projected, LegacySchema.version, legacyServiceSnapshotSchemaVersion,
        loadBalancerServiceSnapshotSchemaVersion]
    · simp [projected, LegacySchema.version, legacyServiceSnapshotSchemaVersion,
        nodePortServiceSnapshotSchemaVersion, loadBalancerServiceSnapshotSchemaVersion]
    · intro _
      rw [hasAdvancedSelectionIntent, unchanged]
      exact plain

/-- The canonical order of a projection is the canonical order of the snapshot without
what the schema does not carry. -/
theorem normalized_projected (schema : LegacySchema) (snapshot : ServiceSnapshot) :
    (snapshot.projected schema).normalized = snapshot.normalized.cleared schema := by
  have sameKey (service : ServiceIr) : (schema.clear service).sortKey = service.sortKey := by
    cases schema <;> rfl
  have fixed : (snapshot.normalized.services.map schema.clear).map ServiceIr.normalized =
      snapshot.normalized.services.map schema.clear := by
    rw [map_map]
    apply map_congr_left
    intro service member
    obtain ⟨original, -, rfl⟩ := mem_map.mp (snapshot.services_normalized_perm.mem_iff.mp member)
    simp [← schema.clear_normalized]
  simp only [normalized, projected, cleared] at fixed ⊢
  rw [fixed, sortByKey_map sameKey, sortByKey_sortByKey]

/-- A projection is valid when dropping what the schema does not carry leaves the links
stable. -/
theorem valid_projected_iff (valid : snapshot.Valid)
    (plain : snapshot.hasAdvancedSelectionIntent = false) : (snapshot.projected schema).Valid ↔
      ∀ service ∈ snapshot.services, (schema.clear service).LinksStable := by
  have perm := snapshot.projected_services_perm schema
  have clearValid (service : ServiceIr) (member : service ∈ snapshot.services) :
      (schema.clear service).Valid snapshot.clusterIpAddresses := by
    apply schema.valid_clear (valid.services service member)
    have plainService := any_eq_false.mp plain service member
    simp only [ServiceIr.hasAdvancedSelectionIntent, Bool.or_eq_true, not_or] at plainService
    simpa using plainService.2
  constructor
  · intro projectedValid service member
    have projectedService := projectedValid.services (schema.clear service.normalized)
      (perm.mem_iff.mpr (mem_map.mpr ⟨service, member, rfl⟩))
    rw [clusterIpAddresses_of_perm schema.within_clear_normalized
      (.of_eq (map_id' snapshot.services).symm) perm,
      schema.clear_normalized] at projectedService
    exact (ServiceIr.valid_normalized_iff (clearValid service member)).mp projectedService
  · intro stable
    apply valid.of_perm schema.within_clear_normalized (.of_eq (by simp)) perm
      (schemaValid_projected plain) rfl rfl
    intro service member
    rw [schema.clear_normalized]
    exact (ServiceIr.valid_normalized_iff (clearValid service member)).mpr (stable service member)

/-- In snapshots of the schema itself the projection of the accepted snapshot only goes
back to the schema. -/
theorem projected_normalized_of_stamped (valid : snapshot.SchemaValid)
    (stamped : snapshot.schemaVersion = schema.version) : snapshot.normalized.projected schema =
      { snapshot.normalized with schemaVersion := snapshot.schemaVersion } := by
  have fixed : snapshot.normalized.services.map schema.clear = snapshot.normalized.services := by
    conv_rhs => rw [← map_id snapshot.normalized.services]
    apply map_congr_left
    intro service member
    obtain ⟨original, originalMember, rfl⟩ := mem_map.mp
      (snapshot.services_normalized_perm.mem_iff.mp member)
    rw [schema.clear_normalized, schema.clear_of_schemaValid valid stamped originalMember]
    rfl
  rw [projected, normalized_normalized, cleared, fixed, stamped]

end ServiceSnapshot

/-! ## Inverse to each other -/

/-- Projection to the schema and migration from it undo each other at the snapshot, and
the accepted snapshot is accepted unchanged. -/
structure LegacySchema.Inverse (schema : LegacySchema) (snapshot : ServiceSnapshot) :
    Prop where
  projection : ∀ projected, snapshot.projection schema = .ok projected →
    ∃ accepted, snapshot.validateAndNormalize = .ok accepted ∧
      projected.validateAndNormalize = .ok (accepted.cleared schema)
  migration : snapshot.schemaVersion = schema.version → ∀ accepted,
    snapshot.validateAndNormalize = .ok accepted →
      ∃ projected, accepted.projection schema = .ok projected ∧
        snapshot.SameUpToOrder projected
  idempotent : ∀ accepted, snapshot.validateAndNormalize = .ok accepted →
    accepted.validateAndNormalize = .ok accepted

/-- Projection and migration are inverse exactly when sorting keeps the links of
LoadBalancer frontends, and snapshots of the schema itself ask for no advanced selection
and repeat no provenance. -/
theorem LegacySchema.inverse_iff :
    schema.Inverse snapshot ↔
      (snapshot.Valid → snapshot.LinksStable ∧ (snapshot.schemaVersion = schema.version →
          snapshot.hasAdvancedSelectionIntent = false ∧
          ∀ service ∈ snapshot.services, ∀ backend ∈ service.backends,
            backend.endpointSlices.Nodup)) := by
  constructor
  · rintro ⟨-, migration, idempotent⟩ valid
    have accepted : snapshot.validateAndNormalize = .ok snapshot.normalized :=
      ServiceSnapshot.validateAndNormalize_eq_ok.mpr ⟨valid, rfl⟩
    refine ⟨?_, fun stamped => ?_⟩
    · have again := idempotent _ accepted
      rw [ServiceSnapshot.validateAndNormalize_eq_ok] at again
      exact (ServiceSnapshot.valid_normalized_iff valid).mp again.1
    · obtain ⟨projected, computed, same⟩ := migration stamped _ accepted
      obtain ⟨⟨-, plain⟩, rfl⟩ := ServiceSnapshot.projection_eq_ok.mp computed
      rw [ServiceSnapshot.hasAdvancedSelectionIntent_normalized] at plain
      exact ⟨plain, (ServiceSnapshot.sameUpToOrder_iff valid
        (ServiceSnapshot.projected_normalized_of_stamped valid.schema stamped)).mp same⟩
  · intro condition
    refine ⟨?_, ?_, ?_⟩
    · intro projected computed
      obtain ⟨⟨valid, plain⟩, rfl⟩ := ServiceSnapshot.projection_eq_ok.mp computed
      obtain ⟨stable, -⟩ := condition valid
      refine ⟨_, ServiceSnapshot.validateAndNormalize_eq_ok.mpr ⟨valid, rfl⟩, ?_⟩
      rw [ServiceSnapshot.validateAndNormalize_eq_ok, ServiceSnapshot.normalized_projected,
        ServiceSnapshot.valid_projected_iff valid plain]
      exact ⟨fun service member => schema.linksStable_clear (stable service member), rfl⟩
    · intro stamped accepted computed
      obtain ⟨valid, rfl⟩ := ServiceSnapshot.validateAndNormalize_eq_ok.mp computed
      obtain ⟨stable, onSchema⟩ := condition valid
      obtain ⟨plain, unrepeated⟩ := onSchema stamped
      refine ⟨_, ServiceSnapshot.projection_eq_ok.mpr ⟨⟨?_, ?_⟩, rfl⟩, ?_⟩
      · exact (ServiceSnapshot.valid_normalized_iff valid).mpr stable
      · rw [ServiceSnapshot.hasAdvancedSelectionIntent_normalized]
        exact plain
      · exact (ServiceSnapshot.sameUpToOrder_iff valid
          (ServiceSnapshot.projected_normalized_of_stamped valid.schema stamped)).mpr unrepeated
    · intro accepted computed
      obtain ⟨valid, rfl⟩ := ServiceSnapshot.validateAndNormalize_eq_ok.mp computed
      rw [ServiceSnapshot.validateAndNormalize_eq_ok, ServiceSnapshot.normalized_normalized]
      exact ⟨(ServiceSnapshot.valid_normalized_iff valid).mpr (condition valid).1, rfl⟩

/-- A snapshot of the first schema whose service keeps clients on their backend. -/
def affinitySnapshot : ServiceSnapshot where
  schemaVersion := legacyServiceSnapshotSchemaVersion
  sourceEpoch := 1
  revision := ⟨1⟩
  services := [{
    id := ⟨1⟩
    «namespace» := "default"
    name := "web"
    internalTrafficPolicy := .cluster
    sessionAffinity := .clientIp 10800
    trafficDistribution := .any
    selectionAlgorithm := .stableHash
    forwardingMode := .nat
    frontends := [⟨.v4 0x0A600001, 80, .tcp, none, none, []⟩]
    nodePorts := []
    loadBalancer := none
    backends := [] }]

/-- The snapshot is accepted, but the accepted one is refused a projection back. -/
theorem affinitySnapshot_not_inverse : ¬LegacySchema.v1.Inverse affinitySnapshot := by
  intro inverse
  have accepts : affinitySnapshot.validateAndNormalize.isOk = true := by decide +kernel
  have refuses : affinitySnapshot.hasAdvancedSelectionIntent = true := by decide
  cases computed : affinitySnapshot.validateAndNormalize with
  | error error =>
    rw [computed] at accepts
    cases accepts
  | ok accepted =>
    obtain ⟨projected, projection, -⟩ := inverse.migration rfl accepted computed
    obtain ⟨⟨-, plain⟩, -⟩ := ServiceSnapshot.projection_eq_ok.mp projection
    obtain ⟨-, rfl⟩ := ServiceSnapshot.validateAndNormalize_eq_ok.mp computed
    rw [ServiceSnapshot.hasAdvancedSelectionIntent_normalized, refuses] at plain
    cases plain

end Unf.Service
