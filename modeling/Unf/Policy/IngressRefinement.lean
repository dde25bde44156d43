import Unf.Policy.LoweredTables

/-!
# Ingress lowering refines evaluation

The maps written by the ingress compilers, searched as the dataplane searches
them, decide as evaluation does.  Address maps answer whenever some policy
decides; where none does, the identity map has nothing to add.
-/

namespace Unf.Policy

open Std (ExtTreeMap ExtTreeSet)
open Unf.Lib List Option IdentitySelector PolicyIr

/-! ## Policies that apply -/

variable {policies : List PolicyIr} {value : PolicyValue}

/-- A compiler that has succeeded has checked the direction of its policies. -/
theorem direction_of_ensured {direction : PolicyDirection} {α : Type}
    {compile : Unit → Except DataplaneCompileError α} {entries : α}
    (compiled : (ensureDataplanePolicies direction policies >>= compile) = .ok entries) :
    ∀ policy ∈ policies, policy.direction = direction := by
  obtain ⟨⟨⟩, ensured, -⟩ := bind_eq_ok.mp compiled
  rw [ensureDataplanePolicies] at ensured
  split at ensured
  · simp at ensured
  · rename_i found
    simpa using found

/-- A compatibility policy that applies always decides. -/
theorem decidedValue_managed_of_isCompatibility {policy : PolicyIr} (member : policy ∈ policies)
    (compatibility : policy.IsCompatibility) (matched : PolicyIr → List PolicyRule) :
    (decidedValue policies matched).managed = true := by
  rw [PolicyValue.managed, bne_iff_ne, ne_eq, decidedValue_eq_unmanaged_iff]
  intro empty
  have none := (append_eq_nil_iff.mp (empty .enforce)).2
  have listed : policy ∈ policies.filter fun policy =>
      policy.hasModeAndOrigin .enforce .kubernetesNetworkPolicy :=
    mem_filter.mpr ⟨member, by simp [hasModeAndOrigin,
      compatibility.enforcementMode, compatibility.origin]⟩
  obtain ⟨noRules, noDefaults⟩ := append_eq_nil_iff.mp none
  rw [map_eq_nil_iff] at noRules
  rw [noRules, isEmpty_nil, if_pos rfl, map_eq_nil_iff, filter_eq_nil_iff] at noDefaults
  exact noDefaults policy listed (by simp [compatibility.defaultAction])

/-! ## Blocks of the rules -/

theorem mem_ruleBlocks {β : Type} {blocksOf : PolicyRule → List β} {block : β} :
    block ∈ (policies.flatMap rules).flatMap blocksOf ↔
      ∃ policy ∈ policies, ∃ rule ∈ policy.rules, block ∈ blocksOf rule := by
  simp only [flatMap_assoc, mem_flatMap]

section Blocks

variable {side : PolicyRule → IdentitySelector}
  (canonical : ∀ policy ∈ policies, ∀ rule ∈ policy.rules, (side rule).BlocksCanonical)
  {ipv4Endpoints : List Ipv4Endpoint} {addresses : ExtTreeSet Ipv4Addr}

include canonical

theorem ruleBlocks_listable : BlocksListable ((policies.flatMap rules).flatMap fun rule =>
      (side rule).ipv4Blocks) := by
  apply blocksListable_of_canonical
  intro block member
  obtain ⟨policy, policyMember, rule, ruleMember, blockMember⟩ := mem_ruleBlocks.mp member
  exact ⟨side rule, canonical policy policyMember rule ruleMember, blockMember⟩

theorem ruleBlocks_canonical :
    ∀ block ∈ (policies.flatMap rules).flatMap fun rule => (side rule).ipv6Blocks,
      block.Canonical := by
  intro block member
  obtain ⟨policy, policyMember, rule, ruleMember, blockMember⟩ := mem_ruleBlocks.mp member
  exact (canonical policy policyMember rule ruleMember).ipv6 block blockMember

/-- Unlisted addresses are matched like the fallback address. -/
theorem matchesAddressed_of_unlisted {blocks : List Ipv4Block}
    (blocks_eq : (policies.flatMap rules).flatMap (fun rule =>
      (side rule).ipv4Blocks) = blocks)
    (lists : ListsAddresses ipv4Endpoints blocks addresses) {address : Ipv4Addr}
    (nonzero : address ≠ 0) (unlisted : address ∉ addresses) {policy : PolicyIr}
    (member : policy ∈ policies) {rule : PolicyRule} (ruleMember : rule ∈ policy.rules)
    (endpoint : Endpoint) :
    (side rule).matchesAddressed endpoint (fallbackAddress blocks addresses) none =
      (side rule).matchesAddressed endpoint (some address) none := by
  subst blocks_eq
  have listable := ruleBlocks_listable canonical
  refine matchesAddressed_fallbackAddress listable ?_ nonzero unlisted ?_ endpoint
  · intro other otherListed otherNonzero
    exact (lists other).mpr (.inr ⟨(mem_listedAddresses listable other).mpr otherListed,
      otherNonzero⟩)
  · intro block blockMember
    exact mem_ruleBlocks.mpr ⟨policy, member, rule, ruleMember, blockMember⟩

end Blocks

section Ingress

variable (lowerable : ∀ policy ∈ policies, policy.Lowerable)
  (ingress : ∀ policy ∈ policies, policy.direction = .ingress)
  {source destination : Endpoint}

include lowerable

theorem transportsWellFormed_of_lowerable : TransportsWellFormed policies :=
  fun policy member => (lowerable policy member).transport

include ingress in
theorem tierValue_managed_of_isIsolated (isolated : isIsolated policies destination = true)
    (sourceIpv4 : Option Ipv4Addr) (sourceIpv6 : Option Ipv6Addr) (key : TierKey Protocol UInt16) :
    ((ingressView policies source destination sourceIpv4 sourceIpv6).tierValue
      key).managed = true := by
  obtain ⟨policy, member, selects⟩ := any_eq_true.mp isolated
  obtain ⟨origin, target⟩ := Bool.and_eq_true_iff.mp selects
  have applies : policy ∈ applicablePolicies policies .ingress destination :=
    mem_filter.mpr ⟨member, by simp [applies, ingress policy member, target]⟩
  exact decidedValue_managed_of_isCompatibility applies
    ((lowerable policy member).compatibility (by simpa using origin)) _

omit lowerable in
theorem native_of_not_isIsolated (notIsolated : ¬isIsolated policies destination = true)
    {policy : PolicyIr} (applies : policy ∈ applicablePolicies policies .ingress destination) :
    policy.origin = .native := by
  obtain ⟨member, selects⟩ := mem_filter.mp applies
  have target := (Bool.and_eq_true_iff.mp selects).2
  cases origin : policy.origin with
  | native => rfl
  | kubernetesNetworkPolicy =>
    exact absurd (any_eq_true.mpr ⟨policy, member, by simp [origin, target]⟩)
      notIsolated

/-- At most one address family is known for an end. -/
def SingleFamily (ipv4 : Option Ipv4Addr) (ipv6 : Option Ipv6Addr) : Prop :=
  ipv4 = none ∨ ipv6 = none

omit lowerable in
theorem matchesAddresses_of_hasNoBlocks {selector : IdentitySelector}
    (noBlocks : selector.HasNoBlocks) {ipv4 : Option Ipv4Addr} {ipv6 : Option Ipv6Addr}
    (single : SingleFamily ipv4 ipv6) : selector.matchesAddresses ipv4 ipv6 = true := by
  rcases single with rfl | rfl
  · cases ipv6 <;> simp [matchesAddresses, noBlocks.1, noBlocks.2]
  · cases ipv4 <;> simp [matchesAddresses, noBlocks.1, noBlocks.2]

omit lowerable in
/-- Two ends are seen alike by the rules that match both. -/
theorem ingressView_within {left right : Endpoint} {leftIpv4 rightIpv4 : Option Ipv4Addr}
    {leftIpv6 rightIpv6 : Option Ipv6Addr}
    (matches_of_matches : ∀ policy ∈ applicablePolicies policies .ingress destination,
      ∀ rule ∈ policy.rules, rule.source.matchesAddressed left leftIpv4 leftIpv6 = true →
        rule.source.matchesAddressed right rightIpv4 rightIpv6 = true) :
    (ingressView policies left destination leftIpv4 leftIpv6).Within
      (ingressView policies right destination rightIpv4 rightIpv6) := by
  refine ⟨rfl, rfl, fun policy applies rule ruleMember reached => ?_⟩
  obtain ⟨fromSource, toDestination⟩ := Bool.and_eq_true_iff.mp reached
  exact Bool.and_eq_true_iff.mpr
    ⟨matches_of_matches policy applies rule ruleMember fromSource, toDestination⟩

/-- Native policies do not see addresses. -/
theorem ingressView_within_of_not_isIsolated (notIsolated : ¬isIsolated policies destination = true)
    {leftIpv4 rightIpv4 : Option Ipv4Addr} {leftIpv6 rightIpv6 : Option Ipv6Addr}
    (right : SingleFamily rightIpv4 rightIpv6) :
    (ingressView policies source destination leftIpv4 leftIpv6).Within
      (ingressView policies source destination rightIpv4 rightIpv6) := by
  apply ingressView_within
  intro policy applies rule ruleMember fromSource
  have noBlocks := (lowerable policy (mem_of_mem_filter applies)).nativeSources
    (native_of_not_isIsolated notIsolated applies) rule ruleMember
  simp only [matchesAddressed, Bool.and_eq_true] at fromSource ⊢
  exact ⟨fromSource.1, matchesAddresses_of_hasNoBlocks noBlocks right⟩

/-! ## The identity map -/

include ingress in
/-- No compatibility policy selects the destination of traffic that no policy decides, and
the identity map has no entry for it. -/
theorem lookupTiers_identity_eq_none {endpoints : List Endpoint} {entries : List PolicyMapEntry}
    (namesNonzero : ∀ endpoint ∈ endpoints, endpoint.NamesNonzeroPorts)
    (compiled : compileDataplaneEntries policies endpoints = .ok entries)
    (destinationMember : destination ∈ endpoints)
    (consistent : ∀ endpoint ∈ endpoints, endpoint.identity = source.identity → endpoint = source)
    (protocol : Protocol) {port : UInt16} (portNonzero : port ≠ 0)
    {sourceIpv4 : Option Ipv4Addr} {sourceIpv6 : Option Ipv6Addr}
    (single : SingleFamily sourceIpv4 sourceIpv6)
    (unmanaged : ¬((ingressView policies source destination sourceIpv4 sourceIpv6).valueAt
      protocol port).managed = true) :
    ¬isIsolated policies destination = true ∧
      lookupTiers (fun number port => (installEntries entries)[PolicyMapKey.mk source.identity
        destination.identity number port]?) protocol.number port = none := by
  have wellFormed := transportsWellFormed_of_lowerable lowerable
  have notIsolated : ¬isIsolated policies destination = true := fun isolated =>
    unmanaged (tierValue_managed_of_isIsolated lowerable ingress isolated _ _
      (.exact protocol port))
  refine ⟨notIsolated, ?_⟩
  have unknown : SingleFamily none none := .inl rfl
  rw [PairView.valueAt_congr (ingressView_within_of_not_isIsolated lowerable notIsolated unknown)
    (ingressView_within_of_not_isIsolated lowerable notIsolated single)] at unmanaged
  have stores := compileDataplaneEntries_ok wellFormed namesNonzero compiled
  by_cases sourceMember : source ∈ endpoints
  · have lowers := matchedPair_lowers wellFormed source destination none
    have nonzero := lowers.exactTuples_ne_zero (namesNonzero destination destinationMember)
    refine (stores.installedTiers_eq (source, destination) ⟨sourceMember, destinationMember⟩
      protocol portNonzero).trans ?_
    exact (lowers.search_changed nonzero portNonzero).trans (by simp [unmanaged])
  · have absent : ∀ number port, (installEntries entries)[PolicyMapKey.mk source.identity
        destination.identity number port]? = none := by
      intro number port
      apply stores.getElem?_eq_none
      rintro ⟨first, second⟩ ⟨firstMember, -⟩ otherNumber otherPort equal
      simp only [identityKey, PolicyMapKey.mk.injEq] at equal
      exact sourceMember (consistent first firstMember equal.1 ▸ firstMember)
    simp [lookupTiers, absent]

/-! ## The IPv4 map -/

section Ipv4

variable {ipv4Endpoints : List Ipv4Endpoint} {addresses : ExtTreeSet Ipv4Addr}

theorem ipv4SourceBlocks_listable : BlocksListable (ipv4SourceBlocks policies) :=
  ruleBlocks_listable fun policy member => (lowerable policy member).sourceBlocks

variable {address : Ipv4Addr}

theorem ingressView_fallback
    (lists : ListsAddresses ipv4Endpoints (ipv4SourceBlocks policies) addresses)
    (nonzero : address ≠ 0) (unlisted : address ∉ addresses) (protocol : Protocol) (port : UInt16) :
    (ingressView policies source destination
        (fallbackAddress (ipv4SourceBlocks policies) addresses) none).valueAt protocol port =
      (ingressView policies source destination (some address) none).valueAt protocol port := by
  apply PairView.valueAt_congr_reaches
  intro policy applies rule ruleMember
  congr 1
  exact matchesAddressed_of_unlisted
    (fun policy member => (lowerable policy member).sourceBlocks) rfl lists nonzero unlisted
    (mem_of_mem_filter applies) ruleMember source

end Ipv4

end Ingress

/-- The address has entries of its own, or some compatibility policy selects the
destination. -/
def Ipv4Decided (policies : List PolicyIr) (ipv4Endpoints : List Ipv4Endpoint)
    (address : Ipv4Addr) (destination : Endpoint) : Prop :=
  (∃ endpoint, ⟨address, endpoint⟩ ∈ ipv4Endpoints) ∨
    Ipv4Listed (ipv4SourceBlocks policies) address ∨ isIsolated policies destination = true

theorem filter_managed (managed : value.managed = true) :
    (some value).filter PolicyValue.managed = some value := by
  simp [managed]

/-- Nothing has to be found for a value that no policy decided. -/
theorem getD_filter_managed {rest : Option PolicyValue}
    (absent : ¬value.managed = true → rest = none) :
    (((some value).filter PolicyValue.managed).or rest).getD .unmanaged = value := by
  by_cases managed : value.managed = true
  · rw [filter_managed managed, some_or, getD_some]
  · have unmanaged : value = .unmanaged := by simpa [PolicyValue.managed] using managed
    rw [absent managed, unmanaged]
    rfl

/-- The lookup for an IPv4 source returns the evaluated decision, except that native
policies alone never decide for sources without entries of their own. -/
theorem lookupIngressPolicy_ipv4_eq {policies : List PolicyIr} {endpoints : List Endpoint}
    {ipv4Endpoints : List Ipv4Endpoint} {identityEntries : List PolicyMapEntry}
    {ipv4Entries : List Ipv4PolicyMapEntry} {maps : IngressMaps}
    (compiled : ∀ policy ∈ policies, policy.Compiled)
    (identities : ∀ endpoint ∈ endpoints, endpoint.identity.get ≠ 0)
    (namesNonzero : ∀ endpoint ∈ endpoints, endpoint.NamesNonzeroPorts)
    (unspecified : ∀ endpoint, ⟨0, endpoint⟩ ∉ ipv4Endpoints)
    (identityCompiled : compileDataplaneEntries policies endpoints = .ok identityEntries)
    (ipv4Compiled : compileIpv4DataplaneEntries policies endpoints ipv4Endpoints = .ok ipv4Entries)
    (identityMap : maps.identity = installEntries identityEntries)
    (ipv4Map : maps.ipv4 = installEntries ipv4Entries)
    {destination : Endpoint} (destinationMember : destination ∈ endpoints)
    {address : Ipv4Addr} (nonzero : address ≠ 0) {source : Endpoint}
    (registered : RegisteredAt ipv4Endpoints address source)
    (consistent : ∀ endpoint ∈ endpoints, endpoint.identity = source.identity → endpoint = source)
    (protocol : Protocol) {port : UInt16} (portNonzero : port ≠ 0) :
    (Ipv4Decided policies ipv4Endpoints address destination →
      (lookupIngressPolicy maps (some address) none source.identity destination.identity port
          protocol.number).getD .unmanaged = (evaluate policies
          (ingressFlow source destination (some address) none protocol port)).value) ∧
    (¬Ipv4Decided policies ipv4Endpoints address destination →
      lookupIngressPolicy maps (some address) none source.identity destination.identity port
        protocol.number = none) := by
  have lowerable := fun policy member => (compiled policy member).lowerable
  have wellFormed := transportsWellFormed_of_lowerable lowerable
  have ingress := direction_of_ensured identityCompiled
  obtain ⟨known, addresses, knownBuilt, lists, stores⟩ :=
    compileIpv4DataplaneEntries_ok wellFormed namesNonzero unspecified ipv4Compiled
  have sourceAt := registered.endpointAt_eq knownBuilt
  have zeroFree := lists.zero_notMem unspecified
  have names := namesNonzero destination destinationMember
  -- No entry belongs to the identity of a node.
  have nodeFree : (installEntries ipv4Entries)[Ipv4PolicyMapKey.mk address ⟨0⟩ 0 0]? =
      none := by
    apply stores.getElem?_eq_none
    rintro ⟨other, endpoint⟩ member number otherPort equal
    simp only [ipv4Key, Ipv4PolicyMapKey.mk.injEq] at equal
    exact identities endpoint member (by rw [equal.2.1])
  have value_eq : (evaluate policies
      (ingressFlow source destination (some address) none protocol port)).value =
      (ingressView policies source destination (some address) none).valueAt protocol port :=
    value_evaluate_eq_valueAt policies .ingress _ {}
  have searched : lookupIngressIpv4 maps destination.identity port protocol.number address =
      (installedTiers ipv4Entries (ipv4Key (address, destination)) protocol port).or
        (installedTiers ipv4Entries (ipv4Key (0, destination)) protocol port) := by
    rw [lookupIngressIpv4, ipv4Map, nodeFree]
    rfl
  have noFallback (notIsolated : ¬isIsolated policies destination = true) :
      installedTiers ipv4Entries (ipv4Key (0, destination)) protocol port = none := by
    apply stores.installedTiers_none (0, destination) destinationMember protocol portNonzero
    rw [ipv4PairAt, if_neg zeroFree, if_neg fun both => notIsolated both.2]
  simp only [lookupIngressPolicy, identities destination destinationMember, if_false,
    bind_some, bind_none, none_or, searched, identityMap, value_eq]
  by_cases listed : address ∈ addresses
  · have decided : Ipv4Decided policies ipv4Endpoints address destination := by
      rcases (lists address).mp listed with own | ⟨inBlock, -⟩
      · exact .inl own
      · exact .inr (.inl ((mem_listedAddresses (ipv4SourceBlocks_listable lowerable)
          address).mp inBlock))
    refine ⟨fun _ => ?_, fun undecided => absurd decided undecided⟩
    rw [stores.installedTiers_some (address, destination) destinationMember protocol portNonzero
      (if_pos listed) (matchedPair_lowers wellFormed _ destination _) names, sourceAt,
      Option.or_assoc]
    apply getD_filter_managed
    intro unmanaged
    obtain ⟨notIsolated, identityFree⟩ := lookupTiers_identity_eq_none lowerable ingress
      namesNonzero identityCompiled destinationMember consistent protocol portNonzero
      (.inr rfl) unmanaged
    rw [noFallback notIsolated, identityFree, ite_self, none_or]
  · obtain rfl := lists.eq_external listed registered
    have notPlaced : ipv4PairAt policies known addresses (address, destination) = none := by
      rw [ipv4PairAt, if_neg listed, if_neg fun both => nonzero both.1]
    rw [stores.installedTiers_none (address, destination) destinationMember protocol portNonzero
      notPlaced, none_or]
    by_cases isolated : isIsolated policies destination = true
    · have managed : ((ingressView policies externalEndpoint destination (some address)
          none).valueAt protocol port).managed = true :=
        tierValue_managed_of_isIsolated lowerable ingress isolated _ _
          (.exact protocol port)
      have placed : ipv4PairAt policies known addresses (0, destination) = some _ :=
        (if_neg zeroFree).trans (if_pos ⟨rfl, isolated⟩)
      refine ⟨fun _ => ?_, fun undecided => absurd (.inr (.inr isolated)) undecided⟩
      rw [stores.installedTiers_some (0, destination) destinationMember protocol portNonzero
        placed (matchedPair_lowers wellFormed _ destination _) names,
        ingressView_fallback lowerable lists nonzero listed, filter_managed managed, some_or,
        getD_some]
    · rw [noFallback isolated]
      refine ⟨fun decided => ?_, fun _ => rfl⟩
      rcases decided with ⟨endpoint, own⟩ | inBlock | isolated'
      · exact absurd ((lists address).mpr (.inl ⟨endpoint, own⟩)) listed
      · exact absurd ((lists address).mpr (.inr ⟨(mem_listedAddresses
          (ipv4SourceBlocks_listable lowerable) address).mpr inBlock, nonzero⟩)) listed
      · exact absurd isolated' isolated

/-! ### A quarantined namespace -/

/-- The entries of a compilation that has succeeded. -/
def entriesOf {κ : Type} (result : Except DataplaneCompileError (List (MapEntry κ))) :
    List (MapEntry κ) :=
  result.toOption.getD []

theorem eq_ok_entriesOf {κ : Type} {result : Except DataplaneCompileError (List (MapEntry κ))}
    (succeeds : result.isOk = true) : result = .ok (entriesOf result) := by
  cases result with
  | error failure => simp [Except.toBool] at succeeds
  | ok entries => rfl

/-- The maps written for the given policies and endpoints. -/
def ingressMaps (policies : List PolicyIr) (endpoints : List Endpoint)
    (ipv4Endpoints : List Ipv4Endpoint) (ipv6Endpoints : List Ipv6Endpoint) :
    IngressMaps where
  identity := installEntries (entriesOf (compileDataplaneEntries policies endpoints))
  ipv4 := installEntries
    (entriesOf (compileIpv4DataplaneEntries policies endpoints ipv4Endpoints))
  ipv6 := installEntries
    (entriesOf (compileIpv6DataplaneEntries policies endpoints ipv6Endpoints))

/-- A native policy for all workloads of `apps` that denies those of `batch`. -/
def batchQuarantine (defaultAction : PolicyAction) : SecurityPolicy where
  name := some "batch-quarantine"
  «namespace» := some "apps"
  target := ⟨none, none, none, ∅⟩
  ingress := [{
    «from» := ⟨some "batch", none, none, ∅⟩
    protocols := []
    action := .deny }]
  priority := 100
  defaultAction := defaultAction
  enforcementMode := .enforce

def batchQuarantineIr (defaultAction : PolicyAction) : PolicyIr where
  id := ⟨1⟩
  name := "batch-quarantine"
  «namespace» := "apps"
  priority := 100
  origin := .native
  direction := .ingress
  target := { IdentitySelector.unconstrained with «namespace» := some "apps" }
  defaultAction := defaultAction
  enforcementMode := .enforce
  rules := [{
    id := ⟨0⟩
    source := { IdentitySelector.unconstrained with «namespace» := some "batch" }
    destination := { IdentitySelector.unconstrained with «namespace» := some "apps" }
    protocol := none
    destinationPort := .any
    action := .deny
    provenance := ⟨⟨1⟩, "batch-quarantine", "apps", 0⟩ }]

theorem batchQuarantineIr_compiled (defaultAction : PolicyAction) :
    (batchQuarantineIr defaultAction).Compiled :=
  .native (show compileSecurityPolicy ⟨1⟩ (batchQuarantine defaultAction) = _ from rfl)

def workload (identity : UInt32) («namespace» : String) : Endpoint where
  identity := ⟨identity⟩
  «namespace» := «namespace»
  namespaceLabels := ∅
  serviceAccount := "default"
  application := none
  labels := ∅
  namedPorts := ∅

theorem workload_namesNonzeroPorts (identity : UInt32) («namespace» : String) :
    (workload identity «namespace»).NamesNonzeroPorts := by
  intro namedPort port found
  simp [workload] at found

/-- The workloads of the examples. -/
def quarantineEndpoints : List Endpoint :=
  [workload 7 "apps", workload 5 "batch"]

theorem quarantineEndpoints_identities :
    ∀ endpoint ∈ quarantineEndpoints, endpoint.identity.get ≠ 0 := by
  decide

theorem quarantineEndpoints_namesNonzeroPorts :
    ∀ endpoint ∈ quarantineEndpoints, endpoint.NamesNonzeroPorts := by
  simp only [quarantineEndpoints, forall_mem_cons, workload_namesNonzeroPorts,
    not_mem_nil, false_imp_iff, implies_true, and_self]

theorem quarantinePolicies_compiled :
    ∀ policy ∈ [batchQuarantineIr .audit], policy.Compiled := by
  simpa using batchQuarantineIr_compiled .audit

theorem quarantine_consistent : ∀ endpoint ∈ quarantineEndpoints,
    endpoint.identity = (workload 5 "batch").identity → endpoint = workload 5 "batch" := by
  simp [quarantineEndpoints, workload]

/-- The address map denies the quarantined workload as evaluation does. -/
theorem lookupIngressPolicy_ipv4_of_batch :
    (lookupIngressPolicy (ingressMaps [batchQuarantineIr .audit] quarantineEndpoints
        [⟨0x0a000005, workload 5 "batch"⟩] [])
        (some 0x0a000005) none (workload 5 "batch").identity (workload 7 "apps").identity
        443 Protocol.tcp.number).getD .unmanaged =
      (evaluate [batchQuarantineIr .audit] (ingressFlow (workload 5 "batch")
        (workload 7 "apps") (some 0x0a000005) none .tcp 443)).value := by
  have identitySucceeds : (compileDataplaneEntries [batchQuarantineIr .audit]
      quarantineEndpoints).isOk = true := by
    decide +kernel
  have ipv4Succeeds : (compileIpv4DataplaneEntries [batchQuarantineIr .audit]
      quarantineEndpoints [⟨0x0a000005, workload 5 "batch"⟩]).isOk = true := by
    decide +kernel
  have registered : RegisteredAt [⟨0x0a000005, workload 5 "batch"⟩] (0x0a000005 : Ipv4Addr)
      (workload 5 "batch") := .inl mem_cons_self
  have destinationMember : workload 7 "apps" ∈ quarantineEndpoints := mem_cons_self
  exact (lookupIngressPolicy_ipv4_eq quarantinePolicies_compiled quarantineEndpoints_identities
    quarantineEndpoints_namesNonzeroPorts (by simp) (eq_ok_entriesOf identitySucceeds)
    (eq_ok_entriesOf ipv4Succeeds) rfl rfl
    destinationMember (by decide) registered quarantine_consistent .tcp (by decide)).1
    (.inl ⟨workload 5 "batch", mem_cons_self⟩)

/-- Two ways to differ from evaluation: the identity map knows the source under
other metadata, or the source has no entry of its own and only native policies
select the destination. -/
theorem lookupIngressPolicy_ipv4_differs :
    ((compileDataplaneEntries [batchQuarantineIr .audit] quarantineEndpoints).isOk = true ∧
      (compileIpv4DataplaneEntries [batchQuarantineIr .audit] quarantineEndpoints
        [⟨0x0a000005, workload 5 "web"⟩]).isOk = true ∧
      ((lookupIngressPolicy (ingressMaps [batchQuarantineIr .audit] quarantineEndpoints
        [⟨0x0a000005, workload 5 "web"⟩] []) (some 0x0a000005) none ⟨5⟩ ⟨7⟩ 443 6).getD
          .unmanaged).decision.verdict = .deny ∧
      (evaluate [batchQuarantineIr .audit] (ingressFlow (workload 5 "web")
        (workload 7 "apps") (some 0x0a000005) none .tcp 443)).verdict = .allow) ∧
    ((compileDataplaneEntries [batchQuarantineIr .deny] quarantineEndpoints).isOk = true ∧
      (compileIpv4DataplaneEntries [batchQuarantineIr .deny] quarantineEndpoints []).isOk = true ∧
      lookupIngressPolicy (ingressMaps [batchQuarantineIr .deny] quarantineEndpoints [] [])
        (some 0xc6336407) none ⟨0⟩ ⟨7⟩ 443 6 = none ∧
      (evaluate [batchQuarantineIr .deny] (ingressFlow externalEndpoint
        (workload 7 "apps") (some 0xc6336407) none .tcp 443)).verdict = .deny) := by
  refine ⟨⟨?_, ?_, ?_, ?_⟩, ?_, ?_, ?_, ?_⟩ <;> decide +kernel

/-! ## The IPv6 map -/

section Ipv6

variable {known : ExtTreeMap Ipv6Addr Endpoint} {destination : Endpoint}

/-- The view of traffic from an IPv6 address. -/
def ipv6View (policies : List PolicyIr) (known : ExtTreeMap Ipv6Addr Endpoint)
    (destination : Endpoint) (address : Ipv6Addr) : PairView :=
  ingressView policies (endpointAt known address) destination none (some address)

variable (known) in
/-- The narrowest boundary around an address has a representative. -/
theorem exists_leaf {blocks : List Ipv6Block}
    (canonical : ∀ block ∈ blocks, block.Canonical) (address : Ipv6Addr) :
    ∃ leaf stand, Cidr.Narrowest (ipv6Boundaries blocks known) address leaf ∧
      representative (ipv6Boundaries blocks known) leaf = some stand ∧
      Cidr.Narrowest (ipv6Boundaries blocks known) stand leaf := by
  obtain ⟨leaf, narrowest⟩ := Cidr.exists_narrowest
    (mem_ipv6Boundaries.mpr (.inl rfl) : ⟨0, 0⟩ ∈ ipv6Boundaries blocks known)
    (Cidr.zero_contains address)
  obtain ⟨stand, found⟩ := narrowest.exists_uncovered
  exact ⟨leaf, stand, narrowest, found, Cidr.narrowest_uncovered narrowest.member
    (ipv6Boundaries_canonical canonical narrowest.member) found⟩

theorem ipv6View_within_of_narrowest {left right : Ipv6Addr} {boundary : Ipv6Cidr}
    (leftNarrowest : Cidr.Narrowest (ipv6Boundaries (ipv6SourceBlocks policies) known) left
      boundary)
    (rightNarrowest : Cidr.Narrowest (ipv6Boundaries (ipv6SourceBlocks policies) known) right
      boundary) : (ipv6View policies known destination left).Within
      (ipv6View policies known destination right) := by
  apply ingressView_within
  intro policy applies rule ruleMember fromSource
  rw [← endpointAt_of_narrowest leftNarrowest rightNarrowest,
    ← matchesAddressed_of_narrowest leftNarrowest rightNarrowest]
  · exact fromSource
  · intro block blockMember
    exact mem_ruleBlocks.mpr ⟨policy, mem_of_mem_filter applies, rule, ruleMember, blockMember⟩

/-- A native rule that matches an external source matches every source. -/
theorem ipv6View_within_of_external (lowerable : ∀ policy ∈ policies, policy.Lowerable)
    (notIsolated : ¬isIsolated policies destination = true) {left : Ipv6Addr}
    (external : endpointAt known left = externalEndpoint) (right : Ipv6Addr) :
    (ipv6View policies known destination left).Within
      (ipv6View policies known destination right) := by
  apply ingressView_within
  intro policy applies rule ruleMember fromSource
  rw [external] at fromSource
  have noBlocks := (lowerable policy (mem_of_mem_filter applies)).nativeSources
    (native_of_not_isIsolated notIsolated applies) rule ruleMember
  simp only [matchesAddressed, noBlocks.1, noBlocks.2, externalEndpoint,
    isEmpty_nil, Bool.and_eq_true, Bool.or_eq_true, bne_self_eq_false, Bool.not_true,
    Bool.false_eq_true, false_or] at fromSource
  have unconstrained := fromSource.1.1
  simp only [matchesAddressed, unconstrained, Bool.or_true, Bool.true_and,
    matchesEndpoint_of_isUnconstrained unconstrained,
    matchesAddresses_of_hasNoBlocks noBlocks (.inl rfl : SingleFamily none (some right))]

variable (lowerable : ∀ policy ∈ policies, policy.Lowerable)
  (ingress : ∀ policy ∈ policies, policy.direction = .ingress)

include lowerable

/-- The tiers of a uniform pair are the same for every source. -/
theorem kept_uniformPair_eq_some_iff {address : Ipv6Addr} {key : TierKey Protocol UInt16}
    {value : PolicyValue} :
    (uniformPair policies (endpointAt known address) address destination).kept key = some value ↔
      (TierDefined ((selectingRules policies destination).filter fun rule =>
          rule.destination.matchesEndpoint destination) destination key ∧
        (ipv6View policies known destination address).tierValue key = value) ∧
        value.managed = true := by
  have lowers := uniformPair_lowers (transportsWellFormed_of_lowerable lowerable)
    (endpointAt known address) destination address
  rw [PairDecisions.kept, Tiers.kept, filter_eq_some_iff, lowers.value_eq_some_iff]
  rfl

include ingress in
/-- Every tier is found under the narrowest boundary around the address, with the
value that the address itself has. -/
theorem longestMatch_ipv6 (address : Ipv6Addr) (key : TierKey Protocol UInt16) :
    Cidr.longestMatch (fun cidr => tableOf PairDecisions.kept (ipv6PairAt policies known
        (ipv6Boundaries (ipv6SourceBlocks policies) known) (cidr, destination)) key) address =
      (uniformPair policies (endpointAt known address) address destination).kept key := by
  have blocksCanonical : ∀ block ∈ ipv6SourceBlocks policies, block.Canonical :=
    ruleBlocks_canonical fun policy member => (lowerable policy member).sourceBlocks
  have canonical : ∀ boundary ∈ ipv6Boundaries (ipv6SourceBlocks policies) known,
      boundary.Canonical :=
    fun _ => ipv6Boundaries_canonical blocksCanonical
  obtain ⟨leaf, stand, narrowest, represented, leafNarrowest⟩ :=
    exists_leaf known blocksCanonical address
  have leafTable : tableOf PairDecisions.kept (ipv6PairAt policies known
      (ipv6Boundaries (ipv6SourceBlocks policies) known) (leaf, destination)) key =
      (uniformPair policies (endpointAt known address) address destination).kept key := by
    have placed : ipv6PairAt policies known
        (ipv6Boundaries (ipv6SourceBlocks policies) known) (leaf, destination) =
        some (uniformPair policies (endpointAt known stand) stand destination) := by
      rw [ipv6PairAt, if_pos narrowest.member, represented, map_some]
    have sameValue : (ipv6View policies known destination stand).tierValue key =
        (ipv6View policies known destination address).tierValue key :=
      PairView.tierValue_congr (ipv6View_within_of_narrowest leafNarrowest narrowest)
        (ipv6View_within_of_narrowest narrowest leafNarrowest) key
    rw [placed, tableOf, bind_some]
    apply Option.ext
    intro value
    rw [kept_uniformPair_eq_some_iff lowerable, kept_uniformPair_eq_some_iff lowerable, sameValue]
  cases stored : (uniformPair policies (endpointAt known address) address destination).kept key with
  | some value =>
    refine Cidr.longestMatch_eq_some (leafTable.trans stored) narrowest.contains ?_
    intro other contained longer
    have absent : other ∉ ipv6Boundaries (ipv6SourceBlocks policies) known :=
      fun member => absurd (narrowest.longest other member contained) (not_le.mpr longer)
    rw [ipv6PairAt, if_neg absent]
    rfl
  | none =>
    apply Cidr.longestMatch_eq_none
    intro cidr contained
    by_contra present
    obtain ⟨value, cidrTable⟩ := ne_none_iff_exists'.mp present
    obtain ⟨pair, placed, cidrStored⟩ := bind_eq_some_iff.mp cidrTable
    rw [ipv6PairAt, ite_none_right_eq_some, map_eq_some_iff] at placed
    obtain ⟨member, other, otherFound, rfl⟩ := placed
    have otherNarrowest := Cidr.narrowest_uncovered member (canonical cidr member) otherFound
    -- Only the narrowest boundary can be as long as an address.
    have shorter : cidr.prefixLen < 128 := by
      by_contra full
      have lengths : cidr.prefixLen = leaf.prefixLen :=
        le_antisymm (narrowest.longest cidr member contained)
          ((canonical leaf narrowest.member).1.trans (not_lt.mp full))
      rw [Cidr.eq_of_contains contained narrowest.contains lengths] at cidrTable
      exact absurd (leafTable.symm.trans cidrTable) (by simp [stored])
    obtain ⟨⟨defines, rfl⟩, managed⟩ := (kept_uniformPair_eq_some_iff lowerable).mp cidrStored
    have managedHere : ((ipv6View policies known destination address).tierValue
        key).managed = true := by
      by_cases isolated : isIsolated policies destination = true
      · exact tierValue_managed_of_isIsolated lowerable ingress isolated _ _ key
      · exact (ipv6View_within_of_external lowerable isolated
          (endpointAt_of_shorter otherNarrowest shorter) address).tierValue_managed managed
    have storedHere := (kept_uniformPair_eq_some_iff lowerable).mpr ⟨⟨defines, rfl⟩, managedHere⟩
    exact absurd (stored.symm.trans storedHere) (by simp)

end Ipv6

/-- The lookup for an IPv6 source returns the evaluated decision. -/
theorem lookupIngressPolicy_ipv6_eq {policies : List PolicyIr} {endpoints : List Endpoint}
    {ipv6Endpoints : List Ipv6Endpoint} {identityEntries : List PolicyMapEntry}
    {ipv6Entries : List Ipv6PolicyMapEntry} {maps : IngressMaps}
    (compiled : ∀ policy ∈ policies, policy.Compiled)
    (identities : ∀ endpoint ∈ endpoints, endpoint.identity.get ≠ 0)
    (namesNonzero : ∀ endpoint ∈ endpoints, endpoint.NamesNonzeroPorts)
    (identityCompiled : compileDataplaneEntries policies endpoints = .ok identityEntries)
    (ipv6Compiled : compileIpv6DataplaneEntries policies endpoints ipv6Endpoints = .ok ipv6Entries)
    (identityMap : maps.identity = installEntries identityEntries)
    (ipv6Map : maps.ipv6 = installEntries ipv6Entries)
    {destination : Endpoint} (destinationMember : destination ∈ endpoints)
    {address : Ipv6Addr} {source : Endpoint}
    (registered : RegisteredAt ipv6Endpoints address source)
    (consistent : ∀ endpoint ∈ endpoints, endpoint.identity = source.identity → endpoint = source)
    (protocol : Protocol) {port : UInt16} (portNonzero : port ≠ 0) :
    (lookupIngressPolicy maps none (some address) source.identity destination.identity port
        protocol.number).getD .unmanaged = (evaluate policies
        (ingressFlow source destination none (some address) protocol port)).value := by
  have lowerable := fun policy member => (compiled policy member).lowerable
  have wellFormed := transportsWellFormed_of_lowerable lowerable
  have ingress := direction_of_ensured identityCompiled
  obtain ⟨known, knownBuilt, stores⟩ := compileIpv6DataplaneEntries_ok wellFormed ipv6Compiled
  have sourceAt := registered.endpointAt_eq knownBuilt
  have value_eq : (evaluate policies
      (ingressFlow source destination none (some address) protocol port)).value =
      (ingressView policies source destination none (some address)).valueAt protocol port :=
    value_evaluate_eq_valueAt policies .ingress _ {}
  -- No entry belongs to the identity of a node.
  have nodeFree : lookupIpv6PolicyValue (installEntries ipv6Entries) ⟨0⟩ address 0 0 =
      none := by
    apply Cidr.longestMatch_eq_none
    intro cidr _
    apply stores.getElem?_eq_none
    rintro ⟨other, endpoint⟩ member number otherPort equal
    simp only [ipv6Key, Ipv6PolicyMapKey.mk.injEq] at equal
    exact identities endpoint member (by rw [equal.2.2.1])
  have tier : ∀ key, TierKeyProper key →
      lookupIpv6PolicyValue (installEntries ipv6Entries) destination.identity address
        (tupleKey key).1 (tupleKey key).2 =
      (uniformPair policies (endpointAt known address) address destination).kept key := by
    intro key proper
    rw [← longestMatch_ipv6 lowerable ingress, lookupIpv6PolicyValue]
    congr 1
    funext cidr
    exact stores.getElem?_installEntries (cidr, destination) destinationMember proper
  have lowers := uniformPair_lowers wellFormed (endpointAt known address) destination address
  have tiers : lookupTiers (lookupIpv6PolicyValue (installEntries ipv6Entries)
      destination.identity address) protocol.number port =
      (some ((ingressView policies source destination none (some address)).valueAt protocol
        port)).filter PolicyValue.managed := by
    rw [lookupTiers_eq_search tier protocol portNonzero, ← sourceAt]
    exact lowers.search_kept (lowers.exactTuples_ne_zero
      (namesNonzero destination destinationMember)) portNonzero
  simp only [lookupIngressPolicy, identities destination destinationMember, bind_some,
    lookupIngressIpv6, ipv6Map, identityMap, nodeFree, tiers, value_eq]
  apply getD_filter_managed
  intro unmanaged
  obtain ⟨-, identityFree⟩ := lookupTiers_identity_eq_none lowerable ingress namesNonzero
    identityCompiled destinationMember consistent protocol portNonzero (.inl rfl) unmanaged
  rw [identityFree, ite_self]

/-- The prefix map denies the quarantined workload as evaluation does. -/
theorem lookupIngressPolicy_ipv6_of_batch :
    (lookupIngressPolicy (ingressMaps [batchQuarantineIr .audit] quarantineEndpoints []
        [⟨0xfd000000000000000000000000000005, workload 5 "batch"⟩])
        none (some 0xfd000000000000000000000000000005) (workload 5 "batch").identity
        (workload 7 "apps").identity 443 Protocol.tcp.number).getD .unmanaged =
      (evaluate [batchQuarantineIr .audit] (ingressFlow (workload 5 "batch")
        (workload 7 "apps") none (some 0xfd000000000000000000000000000005) .tcp 443)).value := by
  have identitySucceeds : (compileDataplaneEntries [batchQuarantineIr .audit]
      quarantineEndpoints).isOk = true := by
    decide +kernel
  have ipv6Succeeds : (compileIpv6DataplaneEntries [batchQuarantineIr .audit] quarantineEndpoints
      [⟨0xfd000000000000000000000000000005, workload 5 "batch"⟩]).isOk = true := by
    decide +kernel
  have registered : RegisteredAt
      [⟨0xfd000000000000000000000000000005, workload 5 "batch"⟩]
      (0xfd000000000000000000000000000005 : Ipv6Addr) (workload 5 "batch") :=
    .inl mem_cons_self
  have destinationMember : workload 7 "apps" ∈ quarantineEndpoints := mem_cons_self
  exact lookupIngressPolicy_ipv6_eq quarantinePolicies_compiled quarantineEndpoints_identities
    quarantineEndpoints_namesNonzeroPorts (eq_ok_entriesOf identitySucceeds)
    (eq_ok_entriesOf ipv6Succeeds) rfl rfl
    destinationMember registered quarantine_consistent .tcp (by decide)

/-- When the identity map knows the source under other metadata than the prefix map,
the lookup denies what evaluation allows. -/
theorem lookupIngressPolicy_ipv6_differs :
    (compileDataplaneEntries [batchQuarantineIr .audit] quarantineEndpoints).isOk = true ∧
    (compileIpv6DataplaneEntries [batchQuarantineIr .audit] quarantineEndpoints
      [⟨0xfd000000000000000000000000000005, workload 5 "web"⟩]).isOk = true ∧
    ((lookupIngressPolicy (ingressMaps [batchQuarantineIr .audit] quarantineEndpoints []
      [⟨0xfd000000000000000000000000000005, workload 5 "web"⟩])
      none (some 0xfd000000000000000000000000000005) ⟨5⟩ ⟨7⟩ 443 6).getD
        .unmanaged).decision.verdict = .deny ∧
    (evaluate [batchQuarantineIr .audit] (ingressFlow (workload 5 "web")
      (workload 7 "apps") none (some 0xfd000000000000000000000000000005) .tcp
        443)).verdict = .allow := by
  refine ⟨?_, ?_, ?_, ?_⟩ <;> decide +kernel

end Unf.Policy
