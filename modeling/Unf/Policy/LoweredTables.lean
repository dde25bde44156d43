import Unf.Policy.ListedAddresses

/-!
# Tables written by the compilers

The entries of each compiler are the tables of its pairs, one for each place of
the map: a pair of identities, an address and an identity, or a prefix and an
identity.
-/

namespace Unf.Policy

open Std (ExtTreeMap ExtTreeSet)
open Unf.Lib Appends PairDecisions List

/-- Only the values that differ from what they inherit. -/
def PairDecisions.changed (pair : PairDecisions) :
    TierKey Protocol UInt16 → Option PolicyValue :=
  pair.tiers.changed PolicyValue.managed

/-- All values with provenance. -/
def PairDecisions.kept (pair : PairDecisions) :
    TierKey Protocol UInt16 → Option PolicyValue :=
  pair.tiers.kept PolicyValue.managed

variable {key : TierKey Protocol UInt16} {policies : List PolicyIr} {endpoints : List Endpoint}
  {ipv4Endpoints : List Ipv4Endpoint} {addresses : ExtTreeSet Ipv4Addr} {value : PolicyValue}
  {lowered : PairDecisions → TierKey Protocol UInt16 → Option PolicyValue}
  {known : ExtTreeMap Ipv4Addr Endpoint} {blocks : List Ipv4Block}
  {ipv6Endpoints : List Ipv6Endpoint} {pair : PairDecisions} {κ : Type}
  {keyFor : UInt8 → UInt16 → κ}

theorem PairDecisions.changed_proper (found : pair.changed key = some value) : TierKeyProper key :=
  pair.value_proper (Option.filter_eq_some_iff.mp found).1

theorem PairDecisions.kept_proper (found : pair.kept key = some value) :
    TierKeyProper key :=
  pair.value_proper (Option.filter_eq_some_iff.mp found).1

/-- The table at a place that may have a pair. -/
def tableOf (lowered : PairDecisions → TierKey Protocol UInt16 → Option PolicyValue)
    (pair : Option PairDecisions) (key : TierKey Protocol UInt16) : Option PolicyValue :=
  pair.bind fun decisions => lowered decisions key

theorem storedUnder_tableOf {pair : Option PairDecisions}
    {entry : MapEntry κ} : StoredUnder keyFor (tableOf lowered pair) entry ↔
      ∃ decisions, pair = some decisions ∧ StoredUnder keyFor (lowered decisions) entry := by
  cases pair <;> simp [StoredUnder, tableOf]

theorem tableOf_proper
    (proper : ∀ {pair key value}, lowered pair key = some value → TierKeyProper key)
    {pair : Option PairDecisions} (found : tableOf lowered pair key = some value) :
    TierKeyProper key := by
  obtain ⟨decisions, -, lowered⟩ := Option.bind_eq_some_iff.mp found
  exact proper lowered

section Installed

variable {κ ι : Type} [LinearOrder κ] {valid : ι → Prop} {keyFor : ι → UInt8 → UInt16 → κ}
  {pairAt : ι → Option PairDecisions} {entries : List (MapEntry κ)}
  (stores : StoresTables valid keyFor (fun place => tableOf PairDecisions.changed (pairAt place))
    entries) (index : ι) (isValid : valid index) (protocol : Protocol) {port : UInt16}
  (portNonzero : port ≠ 0)

include stores isValid portNonzero

/-- The entries of a place with a pair hold the value of its flows, if some policy decides. -/
theorem StoresTables.installedTiers_some {pair : PairDecisions} {view : PairView}
    {considered : List PolicyRule} (placed : pairAt index = some pair)
    (lowers : pair.Lowers view considered) (namesNonzero : view.destination.NamesNonzeroPorts) :
    installedTiers entries (keyFor index) protocol port =
      (some (view.valueAt protocol port)).filter PolicyValue.managed := by
  rw [stores.installedTiers_eq index isValid protocol portNonzero, placed]
  exact lowers.search_changed (lowers.exactTuples_ne_zero namesNonzero) portNonzero

theorem StoresTables.installedTiers_none (placed : pairAt index = none) :
    installedTiers entries (keyFor index) protocol port = none := by
  rw [stores.installedTiers_eq index isValid protocol portNonzero, placed]
  rfl

end Installed

theorem PairDecisions.Lowers.appends_pushChanged {view : PairView}
    {considered : List PolicyRule} (lowers : pair.Lowers view considered)
    (namesNonzero : view.destination.NamesNonzeroPorts) :
    Appends (pair.pushChanged fun protocol port => mapEntry (keyFor protocol port))
      (StoredUnder keyFor pair.changed) :=
  PairDecisions.appends_pushChanged lowers.recorded (lowers.exactTuples_ne_zero namesNonzero)

/-! ## The identity map -/

def identityKey (place : Endpoint × Endpoint) (protocol : UInt8) (port : UInt16) :
    PolicyMapKey :=
  ⟨place.1.identity, place.2.identity, protocol, port⟩

variable (wellFormed : TransportsWellFormed policies)

include wellFormed in
theorem compileDataplaneEntries_ok {entries : List PolicyMapEntry}
    (namesNonzero : ∀ endpoint ∈ endpoints, endpoint.NamesNonzeroPorts)
    (compiled : compileDataplaneEntries policies endpoints = .ok entries) :
    StoresTables (fun place : Endpoint × Endpoint => place.1 ∈ endpoints ∧ place.2 ∈ endpoints)
      identityKey (fun place => (matchedPair policies place.1 none place.2).changed) entries := by
  simp only [compileDataplaneEntries, eq_ok_iffs] at compiled
  obtain ⟨-, unique, built, collected, loop, rfl⟩ := compiled
  constructor
  · intro entry
    have pairStep (source : Endpoint) : ∀ destination ∈ orderedValues unique,
        Appends (compileIdentityPair policies source destination)
          (StoredUnder (identityKey (source, destination))
            (matchedPair policies source none destination).changed) := by
      intro destination member
      exact (matchedPair_lowers wellFormed source destination none).appends_pushChanged
        (namesNonzero destination ((mem_uniqueEndpoints built).mp member))
    rw [mem_sortByKey, foldlM (fun source _ => .foldlM (pairStep source)) _ _ loop]
    simp only [not_mem_nil, false_or, mem_uniqueEndpoints built, Prod.exists]
    grind
  · intro first second firstValid secondValid protocol port number other equal
    simp only [identityKey, PolicyMapKey.mk.injEq] at equal
    obtain ⟨sources, destinations, protocols, ports⟩ := equal
    exact ⟨Prod.ext (eq_of_identity_eq built firstValid.1 secondValid.1 sources)
      (eq_of_identity_eq built firstValid.2 secondValid.2 destinations), protocols, ports⟩
  · exact changed_proper

/-! ## The IPv4 maps -/

/-- The addresses with entries of their own: the registered ones, and those
listed for the blocks. -/
def ListsAddresses (ipv4Endpoints : List Ipv4Endpoint) (blocks : List Ipv4Block)
    (addresses : ExtTreeSet Ipv4Addr) : Prop :=
  ∀ address, address ∈ addresses ↔ (∃ endpoint, ⟨address, endpoint⟩ ∈ ipv4Endpoints) ∨
    address ∈ listedAddresses blocks ∧ address ≠ 0

private theorem listsAddresses_of_ok {conflict : Ipv4Addr → DataplaneCompileError}
    (built : knownEndpoints conflict ipv4Endpoints = .ok known)
    (computed : (listedAddresses blocks).foldlM insertAddress
      (ExtTreeSet.ofList known.keys) = .ok addresses) :
    ListsAddresses ipv4Endpoints blocks addresses := by
  intro address
  rw [foldlM_insertAddress_ok computed, ExtTreeSet.mem_ofList, contains_iff_mem,
    ExtTreeMap.mem_keys, ← ExtTreeMap.isSome_getElem?_iff_mem, Option.isSome_iff_exists]
  simp only [getElem?_knownEndpoints built]

variable (lists : ListsAddresses ipv4Endpoints blocks addresses)

include lists

theorem ListsAddresses.zero_notMem
    (unspecified : ∀ endpoint, ⟨0, endpoint⟩ ∉ ipv4Endpoints) : (0 : Ipv4Addr) ∉ addresses := by
  rw [lists]
  rintro (⟨endpoint, member⟩ | ⟨-, nonzero⟩)
  · exact unspecified endpoint member
  · exact nonzero rfl

theorem ListsAddresses.eq_external
    {address : Ipv4Addr} (unlisted : address ∉ addresses) {endpoint : Endpoint}
    (registered : RegisteredAt ipv4Endpoints address endpoint) : endpoint = externalEndpoint := by
  rcases registered with own | ⟨-, external⟩
  · exact absurd ((lists address).mpr (.inl ⟨endpoint, own⟩)) unlisted
  · exact external

omit lists

/-- A table with entries for listed addresses, and for address zero where the rest has some. -/
theorem exists_pairAt_iff {listed : Ipv4Addr → PairDecisions} {fallback : PairDecisions}
    {applies : Prop} [Decidable applies] {holds : Ipv4Addr → PairDecisions → Prop}
    (zeroFree : (0 : Ipv4Addr) ∉ addresses) :
    (∃ address pair, (if address ∈ addresses then some (listed address)
        else if address = 0 ∧ applies then some fallback else none) = some pair ∧
      holds address pair) ↔
      (∃ address ∈ addresses, holds address (listed address)) ∨ applies ∧ holds 0 fallback := by
  constructor
  · rintro ⟨address, pair, found, held⟩
    split_ifs at found with member unlisted
    · exact .inl ⟨address, member, Option.some.inj found ▸ held⟩
    · obtain ⟨rfl, applies⟩ := unlisted
      exact .inr ⟨applies, Option.some.inj found ▸ held⟩
  · rintro (⟨address, member, held⟩ | ⟨applies, held⟩)
    · exact ⟨address, _, if_pos member, held⟩
    · exact ⟨0, _, by rw [if_neg zeroFree, if_pos ⟨rfl, applies⟩], held⟩

def ipv4Key (place : Ipv4Addr × Endpoint) (protocol : UInt8) (port : UInt16) :
    Ipv4PolicyMapKey :=
  ⟨place.1, place.2.identity, protocol, port⟩

/-- The pair lowered for a source address; address zero holds the pair of the
unlisted sources. -/
def ipv4PairAt (policies : List PolicyIr) (known : ExtTreeMap Ipv4Addr Endpoint)
    (addresses : ExtTreeSet Ipv4Addr) (place : Ipv4Addr × Endpoint) :
    Option PairDecisions :=
  if place.1 ∈ addresses then
    some (matchedPair policies (endpointAt known place.1) (some place.1) place.2)
  else if place.1 = 0 ∧ isIsolated policies place.2 = true then
    some (matchedPair policies externalEndpoint
      (fallbackAddress (ipv4SourceBlocks policies) addresses) place.2)
  else
    none

include wellFormed in
theorem compileIpv4DataplaneEntries_ok {entries : List Ipv4PolicyMapEntry}
    (namesNonzero : ∀ endpoint ∈ endpoints, endpoint.NamesNonzeroPorts)
    (unspecified : ∀ endpoint, ⟨0, endpoint⟩ ∉ ipv4Endpoints)
    (compiled : compileIpv4DataplaneEntries policies endpoints ipv4Endpoints = .ok entries) :
    ∃ known addresses, knownEndpoints .ipv4MetadataConflict ipv4Endpoints = .ok known ∧
      ListsAddresses ipv4Endpoints (ipv4SourceBlocks policies) addresses ∧
      StoresTables (fun place : Ipv4Addr × Endpoint => place.2 ∈ endpoints) ipv4Key
        (fun place => tableOf changed (ipv4PairAt policies known addresses place)) entries := by
  simp only [compileIpv4DataplaneEntries, eq_ok_iffs] at compiled
  obtain ⟨-, unique, built, known, knownBuilt, -, addresses, addressesComputed, listed,
    listedLoop, collected, fallbackLoop, rfl⟩ := compiled
  have lists : ListsAddresses ipv4Endpoints (ipv4SourceBlocks policies) addresses :=
    listsAddresses_of_ok knownBuilt addressesComputed
  refine ⟨known, addresses, knownBuilt, lists, ?_, ?_, tableOf_proper changed_proper⟩
  · intro entry
    have pairStep (source : Endpoint) (sourceIpv4 : Option Ipv4Addr) (address : Ipv4Addr) :
        ∀ destination ∈ orderedValues unique,
        Appends (compileIpv4Pair policies source sourceIpv4 address destination)
          (StoredUnder (ipv4Key (address, destination))
            (matchedPair policies source sourceIpv4 destination).changed) := by
      intro destination member
      exact (matchedPair_lowers wellFormed source destination sourceIpv4).appends_pushChanged
        (namesNonzero destination ((mem_uniqueEndpoints built).mp member))
    rw [mem_sortByKey, foldlM (fun destination member =>
        pairStep _ _ _ destination (mem_of_mem_filter member)) _ _ fallbackLoop,
      foldlM (fun address _ => .foldlM (pairStep _ _ address)) _ _ listedLoop]
    simp only [not_mem_nil, false_or, mem_filter, ExtTreeSet.mem_toList,
      mem_uniqueEndpoints built, Prod.exists, storedUnder_tableOf, ipv4PairAt]
    rw [exists_comm]
    simp only [exists_and_left, exists_pairAt_iff (lists.zero_notMem unspecified)]
    grind
  · intro first second firstValid secondValid protocol port number other equal
    simp only [ipv4Key, Ipv4PolicyMapKey.mk.injEq] at equal
    obtain ⟨sources, destinations, protocols, ports⟩ := equal
    exact ⟨Prod.ext sources (eq_of_identity_eq built firstValid secondValid destinations),
      protocols, ports⟩

def egressIpv4Key (place : Endpoint × Ipv4Addr) (protocol : UInt8) (port : UInt16) :
    EgressIpv4PolicyMapKey :=
  ⟨place.1.identity, place.2, protocol, port⟩

/-- The pair lowered for a destination address; address zero holds the pair of the
unlisted destinations. -/
def egressIpv4PairAt (policies : List PolicyIr) (known : ExtTreeMap Ipv4Addr Endpoint)
    (addresses : ExtTreeSet Ipv4Addr) (place : Endpoint × Ipv4Addr) :
    Option PairDecisions :=
  if place.2 ∈ addresses then
    some (egressPair policies place.1 (endpointAt known place.2) { ipv4 := some place.2 })
  else if place.2 = 0 ∧ isTargeted policies place.1 = true then
    some (egressPair policies place.1 externalEndpoint
      { ipv4 := fallbackAddress (ipv4DestinationBlocks policies) addresses })
  else
    none

/-- Endpoints at addresses name non-zero ports when the registered ones do. -/
theorem endpointAt_namesNonzeroPorts {width : Nat} {conflict : BitVec width → DataplaneCompileError}
    {addressed : List (AddressedEndpoint width)} {known : ExtTreeMap (BitVec width) Endpoint}
    (built : knownEndpoints conflict addressed = .ok known)
    (namesNonzero : ∀ item ∈ addressed, item.endpoint.NamesNonzeroPorts)
    (address : BitVec width) : (endpointAt known address).NamesNonzeroPorts := by
  rw [endpointAt]
  cases found : known[address]? with
  | none => exact externalEndpoint_namesNonzeroPorts
  | some endpoint =>
    exact namesNonzero _ ((getElem?_knownEndpoints built address endpoint).mp found)

include wellFormed in
private theorem appends_compileEgressIpv4Source
    (namesNonzero : ∀ address, (endpointAt known address).NamesNonzeroPorts)
    (zeroFree : (0 : Ipv4Addr) ∉ addresses) (source : Endpoint) :
    Appends (fun before => compileEgressIpv4Source policies known addresses before source)
      fun entry => ∃ address, StoredUnder (egressIpv4Key (source, address)) (tableOf changed
          (egressIpv4PairAt policies known addresses (source, address))) entry := by
  intro before after compiled entry
  have pairStep (destination : Endpoint) (destinationIpv4 : Option Ipv4Addr) (address : Ipv4Addr)
      (nonzero : destination.NamesNonzeroPorts) :
      Appends (compileEgressIpv4Pair policies source destination destinationIpv4 address)
        (StoredUnder (egressIpv4Key (source, address))
          (egressPair policies source destination { ipv4 := destinationIpv4 }).changed) :=
    (egressPair_lowers wellFormed source destination _).appends_pushChanged nonzero
  obtain ⟨listed, listedLoop, fallback⟩ := bind_eq_ok.mp compiled
  have listedIff := foldlM (fun address _ =>
    pairStep _ _ address (namesNonzero address)) _ _ listedLoop
  simp only [ExtTreeSet.mem_toList] at listedIff
  simp only [storedUnder_tableOf]
  simp only [egressIpv4PairAt, exists_pairAt_iff zeroFree]
  by_cases targeted : isTargeted policies source = true
  · rw [if_pos targeted] at fallback
    rw [pairStep _ _ _ externalEndpoint_namesNonzeroPorts _ _ fallback, listedIff, or_assoc]
    simp only [targeted, true_and]
  · rw [if_neg targeted] at fallback
    obtain rfl := Except.ok.inj fallback
    rw [listedIff]
    simp only [targeted, false_and, or_false, Bool.false_eq_true]

include wellFormed in
theorem compileEgressIpv4DataplaneEntries_ok {entries : List EgressIpv4PolicyMapEntry}
    (namesNonzero : ∀ item ∈ ipv4Endpoints, item.endpoint.NamesNonzeroPorts)
    (unspecified : ∀ endpoint, ⟨0, endpoint⟩ ∉ ipv4Endpoints)
    (compiled : compileEgressIpv4DataplaneEntries policies endpoints ipv4Endpoints = .ok entries) :
    ∃ known addresses, knownEndpoints .egressIpv4MetadataConflict ipv4Endpoints = .ok known ∧
      ListsAddresses ipv4Endpoints (ipv4DestinationBlocks policies) addresses ∧
      StoresTables (fun place : Endpoint × Ipv4Addr => place.1 ∈ endpoints) egressIpv4Key
        (fun place => tableOf changed
          (egressIpv4PairAt policies known addresses place)) entries := by
  simp only [compileEgressIpv4DataplaneEntries, eq_ok_iffs] at compiled
  obtain ⟨-, unique, built, known, knownBuilt, -, -, addresses, addressesComputed, collected,
    loop, rfl⟩ := compiled
  have lists : ListsAddresses ipv4Endpoints (ipv4DestinationBlocks policies) addresses :=
    listsAddresses_of_ok knownBuilt addressesComputed
  refine ⟨known, addresses, knownBuilt, lists, ?_, ?_, tableOf_proper changed_proper⟩
  · intro entry
    rw [mem_sortByKey, foldlM (fun source _ => appends_compileEgressIpv4Source wellFormed
      (endpointAt_namesNonzeroPorts knownBuilt namesNonzero) (lists.zero_notMem unspecified)
      source) _ _ loop]
    simp only [not_mem_nil, false_or, mem_uniqueEndpoints built, Prod.exists, exists_and_left]
  · intro first second firstValid secondValid protocol port number other equal
    simp only [egressIpv4Key, EgressIpv4PolicyMapKey.mk.injEq] at equal
    obtain ⟨sources, destinations, protocols, ports⟩ := equal
    exact ⟨Prod.ext (eq_of_identity_eq built firstValid secondValid sources) destinations,
      protocols, ports⟩

/-! ## The IPv6 maps -/

section Representatives

variable {κ : Type} {boundaries : List Ipv6Cidr}
  {compilePair : Ipv6Cidr → Ipv6Addr → List (MapEntry κ) →
    Except DataplaneCompileError (List (MapEntry κ))}
  {added : Ipv6Cidr → Ipv6Addr → MapEntry κ → Prop}
  (step : ∀ boundary address, Appends (compilePair boundary address) (added boundary address))

include step

private theorem appends_atRepresentative (boundary : Ipv6Cidr) :
    Appends (fun before => atRepresentative boundaries compilePair before boundary)
      fun entry => ∃ address, representative boundaries boundary = some address ∧
        added boundary address entry := by
  intro before after computed entry
  dsimp only [atRepresentative] at computed
  cases found : representative boundaries boundary with
  | none =>
    rw [found] at computed
    rw [Except.ok.inj computed]
    simp
  | some address =>
    rw [found] at computed
    rw [step boundary address before after computed]
    simp

theorem appends_forRepresentatives :
    Appends (forRepresentatives boundaries compilePair) fun entry => ∃ boundary ∈ boundaries,
      ∃ address, representative boundaries boundary = some address ∧ added boundary address entry :=
  foldlM fun boundary _ => appends_atRepresentative step boundary

end Representatives

def ipv6Key (place : Ipv6Cidr × Endpoint) (protocol : UInt8) (port : UInt16) :
    Ipv6PolicyMapKey :=
  ⟨place.1.network, place.1.prefixLen, place.2.identity, protocol, port⟩

/-- The pair lowered for a boundary: that of its representative. -/
def ipv6PairAt (policies : List PolicyIr) (known : ExtTreeMap Ipv6Addr Endpoint)
    (boundaries : List Ipv6Cidr) (place : Ipv6Cidr × Endpoint) : Option PairDecisions :=
  if place.1 ∈ boundaries then
    (representative boundaries place.1).map fun address =>
      uniformPair policies (endpointAt known address) address place.2
  else
    none

include wellFormed in
theorem compileIpv6DataplaneEntries_ok {entries : List Ipv6PolicyMapEntry}
    (compiled : compileIpv6DataplaneEntries policies endpoints ipv6Endpoints = .ok entries) :
    ∃ known, knownEndpoints .ipv6MetadataConflict ipv6Endpoints = .ok known ∧
      StoresTables (fun place : Ipv6Cidr × Endpoint => place.2 ∈ endpoints) ipv6Key
        (fun place => tableOf kept (ipv6PairAt policies known
          (ipv6Boundaries (ipv6SourceBlocks policies) known) place)) entries := by
  simp only [compileIpv6DataplaneEntries, eq_ok_iffs] at compiled
  obtain ⟨-, unique, built, known, knownBuilt, -, collected, loop, rfl⟩ := compiled
  refine ⟨known, knownBuilt, ?_, ?_, tableOf_proper kept_proper⟩
  · intro entry
    have pairStep (destination : Endpoint) (boundary : Ipv6Cidr) (address : Ipv6Addr) :
        Appends (compileIpv6Pair policies (endpointAt known address) address boundary destination)
          (StoredUnder (ipv6Key (boundary, destination))
            (uniformPair policies (endpointAt known address) address destination).kept) :=
      appends_pushAll (uniformPair_lowers wellFormed _ destination address).recorded
    rw [mem_sortByKey, foldlM (fun destination _ =>
      appends_forRepresentatives (pairStep destination)) _ _ loop]
    simp only [not_mem_nil, false_or, mem_uniqueEndpoints built, Prod.exists,
      storedUnder_tableOf, ipv6PairAt, Option.ite_none_right_eq_some, Option.map_eq_some_iff]
    grind
  · intro first second firstValid secondValid protocol port number other equal
    simp only [ipv6Key, Ipv6PolicyMapKey.mk.injEq] at equal
    obtain ⟨networks, lengths, destinations, protocols, ports⟩ := equal
    have boundaries : first.1 = second.1 := by
      rw [Cidr.ext_iff]
      exact ⟨networks, lengths⟩
    exact ⟨Prod.ext boundaries (eq_of_identity_eq built firstValid secondValid destinations),
      protocols, ports⟩

def egressIpv6Key (place : Endpoint × Ipv6Cidr) (protocol : UInt8) (port : UInt16) :
    EgressIpv6PolicyMapKey :=
  ⟨place.1.identity, place.2.network, place.2.prefixLen, protocol, port⟩

/-- The pair lowered for a boundary of a selected source. -/
def egressIpv6PairAt (policies : List PolicyIr) (known : ExtTreeMap Ipv6Addr Endpoint)
    (boundaries : List Ipv6Cidr) (place : Endpoint × Ipv6Cidr) : Option PairDecisions :=
  if isTargeted policies place.1 = true ∧ place.2 ∈ boundaries then
    (representative boundaries place.2).map fun address =>
      egressPair policies place.1 (endpointAt known address) { ipv6 := some address }
  else
    none

include wellFormed in
theorem compileEgressIpv6DataplaneEntries_ok {entries : List EgressIpv6PolicyMapEntry}
    (compiled : compileEgressIpv6DataplaneEntries policies endpoints ipv6Endpoints = .ok entries) :
    ∃ known, knownEndpoints .egressIpv6MetadataConflict ipv6Endpoints = .ok known ∧
      StoresTables (fun place : Endpoint × Ipv6Cidr => place.1 ∈ endpoints) egressIpv6Key
        (fun place => tableOf kept (egressIpv6PairAt policies known
          (ipv6Boundaries (ipv6DestinationBlocks policies) known) place)) entries := by
  simp only [compileEgressIpv6DataplaneEntries, eq_ok_iffs] at compiled
  obtain ⟨-, unique, built, known, knownBuilt, -, collected, loop, rfl⟩ := compiled
  refine ⟨known, knownBuilt, ?_, ?_, tableOf_proper kept_proper⟩
  · intro entry
    have pairStep (source : Endpoint) (boundary : Ipv6Cidr) (address : Ipv6Addr) :
        Appends (compileEgressIpv6Pair policies source (endpointAt known address) address boundary)
          (StoredUnder (egressIpv6Key (source, boundary))
            (egressPair policies source (endpointAt known address)
              { ipv6 := some address }).kept) :=
      appends_pushAll (egressPair_lowers wellFormed source _ _).recorded
    have sourceStep : ∀ source ∈ orderedValues unique, Appends (fun before =>
        if isTargeted policies source then
          forRepresentatives (ipv6Boundaries (ipv6DestinationBlocks policies) known)
            (fun boundary address => compileEgressIpv6Pair policies source
              (endpointAt known address) address boundary) before
        else .ok before) fun entry => ∃ boundary, StoredUnder
          (egressIpv6Key (source, boundary)) (tableOf kept (egressIpv6PairAt policies known
              (ipv6Boundaries (ipv6DestinationBlocks policies) known) (source, boundary)))
            entry := by
      intro source _ before after computed entry
      simp only [storedUnder_tableOf, egressIpv6PairAt, Option.ite_none_right_eq_some,
        Option.map_eq_some_iff]
      split at computed
      · rename_i targeted
        rw [appends_forRepresentatives (pairStep source) _ _ computed]
        grind
      · rename_i untargeted
        rw [Except.ok.inj computed]
        simp [untargeted]
    rw [mem_sortByKey, foldlM sourceStep _ _ loop]
    simp only [not_mem_nil, false_or, mem_uniqueEndpoints built, Prod.exists, exists_and_left]
  · intro first second firstValid secondValid protocol port number other equal
    simp only [egressIpv6Key, EgressIpv6PolicyMapKey.mk.injEq] at equal
    obtain ⟨sources, networks, lengths, protocols, ports⟩ := equal
    have boundaries : first.2 = second.2 := by
      rw [Cidr.ext_iff]
      exact ⟨networks, lengths⟩
    exact ⟨Prod.ext (eq_of_identity_eq built firstValid secondValid sources) boundaries,
      protocols, ports⟩

end Unf.Policy
