import Unf.Policy.CompiledShape

/-!
# Endpoints and addresses of a lowering

The compilers index endpoints by identity and by address, and list the IPv4
addresses that need entries of their own.  No address block tells the remaining
addresses apart, so that one arbitrary address stands for all of them.
-/

namespace Unf.Policy

open Std (ExtTreeMap ExtTreeSet)
open Unf.Lib List IdentitySelector Cidr Except

/-! ## Endpoint tables -/

section Tables

variable {κ : Type} [LinearOrder κ] {conflict : κ → DataplaneCompileError}

theorem insertEndpoint_ok {before after : ExtTreeMap κ Endpoint} {entry : κ × Endpoint}
    (inserted : insertEndpoint conflict before entry = .ok after) (key : κ) (endpoint : Endpoint) :
    after[key]? = some endpoint ↔ before[key]? = some endpoint ∨ (key, endpoint) = entry := by
  obtain ⟨entryKey, entryEndpoint⟩ := entry
  simp only [insertEndpoint] at inserted
  split at inserted
  · simp at inserted
  · rename_i agree
    obtain rfl := ok.inj inserted
    rw [ExtTreeMap.getElem?_insert]
    by_cases same : entryKey = key
    · subst same
      simp only [Option.any_eq_true, bne_iff_ne, not_exists, not_and, not_not] at agree
      have existing : before[entryKey]? = some endpoint → entryEndpoint = endpoint :=
        fun found => (agree endpoint found).symm
      simpa [eq_comm] using existing
    · simp [same, Ne.symm same]

theorem endpointTable_ok {entries : List (κ × Endpoint)} {table : ExtTreeMap κ Endpoint}
    (built : endpointTable conflict entries = .ok table) (key : κ) (endpoint : Endpoint) :
    table[key]? = some endpoint ↔ (key, endpoint) ∈ entries := by
  suffices scan : ∀ (rest : List (κ × Endpoint)) (before : ExtTreeMap κ Endpoint),
      rest.foldlM (insertEndpoint conflict) before = .ok table →
      (table[key]? = some endpoint ↔ before[key]? = some endpoint ∨ (key, endpoint) ∈ rest) by
    simpa using scan entries ∅ built
  intro rest
  induction rest with
  | nil =>
    intro before computed
    obtain rfl := ok.inj computed
    simp
  | cons entry rest ih =>
    intro before computed
    rw [foldlM_cons, bind_eq_ok] at computed
    obtain ⟨middle, inserted, remaining⟩ := computed
    rw [ih middle remaining, insertEndpoint_ok inserted, mem_cons, or_assoc]

theorem mem_orderedValues {ν : Type} {table : ExtTreeMap κ ν} {value : ν} :
    value ∈ orderedValues table ↔ ∃ key : κ, table[key]? = some value := by
  simp only [orderedValues, mem_map, Prod.exists, exists_eq_right,
    ExtTreeMap.mem_toList_iff_getElem?_eq_some]

end Tables

section Unique

variable {endpoints : List Endpoint} {unique : ExtTreeMap IdentityId Endpoint}

theorem mem_uniqueEndpoints (built : uniqueEndpoints endpoints = .ok unique)
    {endpoint : Endpoint} : endpoint ∈ orderedValues unique ↔ endpoint ∈ endpoints := by
  simp only [mem_orderedValues, endpointTable_ok built, mem_map, Prod.mk.injEq]
  constructor
  · rintro ⟨identity, other, member, -, rfl⟩
    exact member
  · intro member
    exact ⟨endpoint.identity, endpoint, member, rfl, rfl⟩

/-- An accepted list holds one endpoint for each identity. -/
theorem eq_of_identity_eq (built : uniqueEndpoints endpoints = .ok unique)
    {left right : Endpoint} (leftMember : left ∈ endpoints) (rightMember : right ∈ endpoints)
    (same : left.identity = right.identity) : left = right := by
  have found : ∀ endpoint ∈ endpoints, unique[endpoint.identity]? = some endpoint :=
    fun endpoint member => (endpointTable_ok built _ _).mpr (mem_map_of_mem member)
  apply Option.some.inj
  rw [← found left leftMember, ← found right rightMember, same]

end Unique

/-- The endpoint registered at an address, or the external endpoint where none
is registered. -/
def RegisteredAt {width : Nat} (addressed : List (AddressedEndpoint width))
    (address : BitVec width) (endpoint : Endpoint) : Prop :=
  ⟨address, endpoint⟩ ∈ addressed ∨
    (∀ other, ⟨address, other⟩ ∉ addressed) ∧ endpoint = externalEndpoint

section Known

variable {width : Nat} {conflict : BitVec width → DataplaneCompileError}
  {addressed : List (AddressedEndpoint width)} {known : ExtTreeMap (BitVec width) Endpoint}

variable (built : knownEndpoints conflict addressed = .ok known)

include built

theorem getElem?_knownEndpoints (address : BitVec width) (endpoint : Endpoint) :
    known[address]? = some endpoint ↔ ⟨address, endpoint⟩ ∈ addressed := by
  rw [endpointTable_ok built, mem_map]
  constructor
  · rintro ⟨item, member, equal⟩
    obtain ⟨rfl, rfl⟩ := Prod.mk.inj equal
    exact member
  · intro member
    exact ⟨⟨address, endpoint⟩, member, rfl⟩

theorem RegisteredAt.endpointAt_eq {address : BitVec width} {endpoint : Endpoint}
    (registered : RegisteredAt addressed address endpoint) :
    endpointAt known address = endpoint := by
  rw [endpointAt]
  rcases registered with member | ⟨unknown, rfl⟩
  · rw [(getElem?_knownEndpoints built address endpoint).mpr member, Option.getD_some]
  · cases found : known[address]? with
    | none => rfl
    | some other =>
      exact absurd ((getElem?_knownEndpoints built address other).mp found) (unknown other)

end Known

/-! ## Listed addresses -/

theorem mem_cidrAddresses {cidr : Ipv4Cidr} (canonical : cidr.Canonical)
    (bounded : cidr.prefixLen ≠ 0) (address : Ipv4Addr) :
    address ∈ cidrAddresses cidr ↔ cidr.contains address = true := by
  have notLonger : ¬cidr.prefixLen > 32 := not_lt.mpr canonical.1
  have half : 2 ^ (32 - cidr.prefixLen) ≤ 2 ^ 31 := Nat.pow_le_pow_right (by decide) (by omega)
  rw [cidrAddresses, addressCount, if_neg notLonger, min_eq_left (half.trans (by decide))]
  exact mem_expand_iff canonical address

/-- The address lies in a bounded block, or in an exception of a block over all
addresses. -/
def Ipv4Listed (blocks : List Ipv4Block) (address : Ipv4Addr) : Prop :=
  (∃ block ∈ blocks, block.cidr.prefixLen ≠ 0 ∧ block.contains address = true) ∨
    ∃ block ∈ blocks, block.cidr.prefixLen = 0 ∧
      ∃ excluded ∈ block.except, excluded.contains address = true

/-- The blocks whose addresses can be listed. -/
structure BlocksListable (blocks : List Ipv4Block) : Prop where
  canonical : ∀ block ∈ blocks, block.Canonical
  globalBounded : ∀ block ∈ blocks, block.cidr.prefixLen = 0 →
    ∀ excluded ∈ block.except, excluded.prefixLen ≠ 0

variable {blocks : List Ipv4Block} {before after taken : ExtTreeSet Ipv4Addr} {address : Ipv4Addr}
  {known : ExtTreeMap Ipv6Addr Endpoint} {boundary : Ipv6Cidr}

/-- Blocks of canonical selectors can be listed. -/
theorem blocksListable_of_canonical (selected : ∀ block ∈ blocks, ∃ selector : IdentitySelector,
      selector.BlocksCanonical ∧ block ∈ selector.ipv4Blocks) : BlocksListable blocks := by
  constructor
  · intro block member
    obtain ⟨selector, canonical, blockMember⟩ := selected block member
    exact canonical.ipv4 block blockMember
  · intro block member
    obtain ⟨selector, canonical, blockMember⟩ := selected block member
    exact canonical.ipv4Global block blockMember

theorem mem_listedAddresses (listable : BlocksListable blocks) (address : Ipv4Addr) :
    address ∈ listedAddresses blocks ↔ Ipv4Listed blocks address := by
  rw [listedAddresses, mem_append]
  apply or_congr
  · simp only [mem_flatMap, mem_filter, bne_iff_ne, and_assoc, blockAddresses]
    refine exists_congr fun block => and_congr_right fun member => and_congr_right
      fun bounded => ?_
    rw [mem_cidrAddresses (listable.canonical block member).cidr bounded, Block.contains_iff]
    exact ⟨And.right, fun inside => ⟨inside.1, inside⟩⟩
  · simp only [mem_flatMap, mem_filter, beq_iff_eq]
    constructor
    · rintro ⟨excluded, ⟨block, ⟨member, global⟩, excludedMember⟩, listed⟩
      refine ⟨block, member, global, excluded, excludedMember, ?_⟩
      exact (mem_cidrAddresses ((listable.canonical block member).except _ excludedMember)
        (listable.globalBounded block member global _ excludedMember) address).mp listed
    · rintro ⟨block, member, global, excluded, excludedMember, inside⟩
      refine ⟨excluded, ⟨block, ⟨member, global⟩, excludedMember⟩, ?_⟩
      exact (mem_cidrAddresses ((listable.canonical block member).except _ excludedMember)
        (listable.globalBounded block member global _ excludedMember) address).mpr inside

theorem insertAddress_ok {inserted : Ipv4Addr}
    (computed : insertAddress before inserted = .ok after) (address : Ipv4Addr) :
    address ∈ after ↔ address ∈ before ∨ address = inserted ∧ address ≠ 0 := by
  simp only [insertAddress] at computed
  split at computed
  · rename_i zero
    obtain rfl := ok.inj computed
    have reserved : ¬(address = inserted ∧ address ≠ 0) := by
      rintro ⟨rfl, nonzero⟩
      exact nonzero (by simpa using zero)
    exact (or_iff_left reserved).symm
  · rename_i nonzero
    obtain ⟨-, returned⟩ := failIf_bind_eq_ok.mp computed
    obtain rfl := ok.inj returned
    rw [ExtTreeSet.mem_insert, compare_eq_iff_eq, or_comm, eq_comm]
    apply or_congr_right
    constructor
    · rintro rfl
      exact ⟨rfl, by simpa using nonzero⟩
    · exact And.left

theorem foldlM_insertAddress_ok {listed : List Ipv4Addr}
    (computed : listed.foldlM insertAddress before = .ok after) (address : Ipv4Addr) :
    address ∈ after ↔ address ∈ before ∨ address ∈ listed ∧ address ≠ 0 := by
  induction listed generalizing before with
  | nil =>
    obtain rfl := ok.inj computed
    simp
  | cons first rest ih =>
    rw [foldlM_cons, bind_eq_ok] at computed
    obtain ⟨middle, inserted, remaining⟩ := computed
    rw [ih remaining, insertAddress_ok inserted, mem_cons, or_and_right, or_assoc]

/-! ## The address that stands for the rest -/

private theorem firstFree_of_free {remaining candidate free : Nat} (lower : candidate ≤ free)
    (upper : free < candidate + remaining) (notTaken : BitVec.ofNat 32 free ∉ taken) :
    ∃ found, candidate ≤ found ∧ found < candidate + remaining ∧
      firstFree taken remaining candidate = some (BitVec.ofNat 32 found) ∧
      BitVec.ofNat 32 found ∉ taken := by
  induction remaining generalizing candidate with
  | zero => omega
  | succ remaining ih =>
    rw [firstFree]
    by_cases occupied : taken.contains (BitVec.ofNat 32 candidate) = true
    · have later : candidate + 1 ≤ free := by
        rcases lower.eq_or_lt with rfl | later
        · exact absurd (ExtTreeSet.contains_iff_mem.mp occupied) notTaken
        · exact later
      obtain ⟨found, foundLower, foundUpper, computed, foundFree⟩ := ih later (by omega)
      refine ⟨found, by omega, by omega, ?_, foundFree⟩
      rw [if_pos occupied, computed]
    · refine ⟨candidate, le_refl _, by omega, ?_, ?_⟩
      · rw [if_neg occupied]
      · exact fun taken => occupied (ExtTreeSet.contains_iff_mem.mpr taken)

/-- As long as some address is free, an arbitrary free one is found. -/
theorem arbitraryIpv4Address_of_free (nonzero : address ≠ 0) (free : address ∉ taken) :
    ∃ arbitrary, arbitraryIpv4Address taken = some arbitrary ∧ arbitrary ≠ 0 ∧
      arbitrary ∉ taken := by
  have positive : address.toNat ≠ 0 := fun zero => nonzero (BitVec.eq_of_toNat_eq zero)
  have lower : 1 ≤ address.toNat := by omega
  have upper : address.toNat < 1 + (2 ^ 32 - 1) := address.isLt
  have free : BitVec.ofNat 32 address.toNat ∉ taken := by simpa using free
  obtain ⟨found, foundLower, foundUpper, computed, foundFree⟩ := firstFree_of_free lower upper free
  refine ⟨BitVec.ofNat 32 found, computed, ?_, foundFree⟩
  intro zero
  have value := congrArg BitVec.toNat zero
  rw [BitVec.toNat_ofNat, Nat.mod_eq_of_lt (by omega)] at value
  exact absurd value (by simpa using Nat.ne_of_gt foundLower)

/-- Blocks only tell listed addresses apart. -/
theorem contains_iff_of_unlisted (listable : BlocksListable blocks)
    (unlisted : ¬Ipv4Listed blocks address) {block : Ipv4Block} (member : block ∈ blocks) :
    block.contains address = true ↔ block.cidr.prefixLen = 0 := by
  constructor
  · intro inside
    by_contra bounded
    exact unlisted (.inl ⟨block, member, bounded, inside⟩)
  · intro global
    rw [Block.contains_iff]
    constructor
    · have canonical := (listable.canonical block member).cidr
      have network : 0 = block.cidr.network := by simpa [global] using canonical.2
      rw [contains_iff canonical.1, global, ← network]
      simp
    · intro excluded excludedMember inside
      exact unlisted (.inr ⟨block, member, global, excluded, excludedMember, inside⟩)

/-- The fallback address is matched like every unlisted address. -/
theorem matchesAddressed_fallbackAddress (listable : BlocksListable blocks)
    {addresses : ExtTreeSet Ipv4Addr}
    (lists : ∀ address, Ipv4Listed blocks address → address ≠ 0 → address ∈ addresses)
    (nonzero : address ≠ 0) (unlisted : address ∉ addresses) {selector : IdentitySelector}
    (contained : selector.ipv4Blocks ⊆ blocks) (endpoint : Endpoint) :
    selector.matchesAddressed endpoint (fallbackAddress blocks addresses) none =
      selector.matchesAddressed endpoint (some address) none := by
  have anyContains : ∀ free : Ipv4Addr, free ≠ 0 → free ∉ addresses →
      (selector.ipv4Blocks.any fun block => block.contains free) =
        selector.ipv4Blocks.any fun block => block.cidr.prefixLen == 0 := by
    intro free freeNonzero notTaken
    rw [Bool.eq_iff_iff, any_eq_true, any_eq_true]
    refine exists_congr fun block => and_congr_right fun member => ?_
    rw [contains_iff_of_unlisted listable
      (fun listed => notTaken (lists free listed freeNonzero)) (contained member), beq_iff_eq]
  simp only [matchesAddressed]
  congr 1
  rw [fallbackAddress]
  split
  · obtain ⟨arbitrary, found, arbitraryNonzero, free⟩ :=
      arbitraryIpv4Address_of_free nonzero unlisted
    simp only [found, matchesAddresses, anyContains address nonzero unlisted,
      anyContains arbitrary arbitraryNonzero free]
  · rename_i noGlobal
    have noMatch : (selector.ipv4Blocks.any fun block => block.cidr.prefixLen == 0) =
        false := by
      rw [Bool.eq_false_iff]
      intro global
      obtain ⟨block, member, global⟩ := any_eq_true.mp global
      exact noGlobal (any_eq_true.mpr ⟨block, contained member, global⟩)
    simp only [matchesAddresses, anyContains address nonzero unlisted, noMatch,
      Bool.or_false, Bool.and_comm]

/-! ## Boundaries of prefixes -/

theorem mem_ipv6Boundaries {blocks : List Ipv6Block} :
    boundary ∈ ipv6Boundaries blocks known ↔ boundary = ⟨0, 0⟩ ∨
      (∃ block ∈ blocks, boundary = block.cidr ∨ boundary ∈ block.except) ∨
      ∃ address ∈ known, boundary = ⟨address, 128⟩ := by
  simp only [ipv6Boundaries, mem_sortDedup, mem_append, mem_cons, mem_flatMap,
    mem_map, ExtTreeMap.mem_keys, or_assoc, @eq_comm _ boundary (mk _ 128)]

theorem ipv6Boundaries_canonical {blocks : List Ipv6Block}
    (canonical : ∀ block ∈ blocks, block.Canonical)
    (member : boundary ∈ ipv6Boundaries blocks known) : boundary.Canonical := by
  rcases mem_ipv6Boundaries.mp member with rfl | ⟨block, blockMember, rfl | excluded⟩ |
    ⟨address, -, rfl⟩
  · exact canonical_of_contains (zero_contains 0)
  · exact (canonical block blockMember).cidr
  · exact (canonical block blockMember).except boundary excluded
  · exact canonical_of_contains ((full_contains_iff address address).mpr rfl)

section Narrowest

variable {blocks : List Ipv6Block} {known : ExtTreeMap Ipv6Addr Endpoint}
  {left right : Ipv6Addr} {boundary : Ipv6Cidr}
  (leftNarrowest : Cidr.Narrowest (ipv6Boundaries blocks known) left boundary)
  (rightNarrowest : Cidr.Narrowest (ipv6Boundaries blocks known) right boundary)

include leftNarrowest rightNarrowest

theorem Block.contains_of_narrowest {block : Ipv6Block} (member : block ∈ blocks) :
    block.contains left = block.contains right := by
  have same : ∀ cidr, cidr = block.cidr ∨ cidr ∈ block.except →
      (cidr.contains left = true ↔ cidr.contains right = true) := by
    intro cidr part
    exact leftNarrowest.contains_iff rightNarrowest
      (mem_ipv6Boundaries.mpr (.inr (.inl ⟨block, member, part⟩)))
  rw [Bool.eq_iff_iff, Block.contains_iff, Block.contains_iff, same _ (.inl rfl)]
  apply and_congr_right
  intro _
  exact forall₂_congr fun excluded excludedMember => not_congr (same _ (.inr excludedMember))

/-- Addresses with the same narrowest boundary are matched alike. -/
theorem matchesAddressed_of_narrowest {selector : IdentitySelector}
    (contained : selector.ipv6Blocks ⊆ blocks) (endpoint : Endpoint) :
    selector.matchesAddressed endpoint none (some left) =
      selector.matchesAddressed endpoint none (some right) := by
  have anyContains : (selector.ipv6Blocks.any fun block => block.contains left) =
      selector.ipv6Blocks.any fun block => block.contains right := by
    rw [Bool.eq_iff_iff, any_eq_true, any_eq_true]
    refine exists_congr fun block => and_congr_right fun member => ?_
    rw [Block.contains_of_narrowest leftNarrowest rightNarrowest (contained member)]
  simp only [matchesAddressed, matchesAddresses, anyContains]

/-- A registered address is the only one of its narrowest boundary. -/
theorem eq_of_narrowest_of_mem (registered : left ∈ known) : left = right := by
  have own : (mk left 128) ∈ ipv6Boundaries blocks known :=
    mem_ipv6Boundaries.mpr (.inr (.inr ⟨left, registered, rfl⟩))
  have shared := (leftNarrowest.contains_iff rightNarrowest own).mp
    ((full_contains_iff left left).mpr rfl)
  exact ((full_contains_iff left right).mp shared).symm

omit leftNarrowest rightNarrowest

theorem endpointAt_of_notMem (unregistered : left ∉ known) :
    endpointAt known left = externalEndpoint := by
  rw [endpointAt, ExtTreeMap.getElem?_eq_none unregistered, Option.getD_none]

include leftNarrowest rightNarrowest in
theorem endpointAt_of_narrowest : endpointAt known left = endpointAt known right := by
  by_cases leftRegistered : left ∈ known
  · rw [eq_of_narrowest_of_mem leftNarrowest rightNarrowest leftRegistered]
  · by_cases rightRegistered : right ∈ known
    · rw [eq_of_narrowest_of_mem rightNarrowest leftNarrowest rightRegistered]
    · rw [endpointAt_of_notMem leftRegistered, endpointAt_of_notMem rightRegistered]

/-- Representatives of boundaries shorter than an address are external. -/
theorem endpointAt_of_shorter
    (narrowest : Cidr.Narrowest (ipv6Boundaries blocks known) left boundary)
    (shorter : boundary.prefixLen < 128) : endpointAt known left = externalEndpoint := by
  apply endpointAt_of_notMem
  intro registered
  have own : (mk left 128) ∈ ipv6Boundaries blocks known :=
    mem_ipv6Boundaries.mpr (.inr (.inr ⟨left, registered, rfl⟩))
  have longest := narrowest.longest _ own ((full_contains_iff left left).mpr rfl)
  exact absurd longest (not_le.mpr shorter)

end Narrowest

end Unf.Policy
