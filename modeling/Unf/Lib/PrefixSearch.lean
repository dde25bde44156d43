import Unf.Lib.Cidr

/-!
# Uncovered addresses and longest-prefix matching

A list of prefixes cuts the address space into regions: the addresses of one
prefix that no longer prefix of the list covers.  A depth-first search over the
halves of a prefix finds an address of its region whenever there is one, and
that address lies in exactly the same prefixes of the list as every other
address of the region.  Longest-prefix matching returns the value stored at the
prefix whose region holds the address.
-/

namespace Unf.Lib.Cidr

open List Nat

universe u

variable {width : Nat}

/-! ## Halving a prefix -/

/-- The two halves of a prefix, lower half first. -/
def halves (cidr : Cidr width) : List (Cidr width) :=
  let childPrefix := cidr.prefixLen + 1
  let step := (1 : BitVec width) <<< (width - childPrefix)
  [⟨cidr.network, childPrefix⟩, ⟨cidr.network + step, childPrefix⟩]

variable {cidr : Cidr width} {address : BitVec width} {half : Cidr width}
  {boundaries : List (Cidr width)} {boundary : Cidr width}

/-- The halves follow each other at the distance of their size. -/
theorem mem_halves_iff : half ∈ cidr.halves ↔ ∃ count < 2, half =
      ⟨BitVec.ofNat width (cidr.network.toNat + count * 2 ^ (width - (cidr.prefixLen + 1))),
        cidr.prefixLen + 1⟩ := by
  have step (count : Nat) : (1 : BitVec width) <<< count = BitVec.ofNat width (2 ^ count) := by
    apply BitVec.eq_of_toNat_eq
    rw [BitVec.toNat_shiftLeft, shiftLeft_eq, BitVec.toNat_ofNat, BitVec.ofNat_eq_ofNat,
      BitVec.toNat_ofNat, Nat.mod_mul_mod, Nat.one_mul]
  simp only [halves, step, mem_cons, not_mem_nil, or_false]
  constructor
  · rintro (rfl | rfl)
    · exact ⟨0, by decide, by simp⟩
    · exact ⟨1, by decide, by simp [BitVec.ofNat_add]⟩
  · rintro ⟨count, small, rfl⟩
    interval_cases count
    · exact .inl (by simp)
    · exact .inr (by simp [BitVec.ofNat_add])

theorem halves_prefixLen (member : half ∈ cidr.halves) : half.prefixLen = cidr.prefixLen + 1 := by
  obtain ⟨_, -, rfl⟩ := mem_halves_iff.mp member
  rfl

section Halves

variable (canonical : cidr.Canonical) (shorter : cidr.prefixLen < width)

include shorter in
theorem size_eq_two_mul : 2 ^ (width - cidr.prefixLen) =
      2 * 2 ^ (width - (cidr.prefixLen + 1)) := by
  rw [← pow_succ']
  congr 1
  omega

include canonical shorter

/-- A half is aligned, and starts inside its prefix. -/
theorem contains_half_network (member : half ∈ cidr.halves) :
    half.Canonical ∧ cidr.contains half.network = true := by
  obtain ⟨count, small, rfl⟩ := mem_halves_iff.mp member
  have inside : count * 2 ^ (width - (cidr.prefixLen + 1)) < 2 ^ (width - cidr.prefixLen) := by
    rw [size_eq_two_mul shorter]
    exact Nat.mul_lt_mul_of_pos_right small (Nat.two_pow_pos _)
  refine ⟨⟨shorter, ?_⟩, canonical.contains_add inside⟩
  have aligned : 2 ^ (width - (cidr.prefixLen + 1)) ∣ cidr.network.toNat := by
    rw [← canonical.aligned, size_eq_two_mul shorter]
    exact (Dvd.intro_left 2 rfl).mul_left _
  rw [← BitVec.toNat_inj, toNat_and_mask, BitVec.toNat_ofNat,
    mod_eq_of_lt (canonical.toNat_add_lt inside)]
  exact Nat.div_mul_cancel (aligned.add (Dvd.intro_left count rfl))

omit canonical in
/-- Every address of a prefix lies in one of its halves. -/
theorem exists_half_contains (contained : cidr.contains address = true) :
    ∃ half ∈ cidr.halves, half.contains address = true := by
  have canonical := canonical_of_contains contained
  have listed := (mem_expand_iff canonical address).mpr contained
  simp only [expand, mem_map, mem_range] at listed
  obtain ⟨offset, inside, rfl⟩ := listed
  have size := size_eq_two_mul shorter
  have member : _ ∈ cidr.halves := mem_halves_iff.mpr ⟨offset / 2 ^ (width - (cidr.prefixLen + 1)),
    Nat.div_lt_of_lt_mul (by omega), rfl⟩
  refine ⟨_, member, ?_⟩
  have counted := (contains_half_network canonical shorter member).1.contains_add
    (Nat.mod_lt offset (Nat.two_pow_pos _))
  have start : offset / 2 ^ (width - (cidr.prefixLen + 1)) *
      2 ^ (width - (cidr.prefixLen + 1)) ≤ offset := Nat.div_mul_le_self _ _
  rw [BitVec.toNat_ofNat, mod_eq_of_lt (canonical.toNat_add_lt (start.trans_lt inside)),
    add_assoc, div_add_mod'] at counted
  rwa [add_ofNat]

theorem half_contains_subset (member : half ∈ cidr.halves)
    (contained : half.contains address = true) : cidr.contains address = true := by
  obtain ⟨halfCanonical, nested⟩ := contains_half_network canonical shorter member
  apply contains_of_nested nested halfCanonical.contains_network _ contained
  have := halves_prefixLen member
  omega

end Halves

/-! ## Searching for an uncovered address -/

/-- Depth-first search for an address of a prefix outside every excluded
prefix.  The recursion halves the prefix, so the number of its remaining host
bits bounds the depth. -/
def uncoveredFrom : Nat → Cidr width → List (Cidr width) → Option (BitVec width)
  | remaining, cidr, excluded =>
    if excluded.contains cidr then
      none
    else if excluded.all fun item => !item.contains cidr.network then
      some cidr.network
    else
      match remaining with
      | 0 => none
      | remaining + 1 =>
        cidr.halves.findSome? fun child =>
          let childExcluded := excluded.filter fun item =>
            child.containsCidr item
          if childExcluded.isEmpty then
            some child.network
          else
            uncoveredFrom remaining child childExcluded

/-- An address of the prefix outside every excluded prefix. -/
def uncovered (cidr : Cidr width) (excluded : List (Cidr width)) :
    Option (BitVec width) :=
  uncoveredFrom (width - cidr.prefixLen) cidr excluded

/-- An excluded prefix that meets one half of `cidr` and is not `cidr` itself
is contained in that half. -/
theorem containsCidr_half {item : Cidr width} (canonical : cidr.Canonical)
    (shorter : cidr.prefixLen < width) (member : half ∈ cidr.halves)
    (nested : cidr.containsCidr item = true) (different : item ≠ cidr)
    (inHalf : half.contains address = true) (inItem : item.contains address = true) :
    half.containsCidr item = true := by
  apply containsCidr_of_contains inHalf inItem
  rw [halves_prefixLen member]
  have longer := ((containsCidr_iff cidr item).mp nested).1
  by_contra notLonger
  apply different
  apply eq_of_contains inItem (half_contains_subset canonical shorter member inHalf)
  omega

variable {excluded : List (Cidr width)} {ν : Type u} {table : Cidr width → Option ν}
  {remaining : Nat}

/-- The search returns only uncovered addresses of the prefix. -/
theorem uncoveredFrom_sound (depth : remaining = width - cidr.prefixLen)
    (canonical : cidr.Canonical) (nested : ∀ item ∈ excluded, cidr.containsCidr item = true)
    (found : uncoveredFrom remaining cidr excluded = some address) : cidr.contains address = true ∧
      ∀ item ∈ excluded, item.contains address = false := by
  induction remaining generalizing cidr excluded with
  | zero =>
    rw [uncoveredFrom] at found
    split at found
    · simp at found
    · split at found
      · next uncoveredNetwork =>
          cases found
          refine ⟨canonical.contains_network, ?_⟩
          simpa using uncoveredNetwork
      · simp at found
  | succ remaining ih =>
    have shorter : cidr.prefixLen < width := by omega
    rw [uncoveredFrom] at found
    split at found
    · simp at found
    · next notExcluded =>
      split at found
      · next uncoveredNetwork =>
          cases found
          refine ⟨canonical.contains_network, ?_⟩
          simpa using uncoveredNetwork
      · obtain ⟨half, halfMember, halfFound⟩ := exists_of_findSome?_eq_some found
        obtain ⟨halfCanonical, -⟩ := contains_half_network canonical shorter halfMember
        have inHalf : half.contains address = true ∧
            ∀ item ∈ excluded.filter fun item => half.containsCidr item,
              item.contains address = false := by
          dsimp only at halfFound
          split at halfFound
          · next empty =>
              cases halfFound
              refine ⟨halfCanonical.contains_network, ?_⟩
              rw [isEmpty_iff.mp empty]
              simp
          · apply ih _ halfCanonical _ halfFound
            · rw [halves_prefixLen halfMember]
              omega
            · intro item itemMember
              exact (mem_filter.mp itemMember).2
        refine ⟨half_contains_subset canonical shorter halfMember inHalf.1, ?_⟩
        intro item itemMember
        by_contra covered
        have inItem : item.contains address = true := by
          simpa using covered
        have different : item ≠ cidr := by
          rintro rfl
          simp [itemMember] at notExcluded
        have kept := containsCidr_half canonical shorter halfMember
          (nested item itemMember) different inHalf.1 inItem
        have := inHalf.2 item (mem_filter.mpr ⟨itemMember, kept⟩)
        simp [this] at inItem

/-- The search succeeds whenever some address of the prefix is uncovered. -/
theorem uncoveredFrom_complete (depth : remaining = width - cidr.prefixLen)
    (contained : cidr.contains address = true)
    (free : ∀ item ∈ excluded, item.contains address = false) :
    (uncoveredFrom remaining cidr excluded).isSome = true := by
  induction remaining generalizing cidr excluded with
  | zero =>
    have full : cidr.prefixLen = width := by
      have := prefixLen_le_of_contains contained
      omega
    obtain ⟨network, prefixLen⟩ := cidr
    obtain rfl : prefixLen = width := full
    obtain rfl : address = network := (full_contains_iff network address).mp contained
    rw [uncoveredFrom]
    have notExcluded : excluded.contains (⟨address, prefixLen⟩ : Cidr _) = false := by
      by_contra isExcluded
      have member : ⟨address, prefixLen⟩ ∈ excluded := by simpa using isExcluded
      simp [free _ member] at contained
    have allFree : (excluded.all fun item => !item.contains address) = true := by
      simpa using free
    rw [if_neg (by rw [notExcluded]; simp), if_pos allFree]
    rfl
  | succ remaining ih =>
    have shorter : cidr.prefixLen < width := by omega
    rw [uncoveredFrom]
    have notExcluded : excluded.contains cidr = false := by
      by_contra isExcluded
      have member : cidr ∈ excluded := by simpa using isExcluded
      simp [free cidr member] at contained
    rw [if_neg (by rw [notExcluded]; simp)]
    split
    · simp
    · obtain ⟨half, halfMember, inHalf⟩ := exists_half_contains shorter contained
      rw [findSome?_isSome_iff]
      refine ⟨half, halfMember, ?_⟩
      dsimp only
      split
      · simp
      · apply ih _ inHalf
        · intro item itemMember
          exact free item (mem_filter.mp itemMember).1
        · rw [halves_prefixLen halfMember]
          omega

/-! ## Regions of a list of prefixes -/

/-- The longer prefixes of the list inside one of its prefixes. -/
def inner (boundaries : List (Cidr width)) (boundary : Cidr width) :
    List (Cidr width) :=
  boundaries.filter fun candidate =>
    decide (candidate.prefixLen > boundary.prefixLen) &&
      boundary.containsCidr candidate

/-- `boundary` is the longest prefix of the list around an address. -/
structure Narrowest (boundaries : List (Cidr width)) (address : BitVec width)
    (boundary : Cidr width) : Prop where
  member : boundary ∈ boundaries
  contains : boundary.contains address = true
  longest : ∀ other ∈ boundaries, other.contains address = true →
    other.prefixLen ≤ boundary.prefixLen

theorem exists_narrowest {start : Cidr width} (member : start ∈ boundaries)
    (contained : start.contains address = true) :
    ∃ boundary, Narrowest boundaries address boundary := by
  have nonempty : (boundaries.toFinset.filter fun boundary =>
      boundary.contains address = true).Nonempty :=
    ⟨start, by simp [member, contained]⟩
  obtain ⟨boundary, boundaryMember, longest⟩ := Finset.exists_max_image _ Cidr.prefixLen nonempty
  simp only [Finset.mem_filter, mem_toFinset] at boundaryMember longest
  exact ⟨boundary, boundaryMember.1, boundaryMember.2, fun other otherMember otherContains =>
      longest other ⟨otherMember, otherContains⟩⟩

theorem Narrowest.inner_free (narrowest : Narrowest boundaries address boundary) :
    ∀ item ∈ inner boundaries boundary, item.contains address = false := by
  intro item member
  simp only [inner, mem_filter, Bool.and_eq_true, decide_eq_true_eq] at member
  by_contra covered
  have := narrowest.longest item member.1 (by simpa using covered)
  omega

/-- The region of the narrowest prefix around an address is inhabited, so the
search finds a representative. -/
theorem Narrowest.exists_uncovered (narrowest : Narrowest boundaries address boundary) :
    ∃ representative, boundary.uncovered (inner boundaries boundary) = some representative := by
  apply Option.isSome_iff_exists.mp
  exact uncoveredFrom_complete rfl narrowest.contains narrowest.inner_free

/-- A representative of a prefix has that prefix as its narrowest one. -/
theorem narrowest_uncovered (member : boundary ∈ boundaries) (canonical : boundary.Canonical)
    {representative : BitVec width}
    (found : boundary.uncovered (inner boundaries boundary) = some representative) :
    Narrowest boundaries representative boundary := by
  obtain ⟨contained, free⟩ := uncoveredFrom_sound rfl canonical (by
    intro item itemMember
    simp only [inner, mem_filter, Bool.and_eq_true] at itemMember
    exact itemMember.2.2) found
  refine ⟨member, contained, ?_⟩
  intro other otherMember otherContains
  by_contra longer
  have isInner : other ∈ inner boundaries boundary := by
    simp only [inner, mem_filter, Bool.and_eq_true, decide_eq_true_eq]
    refine ⟨otherMember, by omega, ?_⟩
    exact containsCidr_of_contains contained otherContains (by omega)
  simp [free other isInner] at otherContains

/-- Addresses with the same narrowest prefix lie in the same prefixes of the
list. -/
theorem Narrowest.contains_iff {left right : BitVec width}
    (leftNarrowest : Narrowest boundaries left boundary)
    (rightNarrowest : Narrowest boundaries right boundary) {other : Cidr width}
    (member : other ∈ boundaries) : other.contains left = true ↔ other.contains right = true := by
  constructor
  · intro contained
    exact contains_of_nested contained leftNarrowest.contains
      (leftNarrowest.longest other member contained) rightNarrowest.contains
  · intro contained
    exact contains_of_nested contained rightNarrowest.contains
      (rightNarrowest.longest other member contained) leftNarrowest.contains

/-! ## Longest-prefix matching -/

/-- Probe the prefixes around an address from the given length downwards. -/
def longestMatchFrom {ν : Type u} (table : Cidr width → Option ν)
    (address : BitVec width) : Nat → Option ν
  | 0 => table (around address 0)
  | prefixLen + 1 =>
    (table (around address (prefixLen + 1))).or
      (longestMatchFrom table address prefixLen)

/-- The value stored at the longest matching prefix. -/
def longestMatch {ν : Type u} (table : Cidr width → Option ν) (address : BitVec width) : Option ν :=
  longestMatchFrom table address width

theorem longestMatchFrom_eq_none {limit : Nat}
    (absent : ∀ prefixLen ≤ limit, table (around address prefixLen) = none) :
    longestMatchFrom table address limit = none := by
  induction limit with
  | zero => exact absent 0 (le_refl 0)
  | succ limit ih =>
    rw [longestMatchFrom, absent (limit + 1) (le_refl _)]
    exact ih fun prefixLen bound =>
      absent prefixLen (le_succ_of_le bound)

theorem longestMatch_eq_none (absent : ∀ cidr, cidr.contains address = true → table cidr = none) :
    longestMatch table address = none := by
  apply longestMatchFrom_eq_none
  intro prefixLen bound
  exact absent _ (around_contains address bound)

/-- The match is the stored prefix around the address beyond which no longer
prefix is stored. -/
theorem longestMatch_eq_some {value : ν} (stored : table cidr = some value)
    (contained : cidr.contains address = true) (longest : ∀ other, other.contains address = true →
      cidr.prefixLen < other.prefixLen → table other = none) :
    longestMatch table address = some value := by
  have bound := prefixLen_le_of_contains contained
  have descend : ∀ limit, cidr.prefixLen ≤ limit → limit ≤ width →
      longestMatchFrom table address limit = some value := by
    intro limit
    induction limit with
    | zero =>
      intro le _
      rw [longestMatchFrom, ← le_zero.mp le, ← eq_around_of_contains contained]
      exact stored
    | succ limit ih =>
      intro le limitBound
      rw [longestMatchFrom]
      rcases lt_or_ge cidr.prefixLen (limit + 1) with longer | same
      · rw [longest _ (around_contains address limitBound) longer]
        exact ih (Nat.lt_succ_iff.mp longer) (by omega)
      · have lengths : limit + 1 = cidr.prefixLen := by omega
        rw [lengths, ← eq_around_of_contains contained, stored, Option.some_or]
  exact descend width bound (le_refl width)

/-- Where at most one stored prefix is around the address, the longest is the one. -/
theorem longestMatch_eq_some_iff (single : ∀ cidr other value otherValue, table cidr = some value →
      table other = some otherValue → cidr.contains address = true →
      other.contains address = true → cidr = other) (value : ν) :
    longestMatch table address = some value ↔
      ∃ cidr, table cidr = some value ∧ cidr.contains address = true := by
  have longest (cidr : Cidr width) (value : ν) (stored : table cidr = some value)
      (contained : cidr.contains address = true) : longestMatch table address = some value := by
    apply longestMatch_eq_some stored contained
    intro longer longerContained lengths
    cases longerStored : table longer with
    | none => rfl
    | some longerValue =>
      rw [single cidr longer value longerValue stored longerStored contained
        longerContained] at lengths
      exact absurd lengths (lt_irrefl _)
  constructor
  · intro found
    by_contra absent
    have empty (cidr : Cidr width) (contained : cidr.contains address = true) :
        table cidr = none := by
      cases stored : table cidr with
      | none => rfl
      | some other =>
        have same := longest cidr other stored contained
        rw [found] at same
        exact absurd ⟨cidr, same ▸ stored, contained⟩ absent
    rw [longestMatch_eq_none empty] at found
    cases found
  · rintro ⟨cidr, stored, contained⟩
    exact longest cidr value stored contained

end Unf.Lib.Cidr
