import Unf.Lib.Order

/-!
# Address prefixes of a fixed width

A prefix pairs a network with a length and contains the addresses that agree
with the network on that many leading bits.  Canonical prefixes form a laminar
family: two of them that share an address are nested.  The module develops the
three algorithms that rest on this fact, over an arbitrary width: the expansion
of a prefix into its addresses, the search for an address outside a list of
nested prefixes, and longest-prefix matching.
-/

namespace Unf.Lib

open BitVec Nat

universe u

/-- A network address together with the number of its significant leading
bits. -/
@[ext] structure Cidr (width : Nat) where
  network : BitVec width
  prefixLen : Nat
  deriving DecidableEq, Repr

namespace Cidr

variable {width : Nat} {shorter longer : Nat}

instance : LinearOrder (Cidr width) :=
  LinearOrder.lift' (fun cidr => toLex (cidr.network, cidr.prefixLen)) (by
    intro left right equal
    cases left
    cases right
    simpa using equal)

/-- The leading `prefixLen` bits. -/
def mask (width prefixLen : Nat) : BitVec width :=
  if prefixLen = 0 then 0 else BitVec.allOnes width <<< (width - prefixLen)

/-- Membership of an address; a prefix longer than an address contains
nothing. -/
def contains (cidr : Cidr width) (address : BitVec width) : Bool :=
  if cidr.prefixLen > width then
    false
  else
    address &&& mask width cidr.prefixLen == cidr.network

/-- Containment of another prefix, decided on its network address. -/
def containsCidr (cidr other : Cidr width) : Bool :=
  decide (cidr.prefixLen ≤ other.prefixLen) && cidr.contains other.network

/-- A prefix whose length fits the width and whose host bits are zero. -/
def Canonical (cidr : Cidr width) : Prop :=
  cidr.prefixLen ≤ width ∧
    cidr.network &&& mask width cidr.prefixLen = cidr.network

instance (cidr : Cidr width) : Decidable cidr.Canonical :=
  inferInstanceAs (Decidable (_ ∧ _))

/-! ## Masks -/

theorem getLsbD_mask (prefixLen index : Nat) : (mask width prefixLen).getLsbD index =
      (decide (index < width) && decide (width - prefixLen ≤ index)) := by
  unfold mask
  split
  · next zero =>
      subst zero
      simp
  · simp only [getLsbD_shiftLeft]
    grind

@[simp] theorem mask_zero : mask width 0 = 0 := by
  simp [mask]

@[simp] theorem mask_full : mask width width = allOnes width := by
  apply eq_of_getLsbD_eq
  simp [getLsbD_mask]

theorem mask_and_mask (le : shorter ≤ longer) :
    mask width longer &&& mask width shorter = mask width shorter := by
  apply eq_of_getLsbD_eq
  simp only [getLsbD_and, getLsbD_mask]
  grind

/-- Agreement on a longer prefix entails agreement on a shorter one. -/
theorem and_mask_of_le {left right : BitVec width} (le : shorter ≤ longer)
    (agree : left &&& mask width longer = right &&& mask width longer) :
    left &&& mask width shorter = right &&& mask width shorter := by
  rw [← mask_and_mask le, ← BitVec.and_assoc, ← BitVec.and_assoc, agree]

variable (address : BitVec width) (prefixLen : Nat)

theorem and_mask_eq_shift :
    address &&& mask width prefixLen =
      (address >>> (width - prefixLen)) <<< (width - prefixLen) := by
  apply eq_of_getLsbD_eq
  intro index bound
  simp only [getLsbD_and, getLsbD_mask]
  by_cases low : index < width - prefixLen
  · have notHigh : ¬width - prefixLen ≤ index := by omega
    simp [bound, notHigh]
  · simp [bound, not_lt.mp low]

/-- Masking rounds an address down to a multiple of the block size. -/
theorem toNat_and_mask :
    (address &&& mask width prefixLen).toNat =
      address.toNat / 2 ^ (width - prefixLen) * 2 ^ (width - prefixLen) := by
  rw [and_mask_eq_shift]
  simp only [toNat_shiftLeft, toNat_ushiftRight, Nat.shiftLeft_eq, Nat.shiftRight_eq_div_pow]
  apply Nat.mod_eq_of_lt
  exact lt_of_le_of_lt (Nat.div_mul_le_self _ _) address.isLt

/-! ## Containment -/

/-- Masking an address gives the canonical prefix of a given length around
it. -/
def around : Cidr width where
  network := address &&& mask width prefixLen
  prefixLen := prefixLen

theorem around_canonical {prefixLen : Nat} (bound : prefixLen ≤ width) :
    (around address prefixLen).Canonical := by
  refine ⟨bound, ?_⟩
  change address &&& mask width prefixLen &&& mask width prefixLen =
    address &&& mask width prefixLen
  rw [BitVec.and_assoc, BitVec.and_self]

variable {cidr : Cidr width} {address : BitVec width} {offset : Nat}

theorem contains_iff (bound : cidr.prefixLen ≤ width) (address : BitVec width) :
    cidr.contains address = true ↔ address &&& mask width cidr.prefixLen = cidr.network := by
  have notLonger : ¬cidr.prefixLen > width := by omega
  simp [contains, notLonger]

variable (contained : cidr.contains address = true)

include contained

theorem prefixLen_le_of_contains :
    cidr.prefixLen ≤ width := by
  by_contra longer
  have exceeds : cidr.prefixLen > width := by omega
  simp [contains, exceeds] at contained

/-- The only prefixes around an address are the canonical ones obtained by
masking it. -/
theorem eq_around_of_contains :
    cidr = around address cidr.prefixLen := by
  have network := (contains_iff (prefixLen_le_of_contains contained) address).mp
    contained
  cases cidr
  simp only [around, mk.injEq, and_true]
  exact network.symm

theorem canonical_of_contains : cidr.Canonical := by
  rw [eq_around_of_contains contained]
  exact around_canonical address (prefixLen_le_of_contains contained)

omit contained

theorem around_contains (address : BitVec width) {prefixLen : Nat} (bound : prefixLen ≤ width) :
    (around address prefixLen).contains address = true := by
  exact (contains_iff (show (around address prefixLen).prefixLen ≤ width from bound)
    address).mpr rfl

theorem Canonical.contains_network (canonical : cidr.Canonical) :
    cidr.contains cidr.network = true :=
  (contains_iff canonical.1 _).mpr canonical.2

/-- Two prefixes of one length around a common address coincide. -/
theorem eq_of_contains {left right : Cidr width} (leftContains : left.contains address = true)
    (rightContains : right.contains address = true) (lengths : left.prefixLen = right.prefixLen) :
    left = right := by
  rw [eq_around_of_contains leftContains, eq_around_of_contains rightContains, lengths]

/-- The laminar property: of two prefixes around a common address, the shorter
contains every address of the longer. -/
theorem contains_of_nested {shorter longer : Cidr width} {other : BitVec width}
    (shorterContains : shorter.contains address = true)
    (longerContains : longer.contains address = true) (le : shorter.prefixLen ≤ longer.prefixLen)
    (otherContained : longer.contains other = true) : shorter.contains other = true := by
  have longerBound := prefixLen_le_of_contains longerContains
  have shorterBound := prefixLen_le_of_contains shorterContains
  rw [contains_iff shorterBound] at shorterContains ⊢
  rw [contains_iff longerBound] at longerContains otherContained
  rw [← shorterContains]
  exact and_mask_of_le le (otherContained.trans longerContains.symm)

theorem containsCidr_iff (cidr other : Cidr width) : cidr.containsCidr other = true ↔
      cidr.prefixLen ≤ other.prefixLen ∧ cidr.contains other.network = true := by
  simp [containsCidr]

/-- Nested prefixes around a common address satisfy the executable containment
test. -/
theorem containsCidr_of_contains {shorter longer : Cidr width}
    (shorterContains : shorter.contains address = true)
    (longerContains : longer.contains address = true) (le : shorter.prefixLen ≤ longer.prefixLen) :
    shorter.containsCidr longer = true := by
  rw [containsCidr_iff]
  exact ⟨le, contains_of_nested shorterContains longerContains le
    (canonical_of_contains longerContains).contains_network⟩

/-- The whole address space. -/
theorem zero_contains (address : BitVec width) :
    (Cidr.mk (0 : BitVec width) 0).contains address = true := by
  simp [contains]

/-- A full-length prefix contains its network only. -/
theorem full_contains_iff (network address : BitVec width) :
    (Cidr.mk network width).contains address = true ↔ address = network := by
  refine (contains_iff (show (Cidr.mk network width).prefixLen ≤ width from le_refl width)
    address).trans ?_
  simp

/-! ## Expansion into addresses -/

/-- The addresses of a prefix, counted upwards from its network. -/
def expand (cidr : Cidr width) (count : Nat) : List (BitVec width) :=
  (List.range count).map fun offset => cidr.network + BitVec.ofNat width offset

variable (canonical : cidr.Canonical)

include canonical

theorem Canonical.aligned :
    cidr.network.toNat / 2 ^ (width - cidr.prefixLen) * 2 ^ (width - cidr.prefixLen) =
      cidr.network.toNat := by
  rw [← toNat_and_mask, canonical.2]

/-- The addresses of a block do not run over the last address. -/
theorem Canonical.toNat_add_lt
    (inside : offset < 2 ^ (width - cidr.prefixLen)) : cidr.network.toNat + offset < 2 ^ width := by
  have networkLt := cidr.network.isLt
  have blockPos : 0 < 2 ^ (width - cidr.prefixLen) := Nat.two_pow_pos _
  have dividesWidth : 2 ^ width = 2 ^ cidr.prefixLen * 2 ^ (width - cidr.prefixLen) := by
    rw [← pow_add, Nat.add_sub_cancel' canonical.1]
  have quotientLt : cidr.network.toNat / 2 ^ (width - cidr.prefixLen) < 2 ^ cidr.prefixLen := by
    rw [Nat.div_lt_iff_lt_mul blockPos, ← dividesWidth]
    exact networkLt
  have step := mul_le_mul_right (2 ^ (width - cidr.prefixLen)) (succ_le_of_lt quotientLt)
  rw [Nat.succ_mul, canonical.aligned] at step
  omega

/-- The addresses of a block, counted from its network, lie in the prefix. -/
theorem Canonical.contains_add (inside : offset < 2 ^ (width - cidr.prefixLen)) :
    cidr.contains (BitVec.ofNat width (cidr.network.toNat + offset)) = true := by
  have blockPos : 0 < 2 ^ (width - cidr.prefixLen) := Nat.two_pow_pos _
  have sameBlock : (cidr.network.toNat + offset) / 2 ^ (width - cidr.prefixLen) =
      cidr.network.toNat / 2 ^ (width - cidr.prefixLen) := by
    conv_lhs => rw [← canonical.aligned]
    rw [mul_comm, mul_add_div blockPos, div_eq_of_lt inside, add_zero]
  rw [contains_iff canonical.1, ← BitVec.toNat_inj, toNat_and_mask, toNat_ofNat,
    Nat.mod_eq_of_lt (canonical.toNat_add_lt inside), sameBlock, canonical.aligned]

omit canonical in
theorem add_ofNat (network : BitVec width) (offset : Nat) :
    network + BitVec.ofNat width offset = BitVec.ofNat width (network.toNat + offset) := by
  rw [BitVec.ofNat_add, BitVec.ofNat_toNat, BitVec.setWidth_eq]

/-- Expanding a canonical prefix over its whole block enumerates exactly the
addresses it contains. -/
theorem mem_expand_iff (address : BitVec width) :
    address ∈ cidr.expand (2 ^ (width - cidr.prefixLen)) ↔ cidr.contains address = true := by
  have blockPos : 0 < 2 ^ (width - cidr.prefixLen) := Nat.two_pow_pos _
  have blockLe : 2 ^ (width - cidr.prefixLen) ≤ 2 ^ width :=
    Nat.pow_le_pow_right (by decide) (Nat.sub_le _ _)
  simp only [expand, List.mem_map, List.mem_range]
  constructor
  · rintro ⟨offset, offsetLt, rfl⟩
    rw [add_ofNat]
    exact canonical.contains_add offsetLt
  · rw [contains_iff canonical.1, ← BitVec.toNat_inj, toNat_and_mask]
    intro sameBlock
    refine ⟨address.toNat % 2 ^ (width - cidr.prefixLen), mod_lt _ blockPos, ?_⟩
    apply eq_of_toNat_eq
    have split := div_add_mod' address.toNat (2 ^ (width - cidr.prefixLen))
    have remainderLt : address.toNat % 2 ^ (width - cidr.prefixLen) < 2 ^ width :=
      lt_of_lt_of_le (mod_lt _ blockPos) blockLe
    rw [toNat_add, toNat_ofNat, Nat.mod_eq_of_lt remainderLt,
      ← sameBlock, split, Nat.mod_eq_of_lt address.isLt]

end Cidr

end Unf.Lib
