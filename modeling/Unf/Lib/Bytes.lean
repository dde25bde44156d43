import Mathlib

/-!
# Fixed-width byte encodings and buffers

Integers as byte lists in either byte order, and a byte buffer whose fields are
written and read as slices.  A field reads back what was last written to it, and
writes to disjoint fields do not interfere.
-/

namespace Unf.Lib

open List

/-- Byte order of a machine. -/
inductive Endian where
  | little
  | big
  deriving DecidableEq, Repr

/-- The low `width` bytes of a number, least significant first. -/
def littleEndianBytes : Nat → Nat → List UInt8
  | 0, _ => []
  | width + 1, value => UInt8.ofNat (value % 256) :: littleEndianBytes width (value / 256)

/-- The number with the given bytes, least significant first. -/
def ofLittleEndianBytes : List UInt8 → Nat
  | [] => 0
  | byte :: bytes => byte.toNat + 256 * ofLittleEndianBytes bytes

/-- The bytes of a number in native order. -/
def Endian.toBytes : Endian → Nat → Nat → List UInt8
  | .little, width, value => littleEndianBytes width value
  | .big, width, value => (littleEndianBytes width value).reverse

/-- The number with the given bytes in native order. -/
def Endian.ofBytes : Endian → List UInt8 → Nat
  | .little, bytes => ofLittleEndianBytes bytes
  | .big, bytes => ofLittleEndianBytes bytes.reverse

theorem length_littleEndianBytes (width value : Nat) :
    (littleEndianBytes width value).length = width := by
  induction width generalizing value with
  | zero => rfl
  | succ width ih =>
    rw [littleEndianBytes, length_cons, ih]

variable {width offset : Nat}

theorem ofLittleEndianBytes_littleEndianBytes {value : Nat} (bound : value < 256 ^ width) :
    ofLittleEndianBytes (littleEndianBytes width value) = value := by
  induction width generalizing value with
  | zero =>
    rw [pow_zero, Nat.lt_one_iff] at bound
    rw [bound]
    rfl
  | succ width ih =>
    have high : value / 256 < 256 ^ width := by
      rw [Nat.div_lt_iff_lt_mul (by decide)]
      exact bound
    have low : (UInt8.ofNat (value % 256)).toNat = value % 256 := by
      rw [UInt8.toNat_ofNat']
      omega
    rw [littleEndianBytes, ofLittleEndianBytes, ih high, low]
    exact Nat.mod_add_div value 256

@[simp] theorem Endian.length_toBytes (endian : Endian) (width value : Nat) :
    (endian.toBytes width value).length = width := by
  cases endian <;> simp [Endian.toBytes, length_littleEndianBytes]

theorem Endian.ofBytes_toBytes (endian : Endian) {value : Nat} (bound : value < 256 ^ width) :
    endian.ofBytes (endian.toBytes width value) = value := by
  cases endian <;>
    simp [Endian.ofBytes, Endian.toBytes, ofLittleEndianBytes_littleEndianBytes bound]

/-! ## Buffers -/

/-- Overwrite the bytes of a buffer that start at an offset. -/
def copyFromSlice (buffer : List UInt8) (offset : Nat) (bytes : List UInt8) :
    List UInt8 :=
  buffer.take offset ++ bytes ++ buffer.drop (offset + bytes.length)

/-- The bytes of a buffer in a range. -/
def slice (buffer : List UInt8) (offset width : Nat) : List UInt8 :=
  (buffer.drop offset).take width

variable {buffer bytes : List UInt8}

variable (bound : offset + bytes.length ≤ buffer.length)

include bound

theorem length_copyFromSlice : (copyFromSlice buffer offset bytes).length = buffer.length := by
  simp only [copyFromSlice, length_append, length_take, length_drop]
  omega

theorem getElem?_copyFromSlice (index : Nat) :
    (copyFromSlice buffer offset bytes)[index]? =
      if offset ≤ index ∧ index < offset + bytes.length then bytes[index - offset]? else
        buffer[index]? := by
  have takeLength : (buffer.take offset).length = offset := by
    rw [length_take]
    omega
  rw [copyFromSlice, append_assoc, getElem?_append, takeLength,
    getElem?_append, getElem?_take, getElem?_drop]
  rcases Nat.lt_or_ge index offset with before | notBefore
  · rw [if_pos before, if_pos before, if_neg (by omega)]
  · rw [if_neg (by omega)]
    rcases Nat.lt_or_ge index (offset + bytes.length) with inside | after
    · rw [if_pos (by omega), if_pos ⟨notBefore, inside⟩]
    · rw [if_neg (by omega), if_neg (by omega)]
      congr 1
      omega

omit bound in
/-- A field reads back what was written to it. -/
theorem slice_copyFromSlice (length : bytes.length = width)
    (bound : offset + width ≤ buffer.length) :
    slice (copyFromSlice buffer offset bytes) offset width = bytes := by
  subst length
  apply ext_getElem?
  intro index
  rw [slice, getElem?_take, getElem?_drop, getElem?_copyFromSlice bound]
  split_ifs with inside range
  · congr 1
    omega
  · omega
  · exact (getElem?_eq_none (by omega)).symm

/-- A write leaves every disjoint field unchanged. -/
theorem slice_copyFromSlice_of_disjoint {other : Nat}
    (disjoint : other + width ≤ offset ∨ offset + bytes.length ≤ other) :
    slice (copyFromSlice buffer offset bytes) other width = slice buffer other width := by
  apply ext_getElem?
  intro index
  rw [slice, slice, getElem?_take, getElem?_take, getElem?_drop,
    getElem?_drop, getElem?_copyFromSlice bound]
  split_ifs with inside range
  · omega
  · rfl
  · rfl

/-! ## Records in a buffer -/

omit bound

/-- The position of a field of a record. -/
structure Field where
  offset : Nat
  width : Nat
  deriving DecidableEq, Repr

/-- Two fields that share no byte. -/
def Field.Disjoint (left right : Field) : Prop :=
  left.offset + left.width ≤ right.offset ∨ right.offset + right.width ≤ left.offset

instance (left right : Field) : Decidable (left.Disjoint right) :=
  inferInstanceAs (Decidable (_ ∨ _))

/-- A write of some bytes at an offset. -/
structure Write where
  offset : Nat
  bytes : List UInt8

def Write.field (write : Write) : Field := ⟨write.offset, write.bytes.length⟩

/-- Perform writes from left to right. -/
def applyWrites (writes : List Write) (buffer : List UInt8) : List UInt8 :=
  writes.foldl (fun buffer write => copyFromSlice buffer write.offset write.bytes) buffer

/-- What a run of writes leaves in a field that holds `initial`. -/
def lastWritten (writes : List Write) (field : Field) (initial : List UInt8) :
    List UInt8 :=
  writes.foldl (fun current write => if write.field = field then write.bytes else current) initial

/-- A field holds the last bytes written to it, provided that every write stays
inside the buffer and either covers exactly this field or misses it. -/
theorem slice_applyWrites {writes : List Write} {field : Field}
    (fits : ∀ write ∈ writes, write.field.offset + write.field.width ≤ buffer.length)
    (aligned : ∀ write ∈ writes, write.field = field ∨ write.field.Disjoint field) :
    slice (applyWrites writes buffer) field.offset field.width =
      lastWritten writes field (slice buffer field.offset field.width) := by
  induction writes generalizing buffer with
  | nil => rfl
  | cons write rest ih =>
    have writeFits : write.offset + write.bytes.length ≤ buffer.length := fits write mem_cons_self
    have restFits : ∀ later ∈ rest, later.field.offset + later.field.width ≤
        (copyFromSlice buffer write.offset write.bytes).length := by
      intro later member
      rw [length_copyFromSlice writeFits]
      exact fits later (mem_cons_of_mem _ member)
    have restAligned : ∀ later ∈ rest,
        later.field = field ∨ later.field.Disjoint field := fun later member =>
      aligned later (mem_cons_of_mem _ member)
    have written : slice (copyFromSlice buffer write.offset write.bytes)
        field.offset field.width =
        if write.field = field then write.bytes
        else slice buffer field.offset field.width := by
      split
      · next same =>
          subst same
          exact slice_copyFromSlice rfl writeFits
      · next different =>
          have disjoint := (aligned write mem_cons_self).resolve_left different
          apply slice_copyFromSlice_of_disjoint writeFits
          simp only [Field.Disjoint, Write.field] at disjoint
          omega
    rw [applyWrites, foldl_cons, lastWritten, foldl_cons, ← written]
    exact ih restFits restAligned

end Unf.Lib
