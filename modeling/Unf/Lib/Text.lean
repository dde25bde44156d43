import Mathlib

/-!
# Written texts

The texts that the Rust standard library writes for IP addresses, and keys that join
several texts with the length of each before it, so that no two different sequences
give the same key.
-/

namespace Unf.Lib

open List Nat

/-! ## Addresses -/

/-- Dotted decimal. -/
def formatIpv4 (address : BitVec 32) : String :=
  ".".intercalate ((List.range 4).map fun index =>
    toString ((address >>> (24 - 8 * index)).toNat % 256))

def ipv6Segments (address : BitVec 128) : List Nat :=
  (List.range 8).map fun index => (address >>> (112 - 16 * index)).toNat % 65536

/-- Lower-case hexadecimal groups joined with colons. -/
def formatSegments (segments : List Nat) : String :=
  ":".intercalate (segments.map fun segment => String.ofList (Nat.toDigits 16 segment))

/-- A stretch of zero groups. -/
structure ZeroSpan where
  start : Nat
  length : Nat
  deriving DecidableEq, Repr

/-- One round of the search for the longest stretch: the longest one so far and the one
that ends at the previous group. -/
def extendZeroSpan (spans : ZeroSpan × ZeroSpan) (indexed : Nat × Nat) :
    ZeroSpan × ZeroSpan :=
  let (longest, current) := spans
  let (segment, index) := indexed
  if segment == 0 then
    let current : ZeroSpan :=
      ⟨if current.length == 0 then index else current.start, current.length + 1⟩
    (if current.length > longest.length then current else longest, current)
  else
    (longest, ⟨0, 0⟩)

/-- The first of the longest stretches of zero groups. -/
def longestZeroSpan (segments : List Nat) : ZeroSpan :=
  (segments.zipIdx.foldl extendZeroSpan (⟨0, 0⟩, ⟨0, 0⟩)).1

/-- IPv4-mapped addresses end in dotted decimal; otherwise the first of the longest
stretches of more than one zero group is left out. -/
def formatIpv6 (address : BitVec 128) : String :=
  if address >>> 32 == 0xffff then
    "::ffff:" ++ formatIpv4 (address.truncate 32)
  else
    let segments := ipv6Segments address
    let zeros := longestZeroSpan segments
    if zeros.length > 1 then
      formatSegments (segments.take zeros.start) ++ "::" ++
        formatSegments (segments.drop (zeros.start + zeros.length))
    else
      formatSegments segments

example : formatIpv4 0x0a6000ff = "10.96.0.255" := by decide +kernel

example : formatIpv6 0x20010db8000000010000000000000001 = "2001:db8:0:1::1" := by
  decide +kernel

/-! ## Keys of several texts -/

/-- Append a text to a key, after its length in bytes. -/
def appendFramed (key component : String) : String :=
  key ++ "|" ++ toString component.utf8ByteSize ++ ":" ++ component

/-- A key that names each of several texts. -/
def framedKey (kind : String) (components : List String) : String :=
  components.foldl appendFramed kind

/-- The characters that a framed text takes in a key. -/
def frame (component : String) : List Char :=
  '|' :: (Nat.toDigits 10 component.utf8ByteSize ++ ':' :: component.toList)

theorem toList_framedKey (kind : String) (components : List String) :
    (framedKey kind components).toList = kind.toList ++ components.flatMap frame := by
  induction components generalizing kind with
  | nil => simp [framedKey]
  | cons component components ih =>
    have appended : (appendFramed kind component).toList = kind.toList ++ frame component := by
      simp [appendFramed, frame]
    rw [framedKey, foldl_cons, ← framedKey, ih, appended, flatMap_cons, append_assoc]

variable {left right : String} {leftRest rightRest : List Char}

/-- A text is determined by a list that starts with it and its length in bytes. -/
theorem append_inj_of_utf8ByteSize (sameLength : left.utf8ByteSize = right.utf8ByteSize)
    (equal : left.toList ++ leftRest = right.toList ++ rightRest) :
    left = right ∧ leftRest = rightRest := by
  have split (first second : String) (rest : List Char)
      (same : first.utf8ByteSize = second.utf8ByteSize)
      (extended : first.toList = second.toList ++ rest) : rest = [] := by
    have whole : first = second ++ String.ofList rest := by
      rw [← String.toList_inj]
      simp [extended]
    have sizes := congrArg String.utf8ByteSize whole
    rw [String.utf8ByteSize_append] at sizes
    have empty : (String.ofList rest).utf8ByteSize = 0 := by omega
    rw [String.utf8ByteSize_eq_zero_iff] at empty
    simpa using congrArg String.toList empty
  rcases append_eq_append_iff.mp equal with ⟨rest, extended, tail⟩ | ⟨rest, extended, tail⟩
  · obtain rfl := split right left rest sameLength.symm extended
    exact ⟨String.toList_inj.mp (by simpa using extended.symm), by simpa using tail⟩
  · obtain rfl := split left right rest sameLength extended
    exact ⟨String.toList_inj.mp (by simpa using extended), by simpa using tail.symm⟩

theorem frame_append_inj (equal : frame left ++ leftRest = frame right ++ rightRest) :
    left = right ∧ leftRest = rightRest := by
  have noColon (size : Nat) : ∀ character ∈ toDigits 10 size, (character != ':') = true := by
    intro character member
    have digit := isDigit_of_mem_toDigits (by decide) (le_refl 10) member
    rw [bne_iff_ne]
    rintro rfl
    exact absurd digit (by decide)
  have digits (size : Nat) (tail : List Char) :
      (toDigits 10 size ++ ':' :: tail).takeWhile (· != ':') = toDigits 10 size := by
    rw [takeWhile_append_of_pos (noColon size)]
    simp
  simp only [frame, cons_append, append_assoc, List.cons.injEq, true_and] at equal
  have sameDigits : toDigits 10 left.utf8ByteSize = toDigits 10 right.utf8ByteSize := by
    rw [← digits left.utf8ByteSize, equal, digits]
  have sameLength : left.utf8ByteSize = right.utf8ByteSize := by
    have written := congrArg (ofDigitChars 10 · 0) sameDigits
    simpa only [ofDigitChars_toDigits (by decide : 1 < 10) (le_refl 10)] using written
  rw [sameDigits, append_cancel_left_eq, List.cons.injEq] at equal
  exact append_inj_of_utf8ByteSize sameLength equal.2

/-- Keys of one kind name the same texts. -/
theorem framedKey_inj {kind : String} {left right : List String}
    (equal : framedKey kind left = framedKey kind right) : left = right := by
  have frames := congrArg String.toList equal
  rw [toList_framedKey, toList_framedKey, append_cancel_left_eq] at frames
  clear equal
  induction left generalizing right with
  | nil =>
    cases right with
    | nil => rfl
    | cons => cases frames
  | cons first left ih =>
    cases right with
    | nil => cases frames
    | cons second right =>
      obtain ⟨rfl, rest⟩ := frame_append_inj frames
      rw [ih rest]

end Unf.Lib
