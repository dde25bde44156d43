import Mathlib

/-!
# Textual addresses

The readers of the Rust standard library for decimal numbers and for IPv4 and
IPv6 addresses, over lists of characters.  A reader returns the value it read
and the characters that remain; a parser succeeds only when nothing remains.
-/

namespace Unf.Lib

/-- A reader of a prefix of its input. -/
abbrev Reader (α : Type) := List Char → Option (α × List Char)

/-- The value of a digit in the given radix. -/
def digitValue (radix : Nat) (character : Char) : Option Nat :=
  let value :=
    if '0' ≤ character ∧ character ≤ '9' then some (character.toNat - '0'.toNat)
    else if 'a' ≤ character ∧ character ≤ 'z' then
      some (character.toNat - 'a'.toNat + 10)
    else if 'A' ≤ character ∧ character ≤ 'Z' then
      some (character.toNat - 'A'.toNat + 10)
    else none
  value.filter fun digit => decide (digit < radix)

/-- Read digits greedily, failing when there are more than `maxDigits`.  The
result carries the number of digits and their value. -/
def readDigits (radix maxDigits : Nat) : Nat → Nat → Reader (Nat × Nat)
  | count, value, [] => some ((count, value), [])
  | count, value, character :: rest =>
    match digitValue radix character with
    | none => some ((count, value), character :: rest)
    | some digit =>
      if count + 1 > maxDigits then
        none
      else
        readDigits radix maxDigits (count + 1) (value * radix + digit) rest

/-- Read a number below `limit`. -/
def readNumber (radix maxDigits limit : Nat) (allowZeroPrefix : Bool) : Reader Nat :=
  fun input => do
    let hasLeadingZero := input.head? == some '0'
    let ((count, value), rest) ← readDigits radix maxDigits 0 0 input
    if count == 0 then none
    else if !allowZeroPrefix && hasLeadingZero && decide (count > 1) then none
    else if value < limit then some (value, rest)
    else none

def readGivenChar (expected : Char) : Reader Unit
  | [] => none
  | character :: rest => if character == expected then some ((), rest) else none

/-- Read an item of a sequence, with a separator before every item but the
first. -/
def readSeparator {α : Type} (separator : Char) (index : Nat) (item : Reader α) :
    Reader α :=
  fun input =>
    if index > 0 then do
      let ((), rest) ← readGivenChar separator input
      item rest
    else
      item input

/-- Read `remaining` decimal octets separated by dots. -/
def readOctets : Nat → Nat → Reader (List Nat)
  | _, 0 => fun input => some ([], input)
  | index, remaining + 1 => fun input => do
      let (octet, rest) ← readSeparator '.' index (readNumber 10 3 256 false) input
      let (octets, rest) ← readOctets (index + 1) remaining rest
      return (octet :: octets, rest)

/-- The number with the given digits, most significant first. -/
def ofDigits (base : Nat) (digits : List Nat) : Nat :=
  digits.foldl (fun value digit => value * base + digit) 0

def readIpv4Addr : Reader Nat := fun input => do
  let (octets, rest) ← readOctets 0 4 input
  return (ofDigits 256 octets, rest)

/-- Read at most `remaining` groups of an IPv6 address.  The flag tells whether
the groups end with an embedded IPv4 address. -/
def readGroups : Nat → Nat → List Char → (List Nat × Bool) × List Char
  | _, 0, input => (([], false), input)
  | index, remaining + 1, input =>
    let embedded :=
      if remaining > 0 then readSeparator ':' index readIpv4Addr input else none
    match embedded with
    | some (address, rest) => (([address / 65536, address % 65536], true), rest)
    | none =>
      match readSeparator ':' index (readNumber 16 4 65536 true) input with
      | none => (([], false), input)
      | some (group, rest) =>
        let ((groups, endsWithIpv4), rest) := readGroups (index + 1) remaining rest
        ((group :: groups, endsWithIpv4), rest)

def readIpv6Addr : Reader Nat := fun input => do
  let ((head, headIpv4), rest) := readGroups 0 8 input
  if head.length == 8 then
    return (ofDigits 65536 head, rest)
  else if headIpv4 then
    none
  else
    let ((), rest) ← readGivenChar ':' rest
    let ((), rest) ← readGivenChar ':' rest
    let ((tail, _), rest) := readGroups 0 (8 - (head.length + 1)) rest
    let zeros := List.replicate (8 - head.length - tail.length) 0
    return (ofDigits 65536 (head ++ zeros ++ tail), rest)

/-- Run a reader over a whole text. -/
def parseWith {α : Type} (reader : Reader α) (text : List Char) : Option α :=
  match reader text with
  | some (value, []) => some value
  | _ => none

def parseIpv4 (text : List Char) : Option (BitVec 32) :=
  if text.length > 15 then none
  else (parseWith readIpv4Addr text).map (BitVec.ofNat 32)

def parseIpv6 (text : List Char) : Option (BitVec 128) :=
  (parseWith readIpv6Addr text).map (BitVec.ofNat 128)

example : parseIpv4 "10.0.0.255".toList = some 0x0a0000ff := by decide +kernel

example : parseIpv6 "2001:db8::192.0.2.33".toList =
    some 0x20010db80000000000000000c0000221 := by decide +kernel

/-- A text never denotes addresses of both families: an IPv6 reader takes a
leading IPv4 address for the end of the address. -/
theorem parseIpv6_eq_none_of_parseIpv4 {text : List Char} {address : BitVec 32}
    (parsed : parseIpv4 text = some address) : parseIpv6 text = none := by
  rw [parseIpv4] at parsed
  split at parsed
  · simp at parsed
  · obtain ⟨value, whole, -⟩ := Option.map_eq_some_iff.mp parsed
    have read : readIpv4Addr text = some (value, []) := by
      rw [parseWith] at whole
      split at whole
      next rest readEq => rw [readEq, ← Option.some.inj whole]
      next => simp at whole
    simp [parseIpv6, parseWith, readIpv6Addr, readGroups, readSeparator, read]

/-- Parse an unsigned decimal number below `limit`, with an optional plus
sign. -/
def parseUnsigned (limit : Nat) (text : List Char) : Option Nat := do
  let digits ← match text with
    | [] => none
    | '+' :: rest => if rest.isEmpty then none else some rest
    | _ => some text
  let values ← digits.mapM (digitValue 10)
  let value := ofDigits 10 values
  if value < limit then some value else none

/-- Split a text at the first occurrence of a separator. -/
def splitOnce (separator : Char) : List Char → Option (List Char × List Char)
  | [] => none
  | character :: rest =>
    if character == separator then
      some ([], rest)
    else
      (splitOnce separator rest).map fun (before, after) => (character :: before, after)

end Unf.Lib
