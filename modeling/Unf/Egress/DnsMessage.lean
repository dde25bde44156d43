import Unf.Egress.Fqdn
import Unf.Lib.Bytes

/-!
# DNS responses

The parser that an agent runs over the bytes a resolver returns. Names are read through
compression pointers and joined to a text; the records of the answer section become a map
of CNAMEs and a list of addresses, and the CNAMEs are followed from the name of the query.
-/

namespace Unf.Egress

open Unf.Lib

/-- What stops the parser: a check of its own, or an index outside the message, at which
the source panics. -/
inductive DnsFault where
  | refused (reason : String)
  | outOfRange
  deriving DecidableEq, Repr

abbrev DnsResult := Except DnsFault

/-- A label, one character for each of its bytes. -/
abbrev Label := List Char

/-! ## Names -/

/-- Where a compression pointer leads. -/
def pointerTarget (length low : UInt8) : Nat :=
  (length &&& 0x3f).toNat * 256 + low.toNat

def labelOf (bytes : List UInt8) : Label :=
  bytes.map fun byte => Char.ofNat byte.toNat

/-- The loop of `readName`: the labels, and where the message goes on. The offsets stay
within the message, so that no addition overflows. -/
def readLabels (message : List UInt8) (offset : Nat) (consumed : Option Nat) (jumps : Nat)
    (labels : List Label) : DnsResult (List Label × Nat) :=
  match message[offset]? with
  | none => .error (.refused "DNS name is truncated")
  | some length =>
    if length &&& 0xc0 = 0xc0 then
      match message[offset + 1]? with
      | none => .error (.refused "DNS pointer is truncated")
      | some low =>
        if maxEgressFqdnCnameDepth < jumps + 1 ∨
            message.length ≤ pointerTarget length low then
          .error (.refused "DNS compression pointer is invalid or cyclic")
        else
          readLabels message (pointerTarget length low)
            (consumed.or (some (offset + 2))) (jumps + 1) labels
    else if length &&& 0xc0 ≠ 0 then
      .error (.refused "DNS label uses an unsupported encoding")
    else if length = 0 then
      .ok (labels, consumed.getD (offset + 1))
    else if message.length < offset + 1 + length.toNat then
      .error (.refused "DNS label is truncated")
    else
      let bytes := slice message (offset + 1) length.toNat
      if bytes.any fun byte => decide (128 ≤ byte) then
        .error (.refused "DNS label is not ASCII")
      else
        readLabels message (offset + 1 + length.toNat) consumed jumps
          (labels ++ [labelOf bytes])
termination_by (maxEgressFqdnCnameDepth - jumps) * (message.length + 1) +
  (message.length - offset)
decreasing_by
  · next bounded =>
      have steps : maxEgressFqdnCnameDepth - jumps =
          maxEgressFqdnCnameDepth - (jumps + 1) + 1 := by omega
      rw [steps, Nat.succ_mul]
      omega
  · omega

/-- The labels joined with dots, in lower case. -/
def nameText (labels : List Label) : String :=
  toAsciiLowercase (String.ofList (['.'].intercalate labels))

variable (message : List UInt8)

def readName (start : Nat) : DnsResult (String × Nat) := do
  let (labels, stop) ← readLabels message start none 0 []
  failIf (nameText labels).isEmpty
    (.refused "DNS root name is not a valid observation target")
  return (nameText labels, stop)

/-! ## Records -/

/-- The number in some bytes of the message, the most significant first. -/
def number (offset width : Nat) : Nat :=
  Endian.big.ofBytes (slice message offset width)

/-- The number in bytes that are indexed one by one. -/
def numberAt (offset width : Nat) : DnsResult Nat := do
  failIf (decide (message.length < offset + width)) .outOfRange
  return number message offset width

/-- What the answer section has given so far. An owner has at most one CNAME, so that the
map of the source is the list of its entries. -/
structure DnsRecords where
  offset : Nat
  cnames : List (String × String × UInt32) := []
  addresses : List (String × EgressDnsAnswer) := []

def readRecord (queryType : UInt16) (read : DnsRecords) : DnsResult DnsRecords := do
  let (owner, offset) ← readName message read.offset
  failIf (decide (message.length < offset + 10)) (.refused "DNS resource record is truncated")
  let kind ← numberAt message offset 2
  let «class» ← numberAt message (offset + 2) 2
  let ttl ← numberAt message (offset + 4) 4
  let rdlen ← numberAt message (offset + 8) 2
  let rdata := offset + 10
  failIf (decide (message.length < rdata + rdlen)) (.refused "DNS RDATA is truncated")
  let next := { read with offset := rdata + rdlen }
  if «class» = 1 ∧ kind = 5 then
    let (target, _) ← readName message rdata
    failIf (read.cnames.lookup owner).isSome
      (.refused "DNS response contains ambiguous CNAME ownership")
    return { next with cnames := read.cnames ++ [(owner, target, .ofNat ttl)] }
  else if «class» = 1 ∧ kind = queryType.toNat ∧ kind = 1 ∧ rdlen = 4 then
    let address ← numberAt message rdata 4
    return { next with
      addresses := read.addresses ++ [(owner, ⟨.v4 (.ofNat 32 address), .ofNat ttl⟩)] }
  else if «class» = 1 ∧ kind = queryType.toNat ∧ kind = 28 ∧ rdlen = 16 then
    let address ← numberAt message rdata 16
    return { next with
      addresses := read.addresses ++ [(owner, ⟨.v6 (.ofNat 128 address), .ofNat ttl⟩)] }
  else
    return next

def readRecords (message : List UInt8) (queryType : UInt16) :
    Nat → DnsRecords → DnsResult DnsRecords
  | 0, read => .ok read
  | count + 1, read => do
      readRecords message queryType count (← readRecord message queryType read)

/-! ## The answer to a query -/

/-- Follow the CNAMEs for at most some steps. The names of the chain are the ones already
seen; the last of them is the canonical one. -/
def followCnames (cnames : List (String × String × UInt32)) :
    Nat → List String → String → UInt32 → DnsResult (List String × String × UInt32)
  | 0, chain, canonical, chainTtl => .ok (chain, canonical, chainTtl)
  | steps + 1, chain, canonical, chainTtl =>
    match cnames.lookup canonical with
    | none => .ok (chain, canonical, chainTtl)
    | some (next, ttl) => do
        failIf (chain.contains next) (.refused "DNS response contains a CNAME loop")
        followCnames cnames steps (chain ++ [next]) next (min chainTtl ttl)

/-- What is read from a message. -/
structure ParsedDns where
  canonicalChain : List String
  answers : List EgressDnsAnswer
  deriving DecidableEq

/-- A response to a query of this name and type. -/
def parseResponse (queryName : String) (queryType id : UInt16) : DnsResult ParsedDns := do
  failIf (decide (message.length < 12))
    (.refused "DNS response has an invalid header or transaction ID")
  failIf ((← numberAt message 0 2) != id.toNat)
    (.refused "DNS response has an invalid header or transaction ID")
  let flags := UInt16.ofNat (← numberAt message 2 2)
  let rcode := flags &&& 0x000f
  failIf (flags &&& 0x8000 == 0 || flags &&& 0x7800 != 0 || !(rcode == 0 || rcode == 3))
    (.refused "DNS response is not an authoritative empty or successful answer")
  failIf ((← numberAt message 4 2) != 1)
    (.refused "DNS response question count is not exactly one")
  let answerCount ← numberAt message 6 2
  failIf (decide (128 < answerCount)) (.refused "DNS answer section exceeds its parser bound")
  let (questionName, offset) ← readName message 12
  failIf (decide (message.length < offset + 4)) (.refused "DNS question is truncated")
  let responseType ← numberAt message offset 2
  let responseClass ← numberAt message (offset + 2) 2
  failIf (questionName != queryName || responseType != queryType.toNat || responseClass != 1)
    (.refused "DNS response question does not match the issued query")
  let records ← readRecords message queryType answerCount { offset := offset + 4 }
  let (chain, canonical, chainTtl) ← followCnames records.cnames maxEgressFqdnCnameDepth
    [queryName] queryName 0xffffffff
  failIf (records.cnames.lookup canonical).isSome
    (.refused "DNS response exceeds the CNAME depth bound")
  let owned := records.addresses.filter fun record => record.1 == canonical
  return ⟨chain, owned.map fun record => record.2.capped chainTtl⟩

end Unf.Egress
