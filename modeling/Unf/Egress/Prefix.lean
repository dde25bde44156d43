import Unf.AddressPool
import Unf.Egress.Types

/-!
# Address prefixes of the egress domain

A prefix of either family. Prefixes from outside are checked for canonical form before
anything is decided with them.
-/

namespace Unf.Egress

open Unf.Lib

/-- An address and a length. -/
structure IpPrefix where
  address : IpAddr
  prefixLen : UInt8
  deriving DecidableEq, Repr

namespace IpPrefix

def sortKey (range : IpPrefix) :=
  toLex (range.address, range.prefixLen)

instance : LinearOrder IpPrefix :=
  LinearOrder.lift' sortKey <| by
    rintro ⟨⟩ ⟨⟩ equal
    simpa [sortKey] using equal

def family (range : IpPrefix) : AddressFamily :=
  range.address.family

/-- The length fits the family, and no bit is set outside the prefix. -/
def isCanonical (range : IpPrefix) : Bool :=
  match range.address with
  | .v4 network => decide (Cidr.mk network range.prefixLen.toNat).Canonical
  | .v6 network => decide (Cidr.mk network range.prefixLen.toNat).Canonical

/-- The masked address is the one of the prefix, which has to fit its family. -/
def contains (range : IpPrefix) (address : IpAddr) : Bool :=
  inPrefix range.address range.prefixLen.toNat address

def overlaps (left right : IpPrefix) : Bool :=
  left.family == right.family &&
    (left.contains right.address || right.contains left.address)

theorem isCanonical_iff {range : IpPrefix} :
    range.isCanonical = true ↔ CanonicalPrefix range.address range.prefixLen.toNat := by
  obtain ⟨address, prefixLen⟩ := range
  cases address <;> exact decide_eq_true_iff

theorem overlaps_comm (left right : IpPrefix) : left.overlaps right = right.overlaps left := by
  rw [overlaps, overlaps, Bool.or_comm, Bool.beq_comm]

end IpPrefix

end Unf.Egress
