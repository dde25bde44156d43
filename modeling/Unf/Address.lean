import Unf.Common

/-!
# IP addresses of either family

Addresses as the configuration types carry them, with the classification that
validation relies on.
-/

namespace Unf

open Unf.Lib

/-- An address of either family. -/
inductive IpAddr where
  | v4 (address : Ipv4Addr)
  | v6 (address : Ipv6Addr)
  deriving DecidableEq, Repr

/-- The families of addresses. -/
inductive AddressFamily where
  | ipv4
  | ipv6
  deriving DecidableEq, Repr

namespace AddressFamily

def rank : AddressFamily → Nat
  | ipv4 => 0
  | ipv6 => 1

instance : LinearOrder AddressFamily :=
  LinearOrder.lift' rank <| by
    intro left right
    cases left <;> cases right <;> decide

end AddressFamily

namespace IpAddr

/-- IPv4 addresses come before IPv6 addresses. -/
def sortKey : IpAddr → Ipv4Addr ⊕ₗ Ipv6Addr
  | v4 address => toLex (.inl address)
  | v6 address => toLex (.inr address)

instance : LinearOrder IpAddr :=
  LinearOrder.lift' sortKey <| by
    intro left right
    cases left <;> cases right <;> simp [sortKey]

def isIpv4 : IpAddr → Bool
  | v4 _ => true
  | v6 _ => false

def isIpv6 : IpAddr → Bool
  | v4 _ => false
  | v6 _ => true

def family : IpAddr → AddressFamily
  | v4 _ => .ipv4
  | v6 _ => .ipv6

def isUnspecified : IpAddr → Bool
  | v4 address => address == 0
  | v6 address => address == 0

/-- Addresses in 224.0.0.0/4 or ff00::/8. -/
def isMulticast : IpAddr → Bool
  | v4 address => address >>> 28 == 0xe
  | v6 address => address >>> 120 == 0xff

/-- Addresses in 127.0.0.0/8, or ::1. -/
def isLoopback : IpAddr → Bool
  | v4 address => address >>> 24 == 127
  | v6 address => address == 1

/-- Addresses in 169.254.0.0/16 or fe80::/10. -/
def isLinkLocal : IpAddr → Bool
  | v4 address => address >>> 16 == 0xa9fe
  | v6 address => address >>> 118 == 0x3fa

/-- The IPv4 broadcast address. -/
def isBroadcast : IpAddr → Bool
  | v4 address => address == 0xffffffff
  | v6 _ => false

theorem isIpv4_eq_iff {left right : IpAddr} :
    left.isIpv4 = right.isIpv4 ↔ left.family = right.family := by
  cases left <;> cases right <;> simp [isIpv4, family]

theorem isIpv4_iff {address : IpAddr} : address.isIpv4 = true ↔ address.family = .ipv4 := by
  cases address <;> simp [isIpv4, family]

theorem isIpv6_iff {address : IpAddr} : address.isIpv6 = true ↔ address.family = .ipv6 := by
  cases address <;> simp [isIpv6, family]

end IpAddr

end Unf
