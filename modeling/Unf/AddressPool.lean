import Unf.Address
import Unf.Lib.Cidr

/-!
# Host addresses of a prefix

The addresses of a prefix that can be given to somebody. A network keeps its own address,
and an IPv4 network its broadcast address, unless the prefix is a single address.
-/

namespace Unf

open Unf.Lib Option

variable (network : IpAddr) (prefixLength : Nat)

/-- The host address at an index, counted from the first one. -/
def hostCandidate (prefixLength index : Nat) : Option IpAddr :=
  match network with
  | .v4 network =>
    let hostBits := 32 - prefixLength
    let first := network.toNat + if hostBits = 0 then 0 else 1
    let usable := 2 ^ hostBits - if hostBits = 0 then 0 else 2
    if index < usable ∧ first + index < 2 ^ 32 then
      some (.v4 (BitVec.ofNat 32 (first + index)))
    else
      none
  | .v6 network =>
    let hostBits := 128 - prefixLength
    let first := network.toNat + if hostBits = 0 then 0 else 1
    let within := if hostBits = 0 then index = 0 else
      hostBits = 128 ∨ index < 2 ^ hostBits - 1
    if within then some (.v6 (BitVec.ofNat 128 (first + index))) else none

/-- An address of the prefix is neither the one of the network nor its broadcast address. -/
def isHost (address : IpAddr) : Bool :=
  match network, address with
  | .v4 network, .v4 address =>
    decide (32 ≤ prefixLength) || decide (network.toNat < address.toNat ∧
      address.toNat < network.toNat + 2 ^ (32 - prefixLength) - 1)
  | .v6 network, .v6 address =>
    decide (128 ≤ prefixLength) || decide (network.toNat < address.toNat)
  | _, _ => false

/-- The address has the leading bits of the prefix. -/
def inPrefix (address : IpAddr) : Bool :=
  match network, address with
  | .v4 network, .v4 address => (Cidr.mk network prefixLength).contains address
  | .v6 network, .v6 address => (Cidr.mk network prefixLength).contains address
  | _, _ => false

/-- The prefix fits the family, and no bit is set outside it. -/
def CanonicalPrefix : Prop :=
  match network with
  | .v4 network => (Cidr.mk network prefixLength).Canonical
  | .v6 network => (Cidr.mk network prefixLength).Canonical

theorem family_eq_of_inPrefix {network address : IpAddr} {prefixLength : Nat}
    (contained : inPrefix network prefixLength address = true) :
    address.family = network.family := by
  cases network <;> cases address <;> simp_all [inPrefix, IpAddr.family]

/-- A candidate is a host address of its prefix. -/
theorem hostCandidate_spec {network address : IpAddr} {prefixLength index : Nat}
    (canonical : CanonicalPrefix network prefixLength) (small : index + 1 < 2 ^ 128)
    (found : hostCandidate network prefixLength index = some address) :
    inPrefix network prefixLength address = true ∧ isHost network prefixLength address = true := by
  cases network with
  | v4 network =>
    by_cases single : 32 - prefixLength = 0
    · simp only [hostCandidate, single, if_true, Nat.sub_zero, pow_zero, Nat.lt_one_iff,
        ite_none_right_eq_some, some.injEq] at found
      obtain ⟨⟨rfl, -⟩, rfl⟩ := found
      have full : 32 ≤ prefixLength := by omega
      exact ⟨canonical.contains_add (Nat.two_pow_pos _), by simp [isHost, full]⟩
    · simp only [hostCandidate, single, if_false, ite_none_right_eq_some, some.injEq] at found
      obtain ⟨⟨usable, noCarry⟩, rfl⟩ := found
      have inside : 1 + index < 2 ^ (32 - prefixLength) := by omega
      have exact : (BitVec.ofNat 32 (network.toNat + 1 + index)).toNat =
          network.toNat + 1 + index := by
        rw [BitVec.toNat_ofNat, Nat.mod_eq_of_lt noCarry]
      constructor
      · rw [Nat.add_assoc]
        exact canonical.contains_add inside
      · simp only [isHost, Bool.or_eq_true, decide_eq_true_eq]
        omega
  | v6 network =>
    by_cases single : 128 - prefixLength = 0
    · simp only [hostCandidate, single, ite_none_right_eq_some, some.injEq] at found
      obtain ⟨rfl, rfl⟩ := found
      have full : 128 ≤ prefixLength := by omega
      exact ⟨canonical.contains_add (Nat.two_pow_pos _), by simp [isHost, full]⟩
    · simp only [hostCandidate, single, if_false, ite_none_right_eq_some, some.injEq] at found
      obtain ⟨usable, rfl⟩ := found
      have inside : 1 + index < 2 ^ (128 - prefixLength) := by
        rcases usable with whole | below
        · rw [whole]
          omega
        · omega
      have exact : (BitVec.ofNat 128 (network.toNat + 1 + index)).toNat =
          network.toNat + 1 + index := by
        rw [BitVec.toNat_ofNat, Nat.add_assoc, Nat.mod_eq_of_lt (canonical.toNat_add_lt inside)]
      constructor
      · rw [Nat.add_assoc]
        exact canonical.contains_add inside
      · simp only [isHost, Bool.or_eq_true, decide_eq_true_eq]
        omega

/-- IPv4 addresses come first. -/
theorem IpAddr.lt_of_family_lt {left right : IpAddr} (ordered : left.family < right.family) :
    left < right := by
  cases left with
  | v4 left =>
    cases right with
    | v4 right => exact absurd ordered (lt_irrefl _)
    | v6 right => exact Sum.Lex.sep left right
  | v6 left =>
    cases right with
    | v4 right => exact absurd ordered (Nat.not_lt_zero _)
    | v6 right => exact absurd ordered (lt_irrefl _)

/-- Addresses whose families ascend do so themselves. -/
theorem ascending_of_families {addresses : List IpAddr}
    (families : (addresses.map IpAddr.family).Pairwise (· < ·)) : addresses.Pairwise (· < ·) :=
  (List.pairwise_map.mp families).imp IpAddr.lt_of_family_lt

end Unf
