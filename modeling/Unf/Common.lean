import Unf.Lib.Order

/-!
# Domain primitives

The small types shared by the policy and service components: numeric
identifiers, transport protocols, policy directions, actions, verdicts and the
reasons recorded with a decision.
-/

namespace Unf

open Unf.Lib

/-- The kinds of numeric identifier, one for each use of the `numeric_id!`
macro. -/
inductive IdKind where
  | identity
  | policy
  | rule
  | service
  | backend
  deriving DecidableEq, Repr

/-- A 32-bit identifier that does not mix with identifiers of another kind. -/
structure NumericId (kind : IdKind) where
  get : UInt32
  deriving DecidableEq, Repr

namespace NumericId

variable {kind : IdKind}

theorem get_injective : Function.Injective (get : NumericId kind → UInt32) := by
  rintro ⟨left⟩ ⟨right⟩ equal
  exact congrArg _ equal

instance : LinearOrder (NumericId kind) :=
  LinearOrder.lift' get get_injective

instance : Std.TransOrd (NumericId kind) :=
  inferInstance

end NumericId

/-- A workload identity; zero stands for an endpoint outside the cluster. -/
abbrev IdentityId := NumericId .identity

abbrev PolicyId := NumericId .policy

abbrev RuleId := NumericId .rule

abbrev ServiceId := NumericId .service

abbrev BackendId := NumericId .backend

/-- Control characters, which are the ones of general category `Cc`. -/
def isControl (character : Char) : Bool :=
  decide (character.val < 0x20) ||
    (decide (0x7f ≤ character.val) && decide (character.val ≤ 0x9f))

/-- An IPv4 address as its 32-bit number. -/
abbrev Ipv4Addr := BitVec 32

instance transOrd_ipv4Addr : Std.TransOrd Ipv4Addr :=
  inferInstance

/-- An IPv6 address as its 128-bit number. -/
abbrev Ipv6Addr := BitVec 128

/-- The protocols that policies tell apart. -/
inductive Protocol where
  | icmp
  | tcp
  | udp
  | sctp
  deriving DecidableEq, Repr

namespace Protocol

/-- The IP protocol number that represents the protocol in map keys. -/
def number : Protocol → UInt8
  | icmp => 1
  | tcp => 6
  | udp => 17
  | sctp => 132

theorem number_injective : Function.Injective number := by
  intro left right
  cases left <;> cases right <;> decide

instance : LinearOrder Protocol :=
  LinearOrder.lift' number number_injective

end Protocol

/-- Direction in which policy selects and isolates a workload. -/
inductive PolicyDirection where
  | ingress
  | egress
  deriving DecidableEq, Repr

namespace PolicyDirection

def number : PolicyDirection → UInt8
  | ingress => 1
  | egress => 2

theorem number_injective : Function.Injective number := by
  intro left right
  cases left <;> cases right <;> decide

instance : LinearOrder PolicyDirection :=
  LinearOrder.lift' number number_injective

end PolicyDirection

/-- What a rule does. -/
inductive PolicyAction where
  | allow
  | deny
  | audit
  deriving DecidableEq, Repr

/-- What happens to a packet. -/
inductive Verdict where
  | unknown
  | allow
  | deny
  | audit
  deriving DecidableEq, Repr

/-- The byte that represents a verdict in map values. -/
def Verdict.code : Verdict → UInt8
  | unknown => 0
  | allow => 1
  | deny => 2
  | audit => 3

/-- Machine-readable provenance of an effective policy decision. -/
inductive PolicyReason where
  | noApplicablePolicy
  | explicitRule
  | defaultAction
  deriving DecidableEq, Repr

/-- The byte that represents a reason in map values. -/
def PolicyReason.code : PolicyReason → UInt8
  | noApplicablePolicy => 0
  | explicitRule => 1
  | defaultAction => 2

end Unf
