import Unf.Common

/-!
# Policy map entries

The keys and values of the five policy maps that the controller compiles and
the agent loads.  The key types differ in what they record about the peer; the
decision part is the same for all of them.  The derived order of a key type is
lexicographic in its fields.
-/

namespace Unf

open Unf.Lib

/-- Largest number of entries in one policy map bank. -/
def policyMapBankEntryLimit : Nat := 131072

/-- A decision as it is stored. -/
structure PolicyDecisionRecord where
  verdict : Verdict
  reason : PolicyReason
  policyId : Option PolicyId
  ruleId : Option RuleId
  deriving DecidableEq, Repr

/-- The verdict of a record and the policy and rule it is attributed to. -/
def PolicyDecisionRecord.attribution (record : PolicyDecisionRecord) :
    Verdict × Option PolicyId × Option RuleId :=
  (record.verdict, record.policyId, record.ruleId)

/-- One entry of a policy map with keys of type `κ`. -/
structure MapEntry (κ : Type) where
  key : κ
  decision : PolicyDecisionRecord
  shadow : Option PolicyDecisionRecord
  deriving DecidableEq, Repr

/-! ## Keys -/

/-- A flow between identities. -/
structure PolicyMapKey where
  sourceIdentity : IdentityId
  destinationIdentity : IdentityId
  protocol : UInt8
  destinationPort : UInt16
  deriving DecidableEq, Repr

structure Ipv4PolicyMapKey where
  sourceAddress : Ipv4Addr
  destinationIdentity : IdentityId
  protocol : UInt8
  destinationPort : UInt16
  deriving DecidableEq, Repr

structure Ipv6PolicyMapKey where
  sourceNetwork : Ipv6Addr
  sourcePrefixLen : Nat
  destinationIdentity : IdentityId
  protocol : UInt8
  destinationPort : UInt16
  deriving DecidableEq, Repr

structure EgressIpv4PolicyMapKey where
  sourceIdentity : IdentityId
  destinationAddress : Ipv4Addr
  protocol : UInt8
  destinationPort : UInt16
  deriving DecidableEq, Repr

structure EgressIpv6PolicyMapKey where
  sourceIdentity : IdentityId
  destinationNetwork : Ipv6Addr
  destinationPrefixLen : Nat
  protocol : UInt8
  destinationPort : UInt16
  deriving DecidableEq, Repr

abbrev PolicyMapEntry := MapEntry PolicyMapKey

abbrev Ipv4PolicyMapEntry := MapEntry Ipv4PolicyMapKey

abbrev Ipv6PolicyMapEntry := MapEntry Ipv6PolicyMapKey

abbrev EgressIpv4PolicyMapEntry := MapEntry EgressIpv4PolicyMapKey

abbrev EgressIpv6PolicyMapEntry := MapEntry EgressIpv6PolicyMapKey

/-! ## Key orders -/

instance : LinearOrder PolicyMapKey :=
  LinearOrder.lift' (fun key => toLex (key.sourceIdentity, toLex (key.destinationIdentity,
      toLex (key.protocol, key.destinationPort)))) <| by
    rintro ⟨⟩ ⟨⟩ equal
    simpa using equal

instance : LinearOrder Ipv4PolicyMapKey :=
  LinearOrder.lift' (fun key => toLex (key.sourceAddress, toLex (key.destinationIdentity,
      toLex (key.protocol, key.destinationPort)))) <| by
    rintro ⟨⟩ ⟨⟩ equal
    simpa using equal

instance : LinearOrder Ipv6PolicyMapKey :=
  LinearOrder.lift' (fun key => toLex (key.sourceNetwork, toLex (key.sourcePrefixLen,
      toLex (key.destinationIdentity, toLex (key.protocol, key.destinationPort))))) <| by
    rintro ⟨⟩ ⟨⟩ equal
    simpa using equal

instance : LinearOrder EgressIpv4PolicyMapKey :=
  LinearOrder.lift' (fun key => toLex (key.sourceIdentity, toLex (key.destinationAddress,
      toLex (key.protocol, key.destinationPort)))) <| by
    rintro ⟨⟩ ⟨⟩ equal
    simpa using equal

instance : LinearOrder EgressIpv6PolicyMapKey :=
  LinearOrder.lift' (fun key => toLex (key.sourceIdentity, toLex (key.destinationNetwork,
      toLex (key.destinationPrefixLen, toLex (key.protocol, key.destinationPort))))) <| by
    rintro ⟨⟩ ⟨⟩ equal
    simpa using equal

end Unf
