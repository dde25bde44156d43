import Unf.Lib.Tiers
import Unf.Policy.Lowering

/-!
# Policy lookup in the dataplane

The policy maps as the kernel programs see them, and the sequences of keys that
they try for a packet.  All values belong to the active bank and revision, and a
value stands for the decision that it decodes to.  A map with address prefixes
answers with the longest prefix around the address among the entries that agree
with the rest of the key.
-/

namespace Unf.Policy

open Std (ExtTreeMap)
open Unf.Lib

/-! ## Maps -/

def entryValue {κ : Type} (entry : MapEntry κ) : PolicyValue :=
  ⟨entry.decision, entry.shadow⟩

/-- The map after the entries have been written in order. -/
def installEntries {κ : Type} [LinearOrder κ] (entries : List (MapEntry κ)) :
    ExtTreeMap κ PolicyValue :=
  entries.foldl (fun map entry => map.insert entry.key (entryValue entry)) ∅

/-- A key maps to the value that all entries with that key agree on. -/
theorem getElem?_installEntries {κ : Type} [LinearOrder κ] {entries : List (MapEntry κ)}
    {key : κ} {value : Option PolicyValue}
    (sound : ∀ entry ∈ entries, entry.key = key → value = some (entryValue entry))
    (complete : value ≠ none → ∃ entry ∈ entries, entry.key = key) :
    (installEntries entries)[key]? = value := by
  suffices scan : ∀ (rest : List (MapEntry κ)) (map : ExtTreeMap κ PolicyValue),
      (∀ entry ∈ rest, entry.key = key → value = some (entryValue entry)) →
      map[key]? = value ∨ (∃ entry ∈ rest, entry.key = key) →
      (rest.foldl (fun map entry => map.insert entry.key (entryValue entry)) map)[key]? = value by
    refine scan entries ∅ sound ?_
    by_cases absent : value = none
    · exact .inl (by simp [absent])
    · exact .inr (complete absent)
  intro rest
  induction rest with
  | nil =>
    rintro map - (found | ⟨entry, member, -⟩)
    · exact found
    · simp at member
  | cons entry rest ih =>
    intro map agree reached
    apply ih
    · exact fun other member => agree other (List.mem_cons_of_mem _ member)
    · by_cases same : entry.key = key
      · left
        rw [agree entry List.mem_cons_self same, ← same]
        simp
      · rcases reached with found | ⟨other, member, otherSame⟩
        · left
          rw [ExtTreeMap.getElem?_insert, if_neg (by simpa using same)]
          exact found
        · right
          rcases List.mem_cons.mp member with rfl | member
          · exact absurd otherSame same
          · exact ⟨other, member, otherSame⟩

structure IngressMaps where
  identity : ExtTreeMap PolicyMapKey PolicyValue
  ipv4 : ExtTreeMap Ipv4PolicyMapKey PolicyValue
  ipv6 : ExtTreeMap Ipv6PolicyMapKey PolicyValue

structure EgressMaps where
  ipv4 : ExtTreeMap EgressIpv4PolicyMapKey PolicyValue
  ipv6 : ExtTreeMap EgressIpv6PolicyMapKey PolicyValue

/-! ## Keys -/

def lookupIpv6PolicyValue (map : ExtTreeMap Ipv6PolicyMapKey PolicyValue)
    (destinationIdentity : IdentityId) (sourceAddress : Ipv6Addr) (protocol : UInt8)
    (destinationPort : UInt16) : Option PolicyValue :=
  Cidr.longestMatch (fun cidr => map[Ipv6PolicyMapKey.mk cidr.network cidr.prefixLen
    destinationIdentity protocol destinationPort]?) sourceAddress

def lookupEgressIpv6PolicyValue (map : ExtTreeMap EgressIpv6PolicyMapKey PolicyValue)
    (sourceIdentity : IdentityId) (destinationAddress : Ipv6Addr) (protocol : UInt8)
    (destinationPort : UInt16) : Option PolicyValue :=
  Cidr.longestMatch (fun cidr => map[EgressIpv6PolicyMapKey.mk sourceIdentity
    cidr.network cidr.prefixLen protocol destinationPort]?) destinationAddress

/-- Try a tuple, then its protocol, then the fallback for all protocols. -/
def lookupTiers (lookup : UInt8 → UInt16 → Option PolicyValue) (protocol : UInt8)
    (destinationPort : UInt16) : Option PolicyValue :=
  (lookup protocol destinationPort).or ((lookup protocol 0).or (lookup 0 0))

/-! ## Sequences -/

/-- The keys tried for an IPv4 source: its node, its own tiers, and the tiers of
arbitrary external sources. -/
def lookupIngressIpv4 (maps : IngressMaps) (destinationIdentity : IdentityId)
    (destinationPort : UInt16) (protocol : UInt8) (sourceIpv4 : Ipv4Addr) :
    Option PolicyValue :=
  let tiersAt (address : Ipv4Addr) := lookupTiers (fun protocol port =>
    maps.ipv4[Ipv4PolicyMapKey.mk address destinationIdentity protocol port]?)
      protocol destinationPort
  maps.ipv4[Ipv4PolicyMapKey.mk sourceIpv4 ⟨0⟩ 0 0]?.or
    ((tiersAt sourceIpv4).or (tiersAt 0))

def lookupIngressIpv6 (maps : IngressMaps) (destinationIdentity : IdentityId)
    (destinationPort : UInt16) (protocol : UInt8) (sourceIpv6 : Ipv6Addr) :
    Option PolicyValue :=
  (lookupIpv6PolicyValue maps.ipv6 ⟨0⟩ sourceIpv6 0 0).or
    (lookupTiers (lookupIpv6PolicyValue maps.ipv6 destinationIdentity sourceIpv6)
      protocol destinationPort)

/-- The decision for ingress traffic, absent when the packet is only observed. -/
def lookupIngressPolicy (maps : IngressMaps) (sourceIpv4 : Option Ipv4Addr)
    (sourceIpv6 : Option Ipv6Addr) (sourceIdentity destinationIdentity : IdentityId)
    (destinationPort : UInt16) (protocol : UInt8) : Option PolicyValue :=
  if destinationIdentity.get = 0 then
    none
  else
    (sourceIpv4.bind (lookupIngressIpv4 maps destinationIdentity destinationPort protocol)).or <|
    (sourceIpv6.bind (lookupIngressIpv6 maps destinationIdentity destinationPort protocol)).or <|
    if sourceIdentity.get = 0 then
      none
    else
      lookupTiers (fun protocol port =>
        maps.identity[PolicyMapKey.mk sourceIdentity destinationIdentity protocol port]?)
          protocol destinationPort

def lookupEgressIpv4 (maps : EgressMaps) (sourceIdentity : IdentityId)
    (destinationPort : UInt16) (protocol : UInt8) (destinationIpv4 : Ipv4Addr) :
    Option PolicyValue :=
  let tiersAt (address : Ipv4Addr) := lookupTiers (fun protocol port =>
    maps.ipv4[EgressIpv4PolicyMapKey.mk sourceIdentity address protocol port]?)
      protocol destinationPort
  maps.ipv4[EgressIpv4PolicyMapKey.mk ⟨0⟩ destinationIpv4 0 0]?.or
    ((tiersAt destinationIpv4).or (tiersAt 0))

def lookupEgressIpv6 (maps : EgressMaps) (sourceIdentity : IdentityId)
    (destinationPort : UInt16) (protocol : UInt8) (destinationIpv6 : Ipv6Addr) :
    Option PolicyValue :=
  (lookupEgressIpv6PolicyValue maps.ipv6 ⟨0⟩ destinationIpv6 0 0).or
    (lookupTiers (lookupEgressIpv6PolicyValue maps.ipv6 sourceIdentity destinationIpv6)
      protocol destinationPort)

/-- The decision for egress traffic, absent when the packet is only observed. -/
def lookupEgressPolicy (maps : EgressMaps) (destinationIpv4 : Option Ipv4Addr)
    (destinationIpv6 : Option Ipv6Addr) (sourceIdentity : IdentityId)
    (destinationPort : UInt16) (protocol : UInt8) : Option PolicyValue :=
  if sourceIdentity.get = 0 then
    none
  else
    (destinationIpv4.bind (lookupEgressIpv4 maps sourceIdentity destinationPort protocol)).or
    (destinationIpv6.bind (lookupEgressIpv6 maps sourceIdentity destinationPort protocol))

end Unf.Policy
