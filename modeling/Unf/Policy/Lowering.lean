import Unf.Lib.PrefixSearch
import Unf.Policy.Decision
import Unf.Policy.NetworkPolicy

/-!
# Lowering of policies to dataplane entries

The five compilers that turn policies and endpoints into the entries of a policy
map.  Each of them walks over pairs of a source and a destination and lowers one
pair to a global, a protocol-wide and an exact tier of entries.  The pair
compilers differ in how they evaluate a flow, in the tuples they consider, in
their keys, and in whether they leave out entries equal to the inherited one.
The elements of an ordered set of the program are a sorted list without
repetitions.
-/

namespace Unf.Policy

open Std (ExtTreeMap ExtTreeSet)
open Unf.Lib

inductive DataplaneCompileError where
  | identityMetadataConflict (identityId : IdentityId)
  | entryLimitExceeded (limit : Nat)
  | ipv4MetadataConflict (address : Ipv4Addr)
  | egressIpv4MetadataConflict (address : Ipv4Addr)
  | ipv4BlockTooLarge (addressCount limit : Nat)
  | ipv6MetadataConflict (address : Ipv6Addr)
  | egressIpv6MetadataConflict (address : Ipv6Addr)
  | unsupportedPolicyDirection (direction : PolicyDirection)
  deriving DecidableEq, Repr

/-! ## Preparation -/

/-- Every policy has the direction that the compiler lowers. -/
def ensureDataplanePolicies (direction : PolicyDirection) (policies : List PolicyIr) :
    Except DataplaneCompileError Unit :=
  match policies.find? fun policy => policy.direction != direction with
  | some policy => .error (.unsupportedPolicyDirection policy.direction)
  | none => .ok ()

def ensureIngressDataplanePolicies : List PolicyIr → Except DataplaneCompileError Unit :=
  ensureDataplanePolicies .ingress

def ensureEgressDataplanePolicies : List PolicyIr → Except DataplaneCompileError Unit :=
  ensureDataplanePolicies .egress

variable (policies : List PolicyIr) (endpoints : List Endpoint) (source destination : Endpoint)
  (sourceIpv4 : Option Ipv4Addr) (destinationAddresses : DestinationAddresses)

/-- The policies restricted to the rules that hold for every protocol. -/
def globalFallbackPolicies : List PolicyIr :=
  policies.map fun policy =>
    { policy with rules := policy.rules.filter fun rule => rule.protocol.isNone }

/-- Insert an endpoint under a key that no different endpoint may occupy. -/
def insertEndpoint {κ : Type} [LinearOrder κ] (conflict : κ → DataplaneCompileError)
    (table : ExtTreeMap κ Endpoint) (entry : κ × Endpoint) :
    Except DataplaneCompileError (ExtTreeMap κ Endpoint) :=
  let (key, endpoint) := entry
  if table[key]?.any fun existing => existing != endpoint then
    .error (conflict key)
  else
    .ok (table.insert key endpoint)

/-- The endpoints by key. -/
def endpointTable {κ : Type} [LinearOrder κ] (conflict : κ → DataplaneCompileError)
    (entries : List (κ × Endpoint)) :
    Except DataplaneCompileError (ExtTreeMap κ Endpoint) :=
  entries.foldlM (insertEndpoint conflict) ∅

def uniqueEndpoints : Except DataplaneCompileError (ExtTreeMap IdentityId Endpoint) :=
  endpointTable .identityMetadataConflict
    (endpoints.map fun endpoint => (endpoint.identity, endpoint))

/-- The values of an ordered map, in the order of their keys. -/
def orderedValues {κ ν : Type} [LinearOrder κ] (table : ExtTreeMap κ ν) : List ν :=
  table.toList.map Prod.snd

/-- The endpoints registered at addresses. -/
def knownEndpoints {width : Nat} (conflict : BitVec width → DataplaneCompileError)
    (addressed : List (AddressedEndpoint width)) :
    Except DataplaneCompileError (ExtTreeMap (BitVec width) Endpoint) :=
  endpointTable conflict (addressed.map fun item => (item.address, item.endpoint))

/-- The endpoint registered at an address, or the external endpoint. -/
def endpointAt {width : Nat} (known : ExtTreeMap (BitVec width) Endpoint)
    (address : BitVec width) : Endpoint :=
  known[address]?.getD externalEndpoint

/-! ## Tuples -/

/-- The ports that a rule names for a protocol, at a destination. -/
def exactRulePorts (rule : PolicyRule) (destination : Endpoint) :
    List (Protocol × UInt16) :=
  match rule.protocol with
  | none => []
  | some protocol =>
    match rule.destinationPort with
    | .any => []
    | .number port => [(protocol, port)]
    | .named name =>
      match destination.resolveNamedPort name protocol with
      | none => []
      | some port => [(protocol, port)]
    | .range start finish =>
      (List.range' start.toNat (finish.toNat + 1 - start.toNat)).map fun port =>
        (protocol, UInt16.ofNat port)

/-- The rules of the policies that select an endpoint. -/
def selectingRules (endpoint : Endpoint) : List PolicyRule :=
  (policies.filter fun policy => policy.target.matchesEndpoint endpoint).flatMap
    PolicyIr.rules

/-- The protocols for which some rule matches every port, in ascending order. -/
def wildcardProtocols (rules : List PolicyRule) : List Protocol :=
  sortDedup ((rules.filter fun rule => rule.destinationPort == .any).filterMap PolicyRule.protocol)

/-- The tuples that the rules name, in ascending order. -/
def exactTuples (rules : List PolicyRule) (destination : Endpoint) :
    List (Protocol × UInt16) :=
  (sortDedup ((rules.flatMap fun rule => exactRulePorts rule destination).map toLex)).map
    ofLex

/-! ## Entries -/

def mapEntry {κ : Type} (key : κ) (decision : PolicyDecision) : MapEntry κ :=
  ⟨key, policyDecisionRecord decision, shadowPolicyDecisionRecord decision⟩

def policyMapEntry (protocol : UInt8) (destinationPort : UInt16) :
    PolicyDecision → PolicyMapEntry :=
  mapEntry ⟨source.identity, destination.identity, protocol, destinationPort⟩

def ipv4PolicyMapEntry (sourceAddress : Ipv4Addr) (destination : Endpoint)
    (protocol : UInt8) (destinationPort : UInt16) :
    PolicyDecision → Ipv4PolicyMapEntry :=
  mapEntry ⟨sourceAddress, destination.identity, protocol, destinationPort⟩

def ipv6PolicyMapEntry (source : Ipv6Cidr) (destination : Endpoint)
    (protocol : UInt8) (destinationPort : UInt16) :
    PolicyDecision → Ipv6PolicyMapEntry :=
  mapEntry ⟨source.network, source.prefixLen, destination.identity, protocol, destinationPort⟩

def egressIpv4PolicyMapEntry (destinationAddress : Ipv4Addr) (protocol : UInt8)
    (destinationPort : UInt16) : PolicyDecision → EgressIpv4PolicyMapEntry :=
  mapEntry ⟨source.identity, destinationAddress, protocol, destinationPort⟩

def egressIpv6PolicyMapEntry (destination : Ipv6Cidr) (protocol : UInt8)
    (destinationPort : UInt16) : PolicyDecision → EgressIpv6PolicyMapEntry :=
  mapEntry ⟨source.identity, destination.network, destination.prefixLen, protocol, destinationPort⟩

section Push

variable {κ : Type}

/-- Append an entry within the capacity of one bank; the same for the entries of
all five maps. -/
def pushDataplaneEntry (entries : List (MapEntry κ)) (entry : MapEntry κ) :
    Except DataplaneCompileError (List (MapEntry κ)) := do
  failIf (decide (entries.length ≥ policyMapBankEntryLimit))
    (.entryLimitExceeded policyMapBankEntryLimit)
  return entries ++ [entry]

def pushWhen (condition : Bool) (entries : List (MapEntry κ)) (entry : MapEntry κ) :
    Except DataplaneCompileError (List (MapEntry κ)) :=
  if condition then pushDataplaneEntry entries entry else .ok entries

def entryDiffers (entry inherited : MapEntry κ) : Bool :=
  entry.decision != inherited.decision || entry.shadow != inherited.shadow

end Push

/-- What the lowering of one pair evaluates. -/
structure PairDecisions where
  globalFallback : PolicyDecision
  wildcardProtocols : List Protocol
  exactTuples : List (Protocol × UInt16)
  decide : Protocol → UInt16 → PolicyDecision

namespace PairDecisions

variable {κ : Type}

/-- The protocol-wide entry, left out when it equals the global one. -/
def pushProtocol (pair : PairDecisions) (entryFor : UInt8 → UInt16 → PolicyDecision → MapEntry κ)
    (state : List (MapEntry κ) × ExtTreeMap Protocol (MapEntry κ)) (protocol : Protocol) :
    Except DataplaneCompileError
      (List (MapEntry κ) × ExtTreeMap Protocol (MapEntry κ)) := do
  let globalEntry := entryFor 0 0 pair.globalFallback
  let decision := pair.decide protocol 0
  let entry := entryFor protocol.number 0 decision
  let entries ← pushWhen (hasPolicyProvenance decision && entryDiffers entry globalEntry)
    state.1 entry
  return (entries, state.2.insert protocol entry)

/-- The exact entry, left out when it equals the one it would inherit. -/
def pushExact (pair : PairDecisions) (entryFor : UInt8 → UInt16 → PolicyDecision → MapEntry κ)
    (protocolEntries : ExtTreeMap Protocol (MapEntry κ)) (entries : List (MapEntry κ))
    (tuple : Protocol × UInt16) : Except DataplaneCompileError (List (MapEntry κ)) :=
  let (protocol, port) := tuple
  let decision := pair.decide protocol port
  let entry := entryFor protocol.number port decision
  let inherited := protocolEntries[protocol]?.getD (entryFor 0 0 pair.globalFallback)
  pushWhen (hasPolicyProvenance decision && entryDiffers entry inherited) entries entry

/-- Lower a pair to the entries that differ from what they inherit. -/
def pushChanged (pair : PairDecisions) (entryFor : UInt8 → UInt16 → PolicyDecision → MapEntry κ)
    (entries : List (MapEntry κ)) : Except DataplaneCompileError (List (MapEntry κ)) := do
  let entries ← pushWhen (hasPolicyProvenance pair.globalFallback) entries
    (entryFor 0 0 pair.globalFallback)
  let (entries, protocolEntries) ←
    pair.wildcardProtocols.foldlM (pair.pushProtocol entryFor) (entries, ∅)
  pair.exactTuples.foldlM (pair.pushExact entryFor protocolEntries) entries

/-- Lower a pair to an entry for every tuple it considers. -/
def pushAll (pair : PairDecisions) (entryFor : UInt8 → UInt16 → PolicyDecision → MapEntry κ)
    (entries : List (MapEntry κ)) : Except DataplaneCompileError (List (MapEntry κ)) := do
  let entries ← pushWhen (hasPolicyProvenance pair.globalFallback) entries
    (entryFor 0 0 pair.globalFallback)
  let entries ← pair.wildcardProtocols.foldlM (fun entries protocol =>
    let decision := pair.decide protocol 0
    pushWhen (hasPolicyProvenance decision) entries
      (entryFor protocol.number 0 decision)) entries
  pair.exactTuples.foldlM (fun entries (protocol, port) =>
    let decision := pair.decide protocol port
    pushWhen (hasPolicyProvenance decision) entries
      (entryFor protocol.number port decision)) entries

end PairDecisions

/-! ## Pairs -/

def ingressFlow (sourceIpv6 : Option Ipv6Addr) (protocol : Protocol) (destinationPort : UInt16) :
    Flow :=
  { source, destination, protocol, destinationPort, sourceIpv4, sourceIpv6 }

def dataplaneFlow (protocol : Protocol) (destinationPort : UInt16) : Flow :=
  { source, destination, protocol, destinationPort, sourceIpv4 := none, sourceIpv6 := none }

/-- The decisions for traffic between a source and a destination of ingress
policies, with tuples taken from the considered rules. -/
def ingressPair (sourceIpv6 : Option Ipv6Addr) (considered : List PolicyRule) : PairDecisions where
  globalFallback := evaluate (globalFallbackPolicies policies)
    (ingressFlow source destination sourceIpv4 sourceIpv6 .tcp 0)
  wildcardProtocols := wildcardProtocols considered
  exactTuples := exactTuples considered destination
  decide protocol port := evaluate policies
    (ingressFlow source destination sourceIpv4 sourceIpv6 protocol port)

/-- The rules that match a pair of endpoints apart from protocol and port. -/
def rulesForPair : List PolicyRule :=
  (selectingRules policies destination).filter fun rule =>
    rule.source.matchesSource source sourceIpv4 none &&
      rule.destination.matchesEndpoint destination

/-- The pair with the tuples of the rules that match it. -/
def matchedPair (destination : Endpoint) : PairDecisions :=
  ingressPair policies source destination sourceIpv4 none
    (rulesForPair policies source destination sourceIpv4)

/-- The pair with the tuples of all rules of the destination, whatever their
source, so that every prefix has an entry for each of them. -/
def uniformPair (sourceAddress : Ipv6Addr) (destination : Endpoint) : PairDecisions :=
  ingressPair policies source destination none (some sourceAddress)
    ((selectingRules policies destination).filter fun rule =>
      rule.destination.matchesEndpoint destination)

/-- The body of the loops of `compile_dataplane_entries`. -/
def compileIdentityPair (entries : List PolicyMapEntry) :
    Except DataplaneCompileError (List PolicyMapEntry) :=
  (matchedPair policies source none destination).pushChanged
    (policyMapEntry source destination) entries

def compileIpv4Pair (sourceAddress : Ipv4Addr) (destination : Endpoint)
    (entries : List Ipv4PolicyMapEntry) : Except DataplaneCompileError (List Ipv4PolicyMapEntry) :=
  (matchedPair policies source sourceIpv4 destination).pushChanged
    (ipv4PolicyMapEntry sourceAddress destination) entries

def compileIpv6Pair (sourceAddress : Ipv6Addr) (sourceCidr : Ipv6Cidr) (destination : Endpoint)
    (entries : List Ipv6PolicyMapEntry) : Except DataplaneCompileError (List Ipv6PolicyMapEntry) :=
  (uniformPair policies source sourceAddress destination).pushAll
    (ipv6PolicyMapEntry sourceCidr destination) entries

/-- The rules that match an egress pair apart from protocol and port. -/
def egressRulesForPair : List PolicyRule :=
  (selectingRules policies source).filter fun rule =>
    rule.source.matchesSource source none none &&
      rule.destination.matchesDestination destination destinationAddresses

def egressWildcardProtocols : List Protocol :=
  wildcardProtocols (egressRulesForPair policies source destination destinationAddresses)

def egressExactTuples : List (Protocol × UInt16) :=
  exactTuples (egressRulesForPair policies source destination destinationAddresses)
    destination

def egressPair : PairDecisions where
  globalFallback := evaluateForDirectionWithAddresses (globalFallbackPolicies policies)
    .egress (dataplaneFlow source destination .tcp 0) destinationAddresses
  wildcardProtocols :=
    egressWildcardProtocols policies source destination destinationAddresses
  exactTuples := egressExactTuples policies source destination destinationAddresses
  decide protocol port := evaluateForDirectionWithAddresses policies .egress
    (dataplaneFlow source destination protocol port) destinationAddresses

def compileEgressIpv4Pair (destinationIpv4 : Option Ipv4Addr) (keyAddress : Ipv4Addr)
    (entries : List EgressIpv4PolicyMapEntry) :
    Except DataplaneCompileError (List EgressIpv4PolicyMapEntry) :=
  (egressPair policies source destination { ipv4 := destinationIpv4 }).pushChanged
    (egressIpv4PolicyMapEntry source keyAddress) entries

def compileEgressIpv6Pair (destinationAddress : Ipv6Addr) (destinationCidr : Ipv6Cidr)
    (entries : List EgressIpv6PolicyMapEntry) :
    Except DataplaneCompileError (List EgressIpv6PolicyMapEntry) :=
  (egressPair policies source destination { ipv6 := some destinationAddress }).pushAll
    (egressIpv6PolicyMapEntry source destinationCidr) entries

/-! ## IPv4 addresses -/

/-- The addresses of a prefix, counted with 32-bit numbers. -/
def cidrAddresses (cidr : Ipv4Cidr) : List Ipv4Addr :=
  cidr.expand (min (addressCount cidr) (2 ^ 32 - 1))

def blockAddresses (block : Ipv4Block) : List Ipv4Addr :=
  (cidrAddresses block.cidr).filter fun address => block.contains address

/-- The first of the given number of candidates that is not taken. -/
def firstFree (taken : ExtTreeSet Ipv4Addr) : Nat → Nat → Option Ipv4Addr
  | 0, _ => none
  | remaining + 1, candidate =>
    let address := BitVec.ofNat 32 candidate
    if taken.contains address then firstFree taken remaining (candidate + 1)
    else some address

def arbitraryIpv4Address (exactAddresses : ExtTreeSet Ipv4Addr) : Option Ipv4Addr :=
  firstFree exactAddresses (2 ^ 32 - 1) 1

def ensureBlockBounded (block : Ipv4Block) : Except DataplaneCompileError Unit :=
  failIf (block.cidr.prefixLen != 0 &&
      decide (addressCount block.cidr > kubernetesNetworkPolicyMaxIpBlockAddresses))
    (.ipv4BlockTooLarge (addressCount block.cidr) kubernetesNetworkPolicyMaxIpBlockAddresses)

/-- The addresses that need entries of their own: those of bounded blocks, and
those that a block over all addresses excludes. -/
def listedAddresses (blocks : List Ipv4Block) : List Ipv4Addr :=
  (blocks.filter fun block => block.cidr.prefixLen != 0).flatMap blockAddresses ++
    ((blocks.filter fun block => block.cidr.prefixLen == 0).flatMap Block.except).flatMap
      cidrAddresses

def insertAddress (addresses : ExtTreeSet Ipv4Addr) (address : Ipv4Addr) :
    Except DataplaneCompileError (ExtTreeSet Ipv4Addr) := do
  if address == 0 then
    .ok addresses
  else do
    let inserted := addresses.insert address
    failIf (!addresses.contains address && decide (inserted.size > policyMapBankEntryLimit))
      (.entryLimitExceeded policyMapBankEntryLimit)
    return inserted

/-- The blocks from which ingress policies select sources. -/
def ipv4SourceBlocks : List Ipv4Block :=
  (policies.flatMap PolicyIr.rules).flatMap fun rule => rule.source.ipv4Blocks

/-- The blocks from which egress policies select destinations. -/
def ipv4DestinationBlocks : List Ipv4Block :=
  (policies.flatMap PolicyIr.rules).flatMap fun rule => rule.destination.ipv4Blocks

/-- Some compatibility policy selects the destination; only these policies decide
for sources outside the cluster. -/
def isIsolated : Bool :=
  policies.any fun policy => policy.origin == .kubernetesNetworkPolicy &&
    policy.target.matchesEndpoint destination

/-- Some policy selects the source. -/
def isTargeted : Bool :=
  policies.any fun policy => policy.target.matchesEndpoint source

def hasGlobalIpv4Block (blocks : List Ipv4Block) : Bool :=
  blocks.any fun block => block.cidr.prefixLen == 0

/-- The address that stands for all addresses without an entry of their own. -/
def fallbackAddress (blocks : List Ipv4Block) (exactAddresses : ExtTreeSet Ipv4Addr) :
    Option Ipv4Addr :=
  if hasGlobalIpv4Block blocks then arbitraryIpv4Address exactAddresses else none

/-! ## IPv6 prefixes -/

def ipv6SourceBlocks : List Ipv6Block :=
  (policies.flatMap PolicyIr.rules).flatMap fun rule => rule.source.ipv6Blocks

def ipv6DestinationBlocks : List Ipv6Block :=
  (policies.flatMap PolicyIr.rules).flatMap fun rule => rule.destination.ipv6Blocks

/-- All prefixes at which a decision may change, in ascending order. -/
def ipv6Boundaries (blocks : List Ipv6Block) (known : ExtTreeMap Ipv6Addr Endpoint) :
    List Ipv6Cidr :=
  sortDedup (⟨0, 0⟩ :: blocks.flatMap (fun block => block.cidr :: block.except) ++
    known.keys.map fun network => ⟨network, 128⟩)

def uncoveredIpv6Address (cidr : Ipv6Cidr) (excluded : List Ipv6Cidr) : Option Ipv6Addr :=
  cidr.uncovered excluded

/-- The address that represents the part of a boundary outside all longer
boundaries, when that part is not empty. -/
def representative (boundaries : List Ipv6Cidr) (boundary : Ipv6Cidr) : Option Ipv6Addr :=
  uncoveredIpv6Address boundary (Cidr.inner boundaries boundary)

section Representatives

variable {κ : Type} (boundaries : List Ipv6Cidr)
  (compilePair : Ipv6Cidr → Ipv6Addr → List (MapEntry κ) →
    Except DataplaneCompileError (List (MapEntry κ)))

/-- Extend the entries at a boundary, if it has a representative. -/
def atRepresentative (entries : List (MapEntry κ)) (boundary : Ipv6Cidr) :
    Except DataplaneCompileError (List (MapEntry κ)) :=
  match representative boundaries boundary with
  | none => .ok entries
  | some address => compilePair boundary address entries

def forRepresentatives (entries : List (MapEntry κ)) :
    Except DataplaneCompileError (List (MapEntry κ)) :=
  boundaries.foldlM (atRepresentative boundaries compilePair) entries

end Representatives

/-! ## Compilers -/

def compileDataplaneEntries : Except DataplaneCompileError (List PolicyMapEntry) := do
  ensureIngressDataplanePolicies policies
  let unique ← uniqueEndpoints endpoints
  let entries ← (orderedValues unique).foldlM (fun entries source =>
    (orderedValues unique).foldlM (fun entries destination =>
      compileIdentityPair policies source destination entries) entries) []
  return sortByKey MapEntry.key entries

def compileIpv4DataplaneEntries (ipv4Endpoints : List Ipv4Endpoint) :
    Except DataplaneCompileError (List Ipv4PolicyMapEntry) := do
  ensureIngressDataplanePolicies policies
  let destinations ← uniqueEndpoints endpoints
  let knownSources ← knownEndpoints .ipv4MetadataConflict ipv4Endpoints
  let ipv4Blocks := ipv4SourceBlocks policies
  ipv4Blocks.forM ensureBlockBounded
  let sourceAddresses ← (listedAddresses ipv4Blocks).foldlM insertAddress
    (ExtTreeSet.ofList knownSources.keys)
  let entries ← sourceAddresses.toList.foldlM (fun entries address =>
    (orderedValues destinations).foldlM (fun entries destination =>
      compileIpv4Pair policies (endpointAt knownSources address) (some address) address
        destination entries) entries) []
  let isolated := (orderedValues destinations).filter fun destination =>
    isIsolated policies destination
  let entries ← isolated.foldlM (fun entries destination =>
    compileIpv4Pair policies externalEndpoint
      (fallbackAddress ipv4Blocks sourceAddresses) 0 destination entries) entries
  return sortByKey MapEntry.key entries

def compileIpv6DataplaneEntries (ipv6Endpoints : List Ipv6Endpoint) :
    Except DataplaneCompileError (List Ipv6PolicyMapEntry) := do
  ensureIngressDataplanePolicies policies
  let destinations ← uniqueEndpoints endpoints
  let knownSources ← knownEndpoints .ipv6MetadataConflict ipv6Endpoints
  let boundaries := ipv6Boundaries (ipv6SourceBlocks policies) knownSources
  failIf (decide (boundaries.length > policyMapBankEntryLimit))
    (.entryLimitExceeded policyMapBankEntryLimit)
  let entries ← (orderedValues destinations).foldlM (fun entries destination =>
    forRepresentatives boundaries (fun boundary address =>
      compileIpv6Pair policies (endpointAt knownSources address) address boundary
        destination) entries) []
  return sortByKey MapEntry.key entries

/-- The body of the loop of `compile_egress_ipv4_dataplane_entries`. -/
def compileEgressIpv4Source (knownDestinations : ExtTreeMap Ipv4Addr Endpoint)
    (destinationAddresses : ExtTreeSet Ipv4Addr) (entries : List EgressIpv4PolicyMapEntry)
    (source : Endpoint) : Except DataplaneCompileError (List EgressIpv4PolicyMapEntry) := do
  let entries ← destinationAddresses.toList.foldlM (fun entries address =>
    compileEgressIpv4Pair policies source (endpointAt knownDestinations address)
      (some address) address entries) entries
  if isTargeted policies source then
    compileEgressIpv4Pair policies source externalEndpoint
      (fallbackAddress (ipv4DestinationBlocks policies) destinationAddresses) 0 entries
  else
    .ok entries

def compileEgressIpv4DataplaneEntries (ipv4Endpoints : List Ipv4Endpoint) :
    Except DataplaneCompileError (List EgressIpv4PolicyMapEntry) := do
  ensureEgressDataplanePolicies policies
  let sources ← uniqueEndpoints endpoints
  let knownDestinations ← knownEndpoints .egressIpv4MetadataConflict ipv4Endpoints
  let ipv4Blocks := ipv4DestinationBlocks policies
  ipv4Blocks.forM ensureBlockBounded
  failIf (decide (knownDestinations.size > policyMapBankEntryLimit))
    (.entryLimitExceeded policyMapBankEntryLimit)
  let destinationAddresses ← (listedAddresses ipv4Blocks).foldlM insertAddress
    (ExtTreeSet.ofList knownDestinations.keys)
  let entries ← (orderedValues sources).foldlM
    (compileEgressIpv4Source policies knownDestinations destinationAddresses) []
  return sortByKey MapEntry.key entries

def compileEgressIpv6DataplaneEntries (ipv6Endpoints : List Ipv6Endpoint) :
    Except DataplaneCompileError (List EgressIpv6PolicyMapEntry) := do
  ensureEgressDataplanePolicies policies
  let sources ← uniqueEndpoints endpoints
  let knownDestinations ← knownEndpoints .egressIpv6MetadataConflict ipv6Endpoints
  let boundaries := ipv6Boundaries (ipv6DestinationBlocks policies) knownDestinations
  failIf (decide (boundaries.length > policyMapBankEntryLimit))
    (.entryLimitExceeded policyMapBankEntryLimit)
  let entries ← (orderedValues sources).foldlM (fun entries source =>
    if isTargeted policies source then forRepresentatives boundaries (fun boundary address =>
        compileEgressIpv6Pair policies source (endpointAt knownDestinations address)
          address boundary) entries
    else .ok entries) []
  return sortByKey MapEntry.key entries

end Unf.Policy
