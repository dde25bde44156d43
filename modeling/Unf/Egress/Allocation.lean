import Unf.Egress.Model
import Unf.Lib.Transaction

/-!
# Allocation of egress addresses

An allocator leases addresses to intents, from a pool or as the intent lists them. Every
first lease of an intent has an epoch of its own. Pools may be replaced while leases hold
on to old ones. The allocator survives as a checkpoint, which is checked again in full when
it is restored.
-/

namespace Unf.Egress

open Std (ExtTreeMap ExtTreeSet)
open Unf.Lib
open Unf.Service (Revision)

def egressAllocationCheckpointSchemaVersion : UInt16 := 1

def maxEgressPoolAllocationScan : Nat := 1048576

/-- What one intent asks for. -/
structure EgressAllocationRequest (Digest : Type) where
  intent : EgressIntent Digest
  explicitProvider : Option EgressProviderRef
  intentEpoch : UInt64
  intentRevision : Revision

/-- The pool that addresses are from. -/
structure EgressAllocatedPool where
  name : String
  uid : String
  deriving DecidableEq, Repr

/-- The addresses of one intent. -/
structure EgressAddressLease (Digest : Type) where
  intent : EgressIntent Digest
  pool : Option EgressAllocatedPool
  provider : EgressProviderRef
  addresses : List IpAddr
  leaseEpoch : UInt64
  intentEpoch : UInt64
  intentRevision : Revision
  allocationRevision : Revision
  deriving DecidableEq

/-- An allocator as it is stored. -/
structure EgressAllocationCheckpoint (Digest : Type) where
  schemaVersion : UInt16
  revision : Revision
  lastLeaseEpoch : UInt64
  pools : List EgressAddressPool
  leases : List (EgressAddressLease Digest)
  deriving DecidableEq

/-- Why a request fails. -/
inductive EgressAllocationError where
  | unsupportedSchema (actual expected : UInt16)
  | invalidModel (error : EgressModelError)
  | zeroIntentRevision
  | tooManyLeases (actual limit : Nat)
  | invalidProvider (owner : EgressIntentOwner)
  | unknownPool (name : String)
  | immutableIntentChanged (owner : EgressIntentOwner)
  | intentRevisionRegression (owner : EgressIntentOwner)
  | intentRevisionMutation (owner : EgressIntentOwner)
  | addressConflict (address : IpAddr) (owner : EgressIntentOwner)
  | exhausted (pool : String) (family : AddressFamily) (limit : Nat)
  | foreignLease (owner : EgressIntentOwner)
  | unknownOwner (owner : EgressIntentOwner)
  | counterExhausted
  deriving DecidableEq, Repr

abbrev AllocationResult := Except EgressAllocationError

/-! ## Addresses of a pool -/

/-- The address at an index. The prefixes of pools are canonical, so the additions of the
source stay within the family. -/
def poolCandidate (range : IpPrefix) (index : Nat) : Option IpAddr :=
  hostCandidate range.address range.prefixLen.toNat index

def usablePrefixAddress (range : IpPrefix) (address : IpAddr) : Bool :=
  if !range.contains address then
    false
  else
    match range.address, address with
    | .v4 network, .v4 address =>
      if range.prefixLen.toNat < 32 then
        decide (network.toNat < address.toNat ∧
          address.toNat < network.toNat + 2 ^ (32 - range.prefixLen.toNat) - 1)
      else
        true
    | .v6 network, .v6 address =>
      if range.prefixLen.toNat < 128 then decide (network.toNat < address.toNat) else true
    | _, _ => true

def EgressAddressPool.usable (pool : EgressAddressPool) (address : IpAddr) : Bool :=
  pool.prefixes.any fun range => usablePrefixAddress range address

/-- The first candidate of a prefix that is not reserved, from an index on, or the scans that
are left when there is none. -/
def scanPrefix (reserved : ExtTreeSet IpAddr) (range : IpPrefix) : Nat → Nat → IpAddr ⊕ Nat
  | 0, _ => .inr 0
  | remaining + 1, index =>
    match poolCandidate range index with
    | none => .inr (remaining + 1)
    | some candidate =>
      if reserved.contains candidate then scanPrefix reserved range remaining (index + 1)
      else .inl candidate

/-- The scans are shared by all prefixes. -/
def scanPrefixes (reserved : ExtTreeSet IpAddr) : List IpPrefix → Nat → Option IpAddr
  | [], _ => none
  | range :: rest, remaining =>
    match scanPrefix reserved range remaining 0 with
    | .inl address => some address
    | .inr remaining => scanPrefixes reserved rest remaining

def allocateFromPool (pool : EgressAddressPool) (family : AddressFamily)
    (reserved : ExtTreeSet IpAddr) : AllocationResult IpAddr :=
  (scanPrefixes reserved (pool.prefixes.filter fun range => range.family == family)
      maxEgressPoolAllocationScan).elim
    (.error (.exhausted pool.name family maxEgressPoolAllocationScan)) .ok

/-- One more address of a family, which nothing after it may take. -/
def planNext (pool : EgressAddressPool) (progress : ExtTreeSet IpAddr × List IpAddr)
    (family : AddressFamily) : AllocationResult (ExtTreeSet IpAddr × List IpAddr) := do
  let address ← allocateFromPool pool family progress.1
  return (progress.1.insert address, progress.2 ++ [address])

def checkedNextRevision (revision : Revision) : AllocationResult Revision :=
  if revision.next ≠ revision then .ok revision.next else .error .counterExhausted

def checkedNextEpoch (epoch : UInt64) : AllocationResult UInt64 :=
  if epoch.toNat + 1 < 2 ^ 64 then .ok (epoch + 1) else .error .counterExhausted

/-! ## The allocator -/

section Digest

variable {Digest : Type} [DecidableEq Digest]

/-- The pools and the leases from them. -/
structure EgressAllocator (Digest : Type) where
  pools : ExtTreeMap String EgressAddressPool
  leases : ExtTreeMap EgressIntentOwner (EgressAddressLease Digest)
  addressOwners : ExtTreeMap IpAddr EgressIntentOwner
  revision : Revision
  lastLeaseEpoch : UInt64

/-- A call on the allocator. -/
abbrev EgressAllocatorCall (Digest : Type) :=
  EStateM EgressAllocationError (EgressAllocator Digest)

namespace EgressAllocator

/-- Pools by their names. -/
def byName (pools : List EgressAddressPool) : ExtTreeMap String EgressAddressPool :=
  pools.foldl (fun table pool => table.insert pool.name pool) ∅

def new (pools : List EgressAddressPool) : AllocationResult (EgressAllocator Digest) := do
  let pools ← (normalizePools pools).mapError .invalidModel
  return ⟨byName pools, ∅, ∅, .initial, 0⟩

def providerFor (allocator : EgressAllocator Digest)
    (request : EgressAllocationRequest Digest) : AllocationResult EgressProviderRef :=
  match request.intent.addresses with
  | .pool name _ _ => do
      failIf request.explicitProvider.isSome (.invalidProvider request.intent.owner)
      (allocator.pools[name]?.map EgressAddressPool.provider).elim (.error (.unknownPool name)) .ok
  | .explicit _ =>
    (request.explicitProvider.filter validProvider).elim
      (.error (.invalidProvider request.intent.owner)) .ok

/-- Nobody owns the address. -/
def checkFree (allocator : EgressAllocator Digest) (address : IpAddr) : AllocationResult Unit :=
  allocator.addressOwners[address]?.elim (.ok ⟨⟩) fun owner =>
    .error (.addressConflict address owner)

def planAddresses (allocator : EgressAllocator Digest) (request : EgressAllocationRequest Digest) :
    AllocationResult (Option EgressAllocatedPool × List IpAddr) :=
  match request.intent.addresses with
  | .explicit addresses => do
      addresses.forM allocator.checkFree
      return (none, addresses)
  | .pool name families addressesPerFamily => do
      let pool ← allocator.pools[name]?.elim (.error (.unknownPool name)) .ok
      let reserved := ExtTreeSet.ofList allocator.addressOwners.keys
      let (_, addresses) ← (families.flatMap (List.replicate addressesPerFamily.toNat)).foldlM
        (planNext pool) (reserved, [])
      return (some ⟨pool.name, pool.uid⟩, sort addresses)

variable (digests : EgressDigests Digest)

def validateRequest (request : EgressAllocationRequest Digest) :
    AllocationResult (EgressAllocationRequest Digest) := do
  failIf (request.intentEpoch == 0 || request.intentRevision == .initial) .zeroIntentRevision
  let intent ← (normalizeIntent digests request.intent).mapError .invalidModel
  return { request with intent := intent }

variable (allocator : EgressAllocator Digest) (lease : EgressAddressLease Digest)

/-- What a request for an intent with a lease comes to: the lease as it is, or the lease
under a later intent. -/
def refreshedLease (existing : EgressAddressLease Digest) (provider : EgressProviderRef)
    (request : EgressAllocationRequest Digest) :
    AllocationResult (Option (EgressAddressLease Digest)) := do
  let owner := request.intent.owner
  failIf (existing.intent.addresses != request.intent.addresses ||
    existing.provider != provider) (.immutableIntentChanged owner)
  failIf (decide (request.intentEpoch < existing.intentEpoch) ||
      (request.intentEpoch == existing.intentEpoch &&
        decide (request.intentRevision < existing.intentRevision)))
    (.intentRevisionRegression owner)
  if request.intentEpoch = existing.intentEpoch ∧
      request.intentRevision = existing.intentRevision then
    failIf (request.intent != existing.intent) (.intentRevisionMutation owner)
    return none
  else
    let revision ← checkedNextRevision allocator.revision
    return some { existing with
      intent := request.intent
      intentEpoch := request.intentEpoch
      intentRevision := request.intentRevision
      allocationRevision := revision }

def newLease (provider : EgressProviderRef) (request : EgressAllocationRequest Digest) :
    AllocationResult (EgressAddressLease Digest) := do
  failIf (allocator.leases.size == maxEgressIntents)
    (.tooManyLeases (allocator.leases.size + 1) maxEgressIntents)
  let (pool, addresses) ← allocator.planAddresses request
  let revision ← checkedNextRevision allocator.revision
  let leaseEpoch ← checkedNextEpoch allocator.lastLeaseEpoch
  return {
    intent := request.intent
    pool := pool
    provider := provider
    addresses := addresses
    leaseEpoch := leaseEpoch
    intentEpoch := request.intentEpoch
    intentRevision := request.intentRevision
    allocationRevision := revision }

/-- A lease for a new intent, or a refreshed one. -/
def allocate (request : EgressAllocationRequest Digest) :
    EgressAllocatorCall Digest (EgressAddressLease Digest) := do
  let request ← MonadExcept.ofExcept (validateRequest digests request)
  let owner := request.intent.owner
  let allocator ← get
  let provider ← MonadExcept.ofExcept (allocator.providerFor request)
  match allocator.leases[owner]? with
  | some existing =>
    match ← MonadExcept.ofExcept (allocator.refreshedLease existing provider request) with
    | none => return existing
    | some refreshed =>
      modify fun state => { state with leases := state.leases.insert owner refreshed }
      modify fun state => { state with revision := refreshed.allocationRevision }
      return refreshed
  | none =>
    let lease ← MonadExcept.ofExcept (allocator.newLease provider request)
    modify fun state => { state with
      addressOwners := lease.addresses.foldl
        (fun owners address => owners.insert address owner) state.addressOwners }
    modify fun state => { state with leases := state.leases.insert owner lease }
    modify fun state => { state with revision := lease.allocationRevision }
    modify fun state => { state with lastLeaseEpoch := lease.leaseEpoch }
    return lease

def release (owner : EgressIntentOwner) :
    EgressAllocatorCall Digest (EgressAddressLease Digest) := do
  let allocator ← get
  let revision ← MonadExcept.ofExcept (checkedNextRevision allocator.revision)
  let lease ← MonadExcept.ofExcept
    (allocator.leases[owner]?.elim (.error (.unknownOwner owner)) .ok)
  modify fun state => { state with leases := state.leases.erase owner }
  modify fun state => { state with
    addressOwners := lease.addresses.foldl (fun owners address => owners.erase address)
      state.addressOwners }
  modify fun state => { state with revision := revision }
  return lease

/-! ## Replacement of pools -/

/-- The pools so far that leases hold on to, with the one of another lease. -/
def retainPool (retained : ExtTreeSet EgressAddressPool) (lease : EgressAddressLease Digest) :
    AllocationResult (ExtTreeSet EgressAddressPool) :=
  match lease.pool with
  | none => .ok retained
  | some pool => do
      let current ← allocator.pools[pool.name]?.elim
        (.error (.foreignLease lease.intent.owner)) .ok
      return retained.insert current

/-- A desired pool waits while it differs from a retained pool of its name, or overlaps a
retained pool of another name. -/
def admissible (current candidate : EgressAddressPool) : Bool :=
  if current.name = candidate.name then
    current == candidate
  else
    !current.prefixes.any fun left => candidate.prefixes.any fun right => left.overlaps right

def nextPools (desired : List EgressAddressPool) (retained : ExtTreeSet EgressAddressPool) :
    ExtTreeMap String EgressAddressPool :=
  retained.toList.foldl (fun table pool => table.insert pool.name pool)
    ((byName desired).filter fun _ candidate =>
      retained.toList.all fun current => admissible current candidate)

def reconcilePools (pools : List EgressAddressPool) : EgressAllocatorCall Digest Bool := do
  let desired ← MonadExcept.ofExcept ((normalizePools pools).mapError .invalidModel)
  let allocator ← get
  let retained ← MonadExcept.ofExcept
    ((tableValues allocator.leases).foldlM allocator.retainPool ∅)
  let next := nextPools desired retained
  if next = allocator.pools then
    return false
  else
    modify fun state => { state with pools := next }
    return true

/-! ## Checkpoints -/

def checkpoint : EgressAllocationCheckpoint Digest where
  schemaVersion := egressAllocationCheckpointSchemaVersion
  revision := allocator.revision
  lastLeaseEpoch := allocator.lastLeaseEpoch
  pools := tableValues allocator.pools
  leases := tableValues allocator.leases

def leaseMatchesRequest : Bool :=
  match lease.intent.addresses with
  | .explicit addresses => lease.pool.isNone && lease.addresses == addresses
  | .pool name families addressesPerFamily =>
    match allocator.pools[name]? with
    | none => false
    | some pool =>
      lease.pool == some ⟨pool.name, pool.uid⟩ && lease.provider == pool.provider &&
        lease.addresses.length == families.length * addressesPerFamily.toNat &&
        (families.all fun family => (lease.addresses.filter fun address =>
          address.family == family).length == addressesPerFamily.toNat) &&
        lease.addresses.all fun address => pool.usable address

def leaseForeign : Bool :=
  allocator.leases.contains lease.intent.owner || lease.intentEpoch == 0 ||
    lease.intentRevision == .initial || lease.allocationRevision == .initial ||
    decide (allocator.revision < lease.allocationRevision) || lease.leaseEpoch == 0 ||
    decide (allocator.lastLeaseEpoch < lease.leaseEpoch) || lease.addresses.isEmpty ||
    decide (maxEgressAddressesPerIntent * 2 < lease.addresses.length) ||
    !strictlyAscending lease.addresses || !validProvider lease.provider ||
    !allocator.leaseMatchesRequest lease

/-- Claims an address for an owner. -/
def claimAddress (owner : EgressIntentOwner) (owners : ExtTreeMap IpAddr EgressIntentOwner)
    (address : IpAddr) : AllocationResult (ExtTreeMap IpAddr EgressIntentOwner) :=
  owners[address]?.elim (.ok (owners.insert address owner))
    fun existing => .error (.addressConflict address existing)

def restoreLease : AllocationResult (EgressAllocator Digest) := do
  let owner := lease.intent.owner
  let normalized ← (normalizeIntent digests lease.intent).mapError fun _ => .foreignLease owner
  failIf (normalized != lease.intent || allocator.leaseForeign lease) (.foreignLease owner)
  let addressOwners ← lease.addresses.foldlM (claimAddress owner) allocator.addressOwners
  return { allocator with
    addressOwners := addressOwners
    leases := allocator.leases.insert owner lease }

def invalidOwner : EgressIntentOwner :=
  ⟨.cluster, "invalid", "invalid"⟩

/-- The owner that an error about a whole checkpoint names. -/
def firstOwner (checkpoint : EgressAllocationCheckpoint Digest) :
    EgressIntentOwner :=
  checkpoint.leases.head?.elim invalidOwner fun lease => lease.intent.owner

def restore (checkpoint : EgressAllocationCheckpoint Digest) :
    AllocationResult (EgressAllocator Digest) := do
  failIf (checkpoint.schemaVersion != egressAllocationCheckpointSchemaVersion)
    (.unsupportedSchema checkpoint.schemaVersion egressAllocationCheckpointSchemaVersion)
  failIf (decide (maxEgressIntents < checkpoint.leases.length))
    (.tooManyLeases checkpoint.leases.length maxEgressIntents)
  failIf (!checkpoint.leases.isEmpty &&
      (checkpoint.revision == .initial || checkpoint.lastLeaseEpoch == 0))
    (.foreignLease (firstOwner checkpoint))
  let allocator : EgressAllocator Digest ← new checkpoint.pools
  let allocator ← checkpoint.leases.foldlM (restoreLease digests)
    { allocator with
      revision := checkpoint.revision
      lastLeaseEpoch := checkpoint.lastLeaseEpoch }
  failIf (tableValues allocator.leases != checkpoint.leases)
    (.foreignLease (firstOwner checkpoint))
  return allocator

end EgressAllocator

end Digest

end Unf.Egress
