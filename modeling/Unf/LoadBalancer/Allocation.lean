import Unf.AddressPool
import Unf.Lib.Grouping
import Unf.Lib.Transaction
import Unf.Revision

/-!
# Allocation of LoadBalancer addresses

Pools of addresses, and an allocator that leases them to services. A lease has one address
for each family of its request. The allocator survives as a checkpoint, which is checked
again in full when it is restored.
-/

namespace Unf.LoadBalancer

open Std (ExtTreeMap ExtTreeSet)
open Unf.Lib
open Unf.Service (Revision ServiceIpPrefix)

/-! ## Limits and versions -/

def allocationCheckpointSchemaVersion : UInt16 := 2

def legacyAllocationCheckpointSchemaVersion : UInt16 := 1

def maxLoadBalancerPools : Nat := 64

def maxLoadBalancerLeases : Nat := 65536

def maxPoolAllocationScan : Nat := 65536

/-! ## Owners, pools and leases -/

/-- The Service of a lease. -/
structure LoadBalancerOwner where
  serviceId : ServiceId
  «namespace» : String
  name : String
  uid : String
  deriving DecidableEq, Repr

namespace LoadBalancerOwner

def sortKey (owner : LoadBalancerOwner) :=
  toLex (owner.serviceId, toLex (owner.«namespace», toLex (owner.name, owner.uid)))

instance : LinearOrder LoadBalancerOwner :=
  LinearOrder.lift' sortKey <| by
    rintro ⟨⟩ ⟨⟩ equal
    simpa [sortKey] using equal

end LoadBalancerOwner

inductive ReachabilityMode where
  | directNode
  deriving DecidableEq, Repr

structure ReachabilityProviderRef where
  name : String
  «instance» : String
  mode : ReachabilityMode
  deriving DecidableEq, Repr

/-- A provider's prefixes. -/
structure LoadBalancerPool where
  name : String
  uid : String
  provider : ReachabilityProviderRef
  ipv4 : Option ServiceIpPrefix
  ipv6 : Option ServiceIpPrefix
  deriving DecidableEq, Repr

/-- What one Service asks for. -/
structure AllocationRequest where
  owner : LoadBalancerOwner
  pool : String
  families : List AddressFamily
  requestedIps : List IpAddr
  intentEpoch : UInt64
  intentRevision : Revision
  deriving DecidableEq, Repr

/-- The addresses of one Service. -/
structure LoadBalancerLease where
  owner : LoadBalancerOwner
  pool : String
  poolUid : String
  provider : ReachabilityProviderRef
  families : List AddressFamily
  requestedIps : List IpAddr
  addresses : List IpAddr
  intentEpoch : UInt64
  intentRevision : Revision
  allocationRevision : Revision
  deriving DecidableEq, Repr

structure AllocationCheckpoint where
  schemaVersion : UInt16
  revision : Revision
  pools : List LoadBalancerPool
  leases : List LoadBalancerLease
  deriving DecidableEq, Repr

/-- Why a request fails. -/
inductive AllocationError where
  | unsupportedSchema (actual expected : UInt16)
  | zeroRevision
  | tooManyPools (actual limit : Nat)
  | tooManyLeases (actual limit : Nat)
  | invalidPool (pool reason : String)
  | duplicatePoolName (name : String)
  | duplicatePoolUid (uid : String)
  | overlappingPools (left right : String) (family : AddressFamily)
  | unknownPool (name : String)
  | invalidOwner («namespace» name reason : String)
  | zeroIntentRevision
  | invalidFamilies (reason : String)
  | requestedAddressOutsidePool (address : IpAddr) (pool : String)
  | addressConflict (address : IpAddr) (owner : LoadBalancerOwner)
  | exhausted (pool : String) (family : AddressFamily) (limit : Nat)
  | foreignLease (owner : LoadBalancerOwner)
  | immutableIntentChanged (owner : LoadBalancerOwner)
  | intentRevisionRegression (owner : LoadBalancerOwner) (currentEpoch : UInt64)
      (currentRevision : Revision) (candidateEpoch : UInt64) (candidateRevision : Revision)
  | unknownOwner (owner : LoadBalancerOwner)
  deriving DecidableEq, Repr

abbrev AllocationResult := Except AllocationError

/-! ## Prefixes -/

section

variable (owner : LoadBalancerOwner) (pool : LoadBalancerPool) (request : AllocationRequest)
  (range : ServiceIpPrefix) (address : IpAddr)

/-- The addresses have the same bits under the prefix. -/
def prefixContains : Bool :=
  match range.address, address with
  | .v4 network, .v4 address =>
    let mask := Cidr.mask 32 range.prefixLength.toNat
    network &&& mask == address &&& mask
  | .v6 network, .v6 address =>
    let mask := Cidr.mask 128 range.prefixLength.toNat
    network &&& mask == address &&& mask
  | _, _ => false

def usablePrefixAddress : Bool :=
  prefixContains range address && isHost range.address range.prefixLength.toNat address

def prefixesOverlap (left right : ServiceIpPrefix) : Bool :=
  let prefixLength := min left.prefixLength right.prefixLength
  match left.address, right.address with
  | .v4 left, .v4 right =>
    let mask := Cidr.mask 32 prefixLength.toNat
    left &&& mask == right &&& mask
  | .v6 left, .v6 right =>
    let mask := Cidr.mask 128 prefixLength.toNat
    left &&& mask == right &&& mask
  | _, _ => false

def poolCandidate (index : Nat) : Option IpAddr :=
  hostCandidate range.address range.prefixLength.toNat index

/-! ## Pools -/

def validName (value : String) : Bool :=
  !value.isEmpty && decide (value.utf8ByteSize ≤ 253)

def validUid (value : String) : Bool :=
  !value.isEmpty && decide (value.utf8ByteSize ≤ 128)

def poolPrefix : AddressFamily → Option ServiceIpPrefix
  | .ipv4 => pool.ipv4
  | .ipv6 => pool.ipv6

def poolUsableAddress : Bool :=
  (poolPrefix pool address.family).any fun range => usablePrefixAddress range address

/-- A prefix of the family with at least one address to lease. -/
def validPoolPrefix (family : AddressFamily) (range : ServiceIpPrefix) : Bool :=
  range.address.family == family && range.isCanonical && (poolCandidate range 0).isSome

def validatePool : AllocationResult Unit := do
  failIf (!validName pool.name || !validUid pool.uid)
    (.invalidPool pool.name "name and UID must be nonempty and bounded")
  failIf (!validName pool.provider.name || !validUid pool.provider.«instance»)
    (.invalidPool pool.name "provider name and instance must be nonempty and bounded")
  failIf (pool.ipv4.isNone && pool.ipv6.isNone)
    (.invalidPool pool.name "at least one address family is required")
  failIf ((pool.ipv4.any fun range => !validPoolPrefix .ipv4 range) ||
      pool.ipv6.any fun range => !validPoolPrefix .ipv6 range)
    (.invalidPool pool.name "pool prefixes must be canonical and family exact")

/-- The pools so far by name, and their UIDs, with one more pool. -/
def addPool (progress : ExtTreeMap String LoadBalancerPool × ExtTreeSet String)
    (pool : LoadBalancerPool) :
    AllocationResult (ExtTreeMap String LoadBalancerPool × ExtTreeSet String) := do
  validatePool pool
  failIf (progress.2.contains pool.uid) (.duplicatePoolUid pool.uid)
  failIf (progress.1.contains pool.name) (.duplicatePoolName pool.name)
  return (progress.1.insert pool.name pool, progress.2.insert pool.uid)

def poolsOverlap (left right : LoadBalancerPool) (family : AddressFamily) : Bool :=
  (poolPrefix left family).any fun left =>
    (poolPrefix right family).any fun right => prefixesOverlap left right

def checkOverlap (pair : LoadBalancerPool × LoadBalancerPool) : AllocationResult Unit :=
  [AddressFamily.ipv4, AddressFamily.ipv6].forM fun family =>
    failIf (poolsOverlap pair.1 pair.2 family)
      (.overlappingPools pair.1.name pair.2.name family)

def validatePools (pools : List LoadBalancerPool) :
    AllocationResult (ExtTreeMap String LoadBalancerPool) := do
  failIf (decide (maxLoadBalancerPools < pools.length))
    (.tooManyPools pools.length maxLoadBalancerPools)
  let (byName, _) ← pools.foldlM addPool (∅, ∅)
  (orderedPairs (tableValues byName)).forM checkOverlap
  return byName

/-! ## Requests -/

def validateOwner : AllocationResult Unit := do
  failIf (owner.serviceId.get == 0)
    (.invalidOwner owner.«namespace» owner.name "service ID zero is reserved")
  failIf (!validName owner.«namespace» || !validName owner.name || !validUid owner.uid)
    (.invalidOwner owner.«namespace» owner.name
      "namespace, name, and UID must be nonempty and bounded")

/-- The request with its lists in order. -/
def validateAllocationRequest : AllocationResult AllocationRequest := do
  failIf (request.intentEpoch == 0 || request.intentRevision == .initial) .zeroIntentRevision
  failIf (request.families.isEmpty || decide (2 < request.families.length))
    (.invalidFamilies "one or two families are required")
  let families := sort request.families
  failIf (hasAdjacentRepeat families) (.invalidFamilies "families must be unique")
  let requestedIps := sort request.requestedIps
  failIf (decide (families.length < requestedIps.length) || hasAdjacentRepeat requestedIps)
    (.invalidFamilies "requested addresses must be unique and family bounded")
  let requestedFamilies := ExtTreeSet.ofList (requestedIps.map IpAddr.family)
  failIf (requestedFamilies.size != requestedIps.length ||
      !requestedFamilies.toList.all fun family => families.contains family)
    (.invalidFamilies "at most one requested address per admitted family is allowed")
  return { request with families := families, requestedIps := requestedIps }

end

/-! ## The allocator -/

/-- The pools and the leases. -/
structure LoadBalancerAllocator where
  pools : ExtTreeMap String LoadBalancerPool
  leases : ExtTreeMap LoadBalancerOwner LoadBalancerLease
  addressOwners : ExtTreeMap IpAddr LoadBalancerOwner
  revision : Revision

variable (allocator : LoadBalancerAllocator) (owner : LoadBalancerOwner) (pool : LoadBalancerPool)
  (request : AllocationRequest) (range : ServiceIpPrefix) (address : IpAddr)

/-- A call on the allocator. -/
abbrev AllocatorCall := EStateM AllocationError LoadBalancerAllocator

/-- The first candidate without an owner, among so many of them from an index on. -/
def firstFree (candidate : Nat → Option IpAddr) (owned : IpAddr → Bool) :
    Nat → Nat → Option IpAddr
  | 0, _ => none
  | remaining + 1, index =>
    match candidate index with
    | none => none
    | some address =>
      if owned address then firstFree candidate owned remaining (index + 1)
      else some address

namespace LoadBalancerAllocator

def new (pools : List LoadBalancerPool) : AllocationResult LoadBalancerAllocator := do
  let pools ← validatePools pools
  return ⟨pools, ∅, ∅, .initial⟩

def allocateFamily (family : AddressFamily) : AllocationResult IpAddr := do
  let range ← (poolPrefix pool family).elim
    (.error (.invalidFamilies "requested family is absent from the selected pool")) .ok
  (firstFree (poolCandidate range) (fun address => allocator.addressOwners.contains address)
      maxPoolAllocationScan 0).elim
    (.error (.exhausted pool.name family maxPoolAllocationScan)) .ok

/-- A requested address with its family, if the pool has it and nobody owns it. -/
def requestedAddress : AllocationResult (AddressFamily × IpAddr) := do
  failIf (!poolUsableAddress pool address) (.requestedAddressOutsidePool address pool.name)
  allocator.addressOwners[address]?.elim (.ok (address.family, address))
    fun owner => .error (.addressConflict address owner)

def planAddresses : AllocationResult (List IpAddr) := do
  let requested := ExtTreeMap.ofList
    (← request.requestedIps.mapM (allocator.requestedAddress pool))
  let planned ← request.families.mapM fun family =>
    requested[family]?.elim (allocator.allocateFamily pool family) .ok
  return sort planned

/-- What a request for an owner with a lease comes to: the lease as it is, or the lease
under a later intent. -/
def refreshedLease (existing : LoadBalancerLease) (request : AllocationRequest) :
    AllocationResult (Option LoadBalancerLease) := do
  failIf (existing.pool != request.pool || existing.families != request.families ||
      existing.requestedIps != request.requestedIps)
    (.immutableIntentChanged request.owner)
  failIf (decide (request.intentEpoch < existing.intentEpoch) ||
      (request.intentEpoch == existing.intentEpoch &&
        decide (request.intentRevision < existing.intentRevision)))
    (.intentRevisionRegression request.owner existing.intentEpoch existing.intentRevision
      request.intentEpoch request.intentRevision)
  if request.intentEpoch = existing.intentEpoch ∧
      request.intentRevision = existing.intentRevision then
    return none
  else
    return some { existing with
      intentEpoch := request.intentEpoch
      intentRevision := request.intentRevision
      allocationRevision := allocator.revision.next }

def newLease : AllocationResult LoadBalancerLease := do
  let addresses ← allocator.planAddresses pool request
  return {
    owner := request.owner
    pool := pool.name
    poolUid := pool.uid
    provider := pool.provider
    families := request.families
    requestedIps := request.requestedIps
    addresses := addresses
    intentEpoch := request.intentEpoch
    intentRevision := request.intentRevision
    allocationRevision := allocator.revision.next }

/-- A lease for a new Service, or a refreshed one. -/
def allocate : AllocatorCall LoadBalancerLease := do
  MonadExcept.ofExcept (validateOwner request.owner)
  let request ← MonadExcept.ofExcept (validateAllocationRequest request)
  let allocator ← get
  let pool ← MonadExcept.ofExcept
    (allocator.pools[request.pool]?.elim (.error (.unknownPool request.pool)) .ok)
  match allocator.leases[request.owner]? with
  | some existing =>
    match ← MonadExcept.ofExcept (allocator.refreshedLease existing request) with
    | none => return existing
    | some refreshed =>
      modify fun state => { state with leases := state.leases.insert request.owner refreshed }
      modify fun state => { state with revision := refreshed.allocationRevision }
      return refreshed
  | none =>
    let lease ← MonadExcept.ofExcept (allocator.newLease pool request)
    modify fun state => { state with
      addressOwners := lease.addresses.foldl
        (fun owners address => owners.insert address request.owner) state.addressOwners }
    modify fun state => { state with leases := state.leases.insert request.owner lease }
    modify fun state => { state with revision := lease.allocationRevision }
    return lease

/-- The lease is taken out before it is known whether there was one. -/
def release : AllocatorCall LoadBalancerLease := do
  let allocator ← get
  modify fun state => { state with leases := state.leases.erase owner }
  let lease ← MonadExcept.ofExcept
    (allocator.leases[owner]?.elim (.error (.unknownOwner owner)) .ok)
  modify fun state => { state with
    addressOwners := lease.addresses.foldl (fun owners address => owners.erase address)
      state.addressOwners }
  modify fun state => { state with revision := state.revision.next }
  return lease

def checkpoint : AllocationCheckpoint where
  schemaVersion := allocationCheckpointSchemaVersion
  revision := allocator.revision
  pools := tableValues allocator.pools
  leases := tableValues allocator.leases

/-! ## Restoration -/

/-- The lease does not fit its pool, or is not in canonical form. -/
def leaseForeign (revision : Revision) (pool : LoadBalancerPool) (lease : LoadBalancerLease) :
    Bool :=
  lease.poolUid != pool.uid || lease.provider != pool.provider ||
    lease.allocationRevision == .initial || decide (revision < lease.allocationRevision) ||
    lease.intentEpoch == 0 || lease.intentRevision == .initial || lease.families.isEmpty ||
    decide (2 < lease.families.length) || !strictlyAscending lease.families ||
    !strictlyAscending lease.requestedIps || !strictlyAscending lease.addresses ||
    lease.addresses.isEmpty || lease.addresses.length != lease.families.length ||
    decide (lease.families.length < lease.requestedIps.length) ||
    lease.addresses.map IpAddr.family != lease.families ||
    !(lease.requestedIps.all fun address => lease.addresses.contains address) ||
    lease.addresses.any fun address => !poolUsableAddress pool address

/-- Claims an address for an owner. -/
def claimAddress (owners : ExtTreeMap IpAddr LoadBalancerOwner) (address : IpAddr) :
    AllocationResult (ExtTreeMap IpAddr LoadBalancerOwner) :=
  owners[address]?.elim (.ok (owners.insert address owner))
    fun existing => .error (.addressConflict address existing)

def restoreLease (lease : LoadBalancerLease) : AllocationResult LoadBalancerAllocator := do
  validateOwner lease.owner
  failIf (allocator.leases.contains lease.owner) (.immutableIntentChanged lease.owner)
  let pool ← allocator.pools[lease.pool]?.elim (.error (.foreignLease lease.owner)) .ok
  failIf (leaseForeign allocator.revision pool lease) (.foreignLease lease.owner)
  let addressOwners ← lease.addresses.foldlM (claimAddress lease.owner)
    allocator.addressOwners
  return { allocator with
    addressOwners := addressOwners
    leases := allocator.leases.insert lease.owner lease }

/-- Leases of the first schema carry no epoch. -/
def upgradeLease (legacy : Bool) (lease : LoadBalancerLease) : LoadBalancerLease :=
  if legacy && lease.intentEpoch == 0 then { lease with intentEpoch := 1 } else lease

def restore (checkpoint : AllocationCheckpoint) : AllocationResult LoadBalancerAllocator := do
  failIf (checkpoint.schemaVersion != allocationCheckpointSchemaVersion &&
      checkpoint.schemaVersion != legacyAllocationCheckpointSchemaVersion)
    (.unsupportedSchema checkpoint.schemaVersion allocationCheckpointSchemaVersion)
  failIf (decide (maxLoadBalancerLeases < checkpoint.leases.length))
    (.tooManyLeases checkpoint.leases.length maxLoadBalancerLeases)
  failIf (!checkpoint.leases.isEmpty && checkpoint.revision == .initial) .zeroRevision
  let legacy := checkpoint.schemaVersion == legacyAllocationCheckpointSchemaVersion
  let allocator ← new checkpoint.pools
  checkpoint.leases.foldlM
    (fun allocator lease => allocator.restoreLease (upgradeLease legacy lease))
    { allocator with revision := checkpoint.revision }

end LoadBalancerAllocator

end Unf.LoadBalancer
