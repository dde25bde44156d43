import Unf.Encryption.Kernel

/-!
# The fast path of a node

The compiler from admitted key epochs and the decisions for pairs of identities to a complete
bank. Pairs whose traffic takes the same tunnel share a transport; the id of a transport is
derived from its content. A pair with destinations on several nodes is bound by the prefix of
the destination, in a table that all such pairs share.
-/

namespace Unf.Encryption

open Std (ExtTreeMap)
open Unf.Lib Unf.Egress
open Unf.Service (Revision)

def maxFastPathDecisions : Nat := encryptionDecisionMapCapacity.toNat

def maxFastPathTransports : Nat := encryptionTransportMapCapacity.toNat

def maxFastPathPaths : Nat := encryptionPathMapCapacity.toNat

def maxFastPathEpochs : Nat := 2

/-! ## Input -/

/-- The epochs that traffic may use. -/
inductive FastPathEpochState where
  | active
  | draining
  deriving DecidableEq, Repr

/-- A key epoch whose tunnel has been configured and read back. -/
structure FastPathEpochAdmission where
  contract : AttestedEncryptionPathContract
  transaction : ProofCarryingKernelTransaction
  readback : WireGuardKernelSnapshot
  readinessDigest : Digest
  state : FastPathEpochState
  drainUntilMonotonicNs : UInt64
  deriving DecidableEq

/-- What is to happen to the traffic of a pair. A required decision names the plan of an
admitted epoch. -/
structure FastPathDecisionInput where
  sourceIdentity : IdentityId
  destinationIdentity : IdentityId
  disposition : EncryptionDisposition
  contractEpoch : Option UInt64
  planIndex : Option Nat
  deriving DecidableEq, Repr

/-- The revisions, bank and time of a compilation. -/
structure FastPathCompileContext where
  generation : Revision
  policyRevision : Revision
  serviceRevision : Revision
  egressRevision : Revision
  bank : UInt8
  nowUnixMs : UInt64
  nowMonotonicNs : UInt64
  deriving DecidableEq, Repr

/-! ## Output -/

/-- A transport that may be used. -/
structure EncryptionTransportAuthority where
  transportId : UInt64
  trustDomain : String
  localNodeUid : String
  destinationNodeUid : String
  keyEpoch : UInt64
  pathClass : EncryptionPathClass
  interfaceName : String
  interfaceIndex : UInt32
  routeTable : UInt32
  fwmark : Mark
  mtu : UInt32
  kernelConfigurationDigest : Digest
  readinessDigest : Digest
  contractRevision : Revision
  state : FastPathEpochState
  drainUntilMonotonicNs : UInt64
  deriving DecidableEq, Repr

/-- The decision for a pair. -/
structure FastPathDecisionAuthority where
  sourceIdentity : IdentityId
  destinationIdentity : IdentityId
  disposition : EncryptionDisposition
  transportId : Option UInt64
  contractRevision : Option Revision
  keyEpoch : Option UInt64
  decisionWitness : Witness
  deriving DecidableEq, Repr

/-- The transport for the destinations of a prefix. -/
structure EncryptionPathAuthority where
  ipPrefix : IpPrefix
  transportId : UInt64
  contractRevision : Revision
  keyEpoch : UInt64
  bindingWitness : Witness
  deriving DecidableEq, Repr

/-- A prefix as it is entered into a map of one family. -/
structure LoweredPath (width : Nat) where
  prefixLen : UInt32
  bank : UInt8
  destinationAddress : BitVec width
  value : EncryptionPathValue
  deriving DecidableEq, Repr

/-- The compiled tables. -/
structure EncryptionFastPathState where
  config : EncryptionMapConfig
  decisions : List (EncryptionDecisionKey × EncryptionDecisionValue)
  transports : List (EncryptionTransportKey × EncryptionTransportValue)
  ipv4Paths : List (LoweredPath 32)
  ipv6Paths : List (LoweredPath 128)
  decisionAuthority : List FastPathDecisionAuthority
  transportAuthority : List EncryptionTransportAuthority
  pathAuthority : List EncryptionPathAuthority
  stateDigest : Digest
  deriving DecidableEq, Repr

/-- Why a compilation fails. -/
inductive FastPathError where
  | invalidContext
  | invalidEpochSet
  | invalidContract
  | kernelAuthorityUnavailable
  | invalidDecision
  | requiredAuthorityUnavailable
  | capacity (kind : String) (actual limit : Nat)
  | transportIdCollision
  | routeMarkCollision
  | integrityMismatch
  deriving DecidableEq, Repr

/-- What a transport is shared by: everything that its tunnel consists of. -/
structure CoalescingKey where
  trustDomain : String
  localNodeUid : String
  destinationNodeUid : String
  keyEpoch : UInt64
  pathClass : EncryptionPathClass
  interfaceName : String
  interfaceIndex : UInt32
  routeTable : UInt32
  fwmark : Mark
  mtu : UInt32
  kernelConfigurationDigest : Digest
  readinessDigest : Digest
  contractRevision : Revision
  deriving DecidableEq, Repr

namespace CoalescingKey

/-- The fields in the order of their declaration; there is only one class of paths. -/
def sortKey (key : CoalescingKey) :=
  toLex (key.trustDomain, toLex (key.localNodeUid, toLex (key.destinationNodeUid,
    toLex (key.keyEpoch, toLex (key.interfaceName, toLex (key.interfaceIndex,
      toLex (key.routeTable, toLex (key.fwmark, toLex (key.mtu,
        toLex (key.kernelConfigurationDigest, toLex (key.readinessDigest,
          key.contractRevision)))))))))))

instance : LinearOrder CoalescingKey :=
  LinearOrder.lift' sortKey <| by
    rintro ⟨_, _, _, _, ⟨⟩, _⟩ ⟨_, _, _, _, ⟨⟩, _⟩ equal
    simpa [sortKey] using equal

end CoalescingKey

/-- What the digest of a bank covers. -/
structure FastPathDigestMaterial where
  generation : Revision
  policyRevision : Revision
  serviceRevision : Revision
  egressRevision : Revision
  bank : UInt8
  epochCount : Nat
  decisions : List FastPathDecisionAuthority
  transports : List EncryptionTransportAuthority
  paths : List EncryptionPathAuthority
  deriving DecidableEq, Repr

/-- The hash functions of the compiler. The id of a transport is the beginning of its hash. -/
structure FastPathDigests where
  transport : CoalescingKey → UInt64
  pathBinding : IpPrefix → UInt64 → Revision → UInt64 → Witness
  aggregateDecision : Revision → IdentityId → IdentityId → List Witness → Witness
  nativeDecision : Revision → IdentityId → IdentityId → Witness
  state : FastPathDigestMaterial → Digest

/-- All hash functions of the encryption domain. -/
structure EncryptionDigests where
  contracts : ContractDigests
  kernel : KernelDigests
  fastPath : FastPathDigests

/-! ## Admission of epochs -/

/-- The epoch of a contract is the one of its first plan. -/
def AttestedEncryptionPathContract.epoch (contract : AttestedEncryptionPathContract) : UInt64 :=
  (contract.plans.head?.map fun plan => plan.sourceKey.epoch).getD 0

/-- The epochs by their number. -/
abbrev AdmittedEpochs := ExtTreeMap UInt64 FastPathEpochAdmission

/-- The transports by their content, each with its id and its epoch. -/
abbrev TransportIndex := ExtTreeMap CoalescingKey (UInt64 × FastPathEpochAdmission)

section

variable (digests : EncryptionDigests) (bank : UInt8) (context : FastPathCompileContext)
  (epochs : List FastPathEpochAdmission) (admitted : AdmittedEpochs)
  (inputs : List FastPathDecisionInput) (transports : TransportIndex)
  (input : FastPathDecisionInput)

def validateContext : Except FastPathError Unit := do
  failIf (decide (encryptionBankCount ≤ context.bank) || context.generation == .initial ||
    context.policyRevision == .initial || context.serviceRevision == .initial ||
    context.egressRevision == .initial || context.nowUnixMs == 0 ||
    context.nowMonotonicNs == 0) .invalidContext
  failIf (decide (maxFastPathEpochs < epochs.length) ||
    (epochs.isEmpty && inputs.any fun input => input.disposition != .native) ||
    (!epochs.isEmpty && epochs.countP (fun epoch => epoch.state == .active) != 1))
    .invalidEpochSet
  failIf (decide (maxFastPathDecisions < inputs.length))
    (.capacity "decision" inputs.length maxFastPathDecisions)

def validateEpoch (epoch : FastPathEpochAdmission) : Except FastPathError Unit := do
  (epoch.contract.verifyIntegrity digests.contracts).mapError fun _ => .invalidContract
  (epoch.transaction.verify digests.kernel).mapError fun _ => .kernelAuthorityUnavailable
  (epoch.readback.verifyAgainst digests.kernel epoch.transaction.plan).mapError
    fun _ => .kernelAuthorityUnavailable
  failIf (epoch.transaction.phase != .committed ||
    epoch.transaction.readbackConfigurationDigest != some epoch.readback.configurationDigest ||
    epoch.readinessDigest == 0 || epoch.contract.plans.isEmpty ||
    decide (context.nowUnixMs < epoch.contract.validFromUnixMs) ||
    decide (epoch.contract.validUntilUnixMs < context.nowUnixMs) ||
    epoch.transaction.plan.clusterId != epoch.contract.localNode.clusterId ||
    epoch.transaction.plan.localNodeUid != epoch.contract.localNode.uid ||
    epoch.transaction.plan.epoch != epoch.contract.epoch ||
    (encryptionRouteMark epoch.transaction.plan.fwmark).isNone ||
    (epoch.state == .draining &&
      decide (epoch.drainUntilMonotonicNs ≤ context.nowMonotonicNs)) ||
    (epoch.state == .active && epoch.drainUntilMonotonicNs != 0)) .kernelAuthorityUnavailable

def admitEpochs : Except FastPathError AdmittedEpochs :=
  epochs.foldlM (fun admitted epoch => do
    validateEpoch digests context epoch
    failIf (admitted.contains epoch.contract.epoch) .invalidEpochSet
    pure (admitted.insert epoch.contract.epoch epoch)) ∅

/-! ## Transports -/

/-- The tunnel of a plan, as the kernel has it. -/
def transportKey (epoch : FastPathEpochAdmission) (planIndex : Nat) :
    Except FastPathError CoalescingKey := do
  let plan ← epoch.contract.plans[planIndex]?.elim (.error .requiredAuthorityUnavailable) .ok
  let kernel := epoch.transaction.plan
  let path := plan.transport.forward
  let peer ← (kernel.peers.find? fun peer => peer.nodeUid == plan.destination.node.uid).elim
    (.error .kernelAuthorityUnavailable) .ok
  failIf (path.sourceNodeUid != kernel.localNodeUid || path.destinationNodeUid != peer.nodeUid ||
    path.epoch != kernel.epoch || path.interfaceName != kernel.interfaceName ||
    path.routeTable != kernel.routeTable || path.fwmark != kernel.fwmark ||
    path.mtu != kernel.mtuEnvelope.interfaceMtu || path.peerEndpoint != peer.endpoint ||
    path.allowedIps != peer.allowedIps || plan.destinationKey.publicKey != peer.publicKey)
    .kernelAuthorityUnavailable
  pure
    { trustDomain := kernel.clusterId
      localNodeUid := kernel.localNodeUid
      destinationNodeUid := peer.nodeUid
      keyEpoch := kernel.epoch
      pathClass := path.pathClass
      interfaceName := kernel.interfaceName
      interfaceIndex := epoch.readback.interfaceIndex
      routeTable := kernel.routeTable
      fwmark := kernel.fwmark
      mtu := kernel.mtuEnvelope.interfaceMtu
      kernelConfigurationDigest := epoch.readback.configurationDigest
      readinessDigest := epoch.readinessDigest
      contractRevision := epoch.contract.contractRevision }

/-- Zero is no id. -/
def transportId (key : CoalescingKey) : UInt64 :=
  if digests.fastPath.transport key = 0 then 1 else digests.fastPath.transport key

def authorityFromKey (transportId : UInt64) (key : CoalescingKey)
    (epoch : FastPathEpochAdmission) : EncryptionTransportAuthority where
  transportId := transportId
  trustDomain := key.trustDomain
  localNodeUid := key.localNodeUid
  destinationNodeUid := key.destinationNodeUid
  keyEpoch := key.keyEpoch
  pathClass := key.pathClass
  interfaceName := key.interfaceName
  interfaceIndex := key.interfaceIndex
  routeTable := key.routeTable
  fwmark := key.fwmark
  mtu := key.mtu
  kernelConfigurationDigest := key.kernelConfigurationDigest
  readinessDigest := key.readinessDigest
  contractRevision := key.contractRevision
  state := epoch.state
  drainUntilMonotonicNs := epoch.drainUntilMonotonicNs

/-- The content of a transport. -/
def EncryptionTransportAuthority.key (transport : EncryptionTransportAuthority) :
    CoalescingKey where
  trustDomain := transport.trustDomain
  localNodeUid := transport.localNodeUid
  destinationNodeUid := transport.destinationNodeUid
  keyEpoch := transport.keyEpoch
  pathClass := transport.pathClass
  interfaceName := transport.interfaceName
  interfaceIndex := transport.interfaceIndex
  routeTable := transport.routeTable
  fwmark := transport.fwmark
  mtu := transport.mtu
  kernelConfigurationDigest := transport.kernelConfigurationDigest
  readinessDigest := transport.readinessDigest
  contractRevision := transport.contractRevision

/-! ## Decisions -/

def nativeDecision : Except FastPathError FastPathDecisionAuthority := do
  failIf (input.contractEpoch.isSome || input.planIndex.isSome) .invalidDecision
  pure
    { sourceIdentity := input.sourceIdentity
      destinationIdentity := input.destinationIdentity
      disposition := input.disposition
      transportId := none
      contractRevision := none
      keyEpoch := none
      decisionWitness := digests.fastPath.nativeDecision context.generation input.sourceIdentity
        input.destinationIdentity }

/-- A required input with the plan it names and the transport of that plan. -/
structure RequiredBinding where
  key : CoalescingKey
  transportId : UInt64
  epoch : FastPathEpochAdmission
  plan : AttestedEncryptionPathPlan
  decisionWitness : Witness
  deriving DecidableEq

/-- The exact plan of an input, which has to be of the active epoch and of the input's own
pair. -/
def requiredBinding : Except FastPathError RequiredBinding := do
  let epochNumber ← input.contractEpoch.elim (.error .requiredAuthorityUnavailable) .ok
  let epoch ← admitted[epochNumber]?.elim (.error .requiredAuthorityUnavailable) .ok
  let planIndex ← input.planIndex.elim (.error .requiredAuthorityUnavailable) .ok
  let plan ← epoch.contract.plans[planIndex]?.elim (.error .requiredAuthorityUnavailable) .ok
  failIf (epoch.state != .active || plan.source.identity != input.sourceIdentity ||
    plan.destination.identity != input.destinationIdentity ||
    plan.policy.revision != context.policyRevision || plan.disposition != .required)
    .requiredAuthorityUnavailable
  let key ← transportKey epoch planIndex
  let decisionWitness ← (epoch.contract.decisionWitness digests.contracts planIndex).mapError
    fun _ => .invalidContract
  pure
    { key
      transportId := transportId digests key
      epoch
      plan
      decisionWitness }

/-- The decision of a pair with one plan. -/
def RequiredBinding.decision (binding : RequiredBinding) (input : FastPathDecisionInput) :
    FastPathDecisionAuthority where
  sourceIdentity := input.sourceIdentity
  destinationIdentity := input.destinationIdentity
  disposition := input.disposition
  transportId := some binding.transportId
  contractRevision := some binding.epoch.contract.contractRevision
  keyEpoch := input.contractEpoch
  decisionWitness := binding.decisionWitness

/-- The transport of an input is entered under its content, which no other id may have. -/
def requiredDecision : Except FastPathError (RequiredBinding × TransportIndex) := do
  let binding ← requiredBinding digests context admitted input
  failIf (transports[binding.key]?.any fun existing => existing.1 != binding.transportId)
    .transportIdCollision
  pure (binding, transports.insert binding.key (binding.transportId, binding.epoch))

/-- The paths by their prefix. -/
abbrev PathIndex := ExtTreeMap IpPrefix EncryptionPathAuthority

def pathAuthority (transportId : UInt64) (contractRevision : Revision) (keyEpoch : UInt64)
    (ipPrefix : IpPrefix) : EncryptionPathAuthority where
  ipPrefix := ipPrefix
  transportId := transportId
  contractRevision := contractRevision
  keyEpoch := keyEpoch
  bindingWitness := digests.fastPath.pathBinding ipPrefix transportId contractRevision keyEpoch

def insertPathBinding (paths : PathIndex) (candidate : EncryptionPathAuthority) :
    Except FastPathError PathIndex := do
  failIf (paths[candidate.ipPrefix]?.any fun existing => existing != candidate)
    .requiredAuthorityUnavailable
  pure (paths.insert candidate.ipPrefix candidate)

/-- One more input of a pair with several plans. No plan is named twice. -/
def bindInput (bound : List (FastPathDecisionInput × RequiredBinding) × TransportIndex)
    (input : FastPathDecisionInput) :
    Except FastPathError (List (FastPathDecisionInput × RequiredBinding) × TransportIndex) := do
  failIf (bound.1.any fun earlier => earlier.1.contractEpoch == input.contractEpoch &&
    earlier.1.planIndex == input.planIndex) .invalidDecision
  let (binding, transports) ← requiredDecision digests context admitted bound.2 input
  pure (bound.1 ++ [(input, binding)], transports)

/-- A pair with several plans. Its decision names no transport; the prefixes of its plans go
into the table of paths. -/
def compileReplicatedDecision (source destination : IdentityId) (group : List FastPathDecisionInput)
    (transports : TransportIndex) (paths : PathIndex) :
    Except FastPathError (FastPathDecisionAuthority × TransportIndex × PathIndex) := do
  failIf (group.any fun input => input.disposition != .required) .invalidDecision
  let bound ← group.foldlM (bindInput digests context admitted) ([], transports)
  let first ← bound.1.head?.elim (.error .requiredAuthorityUnavailable) .ok
  let contractRevision := first.2.epoch.contract.contractRevision
  let keyEpoch ← first.1.contractEpoch.elim (.error .requiredAuthorityUnavailable) .ok
  failIf (bound.1.any fun bound => bound.2.epoch.contract.contractRevision != contractRevision ||
    bound.1.contractEpoch != some keyEpoch) .requiredAuthorityUnavailable
  let paths ← bound.1.foldlM (fun paths bound =>
    (bound.2.plan.transport.forward.allowedIps.map
      (pathAuthority digests bound.2.transportId contractRevision keyEpoch)).foldlM
        insertPathBinding paths) paths
  pure (
    { sourceIdentity := source
      destinationIdentity := destination
      disposition := .required
      transportId := none
      contractRevision := some contractRevision
      keyEpoch := some keyEpoch
      decisionWitness := digests.fastPath.aggregateDecision context.generation source destination
        (sort (bound.1.map fun bound => bound.2.decisionWitness)) },
    bound.2, paths)

/-- The decisions and tables that have been compiled so far. -/
structure CompiledDecisions where
  decisions : List FastPathDecisionAuthority
  transports : TransportIndex
  paths : PathIndex

def compileGroup (compiled : CompiledDecisions)
    (group : (IdentityId ×ₗ IdentityId) × List FastPathDecisionInput) :
    Except FastPathError CompiledDecisions :=
  match group.2 with
  | [input] =>
    match input.disposition with
    | .native => do
        let decision ← nativeDecision digests context input
        pure { compiled with decisions := compiled.decisions ++ [decision] }
    | .required => do
        let (binding, transports) ← requiredDecision digests context admitted
          compiled.transports input
        pure
          { compiled with
            decisions := compiled.decisions ++ [binding.decision input]
            transports }
  | inputs => do
      let (decision, transports, paths) ← compileReplicatedDecision digests context admitted
        (ofLex group.1).1 (ofLex group.1).2 inputs compiled.transports compiled.paths
      pure ⟨compiled.decisions ++ [decision], transports, paths⟩

/-- The pair of an input. -/
def FastPathDecisionInput.pair : IdentityId ×ₗ IdentityId :=
  toLex (input.sourceIdentity, input.destinationIdentity)

/-- The inputs of each pair. -/
def groupInputs : ExtTreeMap (IdentityId ×ₗ IdentityId) (List FastPathDecisionInput) :=
  groupEntries (inputs.map fun input => (input.pair, input))

def compileDecisions : Except FastPathError CompiledDecisions := do
  failIf (inputs.any fun input => input.sourceIdentity.get == 0 ||
    input.destinationIdentity.get == 0) .invalidDecision
  let compiled ← (groupInputs inputs).toList.foldlM (compileGroup digests context admitted)
    ⟨[], ∅, ∅⟩
  failIf (decide (maxFastPathPaths < compiled.paths.size))
    (.capacity "path" compiled.paths.size maxFastPathPaths)
  pure compiled

/-- The transport of a plan, unless there is one with its content. -/
def keepTransport (epoch : FastPathEpochAdmission) (transports : TransportIndex) (planIndex : Nat) :
    Except FastPathError TransportIndex := do
  let key ← transportKey epoch planIndex
  pure (if transports.contains key then transports
    else transports.insert key (transportId digests key, epoch))

/-- Every plan of a draining epoch keeps its transport, for the flows that hold it. -/
def addDrainingTransports : Except FastPathError TransportIndex := do
  let transports ← (epochs.filter fun epoch => epoch.state == .draining).foldlM
    (fun transports epoch => (List.range epoch.contract.plans.length).foldlM
      (keepTransport digests epoch) transports) transports
  failIf (decide (maxFastPathTransports < transports.size))
    (.capacity "transport" transports.size maxFastPathTransports)
  pure transports

def materializeTransports : Except FastPathError (List EncryptionTransportAuthority) := do
  let authority ← transports.toList.foldlM (fun authority entry => do
    let candidate := authorityFromKey entry.2.1 entry.1 entry.2.2
    failIf (authority.any fun existing : EncryptionTransportAuthority =>
      existing.transportId == candidate.transportId && existing != candidate)
      .transportIdCollision
    pure (authority ++ [candidate])) []
  pure (sortByKey EncryptionTransportAuthority.transportId authority)

/-! ## Records -/

/-- The number of entries of a kind, as the configuration record holds it. -/
def countEntries (kind : String) (actual limit : Nat) : Except FastPathError UInt32 := do
  failIf (decide (2 ^ 32 ≤ actual)) (.capacity kind actual limit)
  pure (UInt32.ofNat actual)

def mapConfig (epochCount : Nat) (decisions : List FastPathDecisionAuthority)
    (transports : List EncryptionTransportAuthority) (paths : List EncryptionPathAuthority) :
    Except FastPathError EncryptionMapConfig := do
  let decisionCount ← countEntries "decision" decisions.length maxFastPathDecisions
  let transportCount ← countEntries "transport" transports.length maxFastPathTransports
  failIf (decide (2 ^ 8 ≤ epochCount)) .invalidEpochSet
  let pathCount ← countEntries "path" paths.length maxFastPathPaths
  pure
    { generation := context.generation.get
      policyRevision := context.policyRevision.get
      serviceRevision := context.serviceRevision.get
      egressRevision := context.egressRevision.get
      decisionCount
      transportCount
      schemaVersion := encryptionMapAbiVersion
      activeBank := context.bank
      epochCount := UInt8.ofNat epochCount
      pathCount }

def lowerDecision (entry : FastPathDecisionAuthority) :
    EncryptionDecisionKey × EncryptionDecisionValue :=
  (⟨entry.sourceIdentity, entry.destinationIdentity, context.bank⟩,
    { transportId := entry.transportId.getD 0
      contractRevision := (entry.contractRevision.map Revision.get).getD 0
      policyRevision := context.policyRevision.get
      serviceRevision := context.serviceRevision.get
      egressRevision := context.egressRevision.get
      keyEpoch := entry.keyEpoch.getD 0
      decisionWitness := entry.decisionWitness
      schemaVersion := encryptionMapAbiVersion
      disposition := match entry.disposition with
        | .required => encryptionDispositionRequired
        | .native => encryptionDispositionNative
      flags := encryptionDecisionBaseFlags |||
        if entry.disposition = .required ∧ entry.transportId = none then
          encryptionDecisionFlagAddressBound
        else
          0 })

def lowerDecisions (authority : List FastPathDecisionAuthority) :
    List (EncryptionDecisionKey × EncryptionDecisionValue) :=
  authority.map (lowerDecision context)

def lowerTransport (entry : EncryptionTransportAuthority) :
    EncryptionTransportKey × EncryptionTransportValue :=
  (⟨entry.transportId, bank⟩,
    { keyEpoch := entry.keyEpoch
      contractRevision := entry.contractRevision.get
      drainUntilMonotonicNs := entry.drainUntilMonotonicNs
      fwmark := entry.fwmark
      routeTable := entry.routeTable
      interfaceIndex := entry.interfaceIndex
      mtu := entry.mtu
      kernelConfigurationDigest := entry.kernelConfigurationDigest.leading
      readinessDigest := entry.readinessDigest.leading
      schemaVersion := encryptionMapAbiVersion
      state := match entry.state with
        | .active => encryptionTransportActive
        | .draining => encryptionTransportDraining
      flags := encryptionTransportFlagKernelReadback })

def lowerTransports (authority : List EncryptionTransportAuthority) :
    List (EncryptionTransportKey × EncryptionTransportValue) :=
  authority.map (lowerTransport bank)

def lowerPathValue (entry : EncryptionPathAuthority) : EncryptionPathValue where
  transportId := entry.transportId
  contractRevision := entry.contractRevision.get
  keyEpoch := entry.keyEpoch
  bindingWitness := entry.bindingWitness
  schemaVersion := encryptionMapAbiVersion
  flags := 0
  reserved := 0

def lowerIpv4Path (entry : EncryptionPathAuthority) : Option (LoweredPath 32) :=
  match entry.ipPrefix.address with
  | .v4 address => some ⟨entry.ipPrefix.prefixLen.toUInt32, bank, address, lowerPathValue entry⟩
  | .v6 _ => none

def lowerIpv6Path (entry : EncryptionPathAuthority) : Option (LoweredPath 128) :=
  match entry.ipPrefix.address with
  | .v4 _ => none
  | .v6 address => some ⟨entry.ipPrefix.prefixLen.toUInt32, bank, address, lowerPathValue entry⟩

def lowerIpv4Paths (authority : List EncryptionPathAuthority) : List (LoweredPath 32) :=
  authority.filterMap (lowerIpv4Path bank)

def lowerIpv6Paths (authority : List EncryptionPathAuthority) : List (LoweredPath 128) :=
  authority.filterMap (lowerIpv6Path bank)

def stateDigest (epochCount : Nat) (decisions : List FastPathDecisionAuthority)
    (transports : List EncryptionTransportAuthority) (paths : List EncryptionPathAuthority) :
    Digest :=
  digests.fastPath.state
    { generation := context.generation
      policyRevision := context.policyRevision
      serviceRevision := context.serviceRevision
      egressRevision := context.egressRevision
      bank := context.bank
      epochCount
      decisions
      transports
      paths }

/-! ## Integrity -/

/-- Every id is derived from the content of its transport, and no id occurs twice. -/
def transportIdsAreValid (transports : List EncryptionTransportAuthority) : Bool :=
  (transports.all fun transport => transportId digests transport.key == transport.transportId) &&
    decide (transports.map EncryptionTransportAuthority.transportId).Nodup

/-- No selector leads into two route tables. -/
def routeMarksAreUnambiguous (transports : List EncryptionTransportAuthority) : Bool :=
  (transports.all fun transport => (encryptionRouteMark transport.fwmark).isSome) &&
    decide (transports.Pairwise fun earlier later =>
      encryptionRouteMark earlier.fwmark = encryptionRouteMark later.fwmark →
        earlier.routeTable = later.routeTable)

/-- The prefixes are disjoint, and each of them is bound to an active transport. -/
def pathsAreValid (paths : List EncryptionPathAuthority)
    (transports : List EncryptionTransportAuthority) : Bool :=
  (paths.all fun path => path.ipPrefix.isCanonical &&
    path.bindingWitness == digests.fastPath.pathBinding path.ipPrefix path.transportId
      path.contractRevision path.keyEpoch &&
    transports.any fun transport => transport.transportId == path.transportId &&
      transport.contractRevision == path.contractRevision &&
      transport.keyEpoch == path.keyEpoch && transport.state == .active) &&
    decide (paths.Pairwise fun earlier later =>
      earlier.ipPrefix ≠ later.ipPrefix ∧ overlapping earlier.ipPrefix later.ipPrefix = false)

end

namespace EncryptionFastPathState

/-- The context that the records were made in, as far as they tell. -/
def context (state : EncryptionFastPathState) : FastPathCompileContext where
  generation := ⟨state.config.generation⟩
  policyRevision := ⟨state.config.policyRevision⟩
  serviceRevision := ⟨state.config.serviceRevision⟩
  egressRevision := ⟨state.config.egressRevision⟩
  bank := state.config.activeBank
  nowUnixMs := 1
  nowMonotonicNs := 1

def verifyIntegrity (digests : EncryptionDigests) (state : EncryptionFastPathState) :
    Except FastPathError Unit := do
  failIf (state.config.schemaVersion != encryptionMapAbiVersion ||
    decide (encryptionBankCount ≤ state.config.activeBank) || state.config.generation == 0 ||
    state.config.policyRevision == 0 || state.config.serviceRevision == 0 ||
    state.config.egressRevision == 0 ||
    decide (maxFastPathEpochs < state.config.epochCount.toNat) ||
    (state.config.epochCount == 0 &&
      ((state.decisionAuthority.any fun decision => decision.disposition != .native) ||
        !state.transportAuthority.isEmpty || !state.pathAuthority.isEmpty)))
    .integrityMismatch
  let expectedConfig ← mapConfig state.context state.config.epochCount.toNat
    state.decisionAuthority state.transportAuthority state.pathAuthority
  failIf (state.config != expectedConfig ||
    state.decisions != lowerDecisions state.context state.decisionAuthority ||
    state.transports != lowerTransports state.config.activeBank state.transportAuthority ||
    state.ipv4Paths != lowerIpv4Paths state.config.activeBank state.pathAuthority ||
    state.ipv6Paths != lowerIpv6Paths state.config.activeBank state.pathAuthority ||
    state.stateDigest != Encryption.stateDigest digests state.context
      state.config.epochCount.toNat state.decisionAuthority state.transportAuthority
      state.pathAuthority ||
    !transportIdsAreValid digests state.transportAuthority ||
    !routeMarksAreUnambiguous state.transportAuthority ||
    !pathsAreValid digests state.pathAuthority state.transportAuthority) .integrityMismatch

end EncryptionFastPathState

/-! ## The compiler -/

/-- The order in which decisions are listed. -/
def FastPathDecisionAuthority.pair (decision : FastPathDecisionAuthority) :
    IdentityId ×ₗ IdentityId :=
  toLex (decision.sourceIdentity, decision.destinationIdentity)

def compileEncryptionFastPath (digests : EncryptionDigests) (context : FastPathCompileContext)
    (epochs : List FastPathEpochAdmission) (inputs : List FastPathDecisionInput) :
    Except FastPathError EncryptionFastPathState := do
  validateContext context epochs inputs
  let admitted ← admitEpochs digests context epochs
  let compiled ← compileDecisions digests context admitted inputs
  let transports ← addDrainingTransports digests epochs compiled.transports
  let decisionAuthority := sortByKey FastPathDecisionAuthority.pair compiled.decisions
  let transportAuthority ← materializeTransports transports
  failIf (!routeMarksAreUnambiguous transportAuthority) .routeMarkCollision
  let pathAuthority := tableValues compiled.paths
  let config ← mapConfig context epochs.length decisionAuthority transportAuthority pathAuthority
  let state : EncryptionFastPathState :=
    { config
      decisions := lowerDecisions context decisionAuthority
      transports := lowerTransports context.bank transportAuthority
      ipv4Paths := lowerIpv4Paths context.bank pathAuthority
      ipv6Paths := lowerIpv6Paths context.bank pathAuthority
      decisionAuthority
      transportAuthority
      pathAuthority
      stateDigest := stateDigest digests context epochs.length decisionAuthority
        transportAuthority pathAuthority }
  state.verifyIntegrity digests
  pure state

end Unf.Encryption
