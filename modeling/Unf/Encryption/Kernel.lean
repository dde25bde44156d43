import Unf.Encryption.Types

/-!
# Kernel plans, readbacks and transactions

The tunnel that a node is to configure for one key epoch, what it reads back from the kernel,
and the transaction that is committed only by an exact readback.
-/

namespace Unf.Encryption

open Std (ExtTreeSet)
open Unf.Lib Unf.Egress
open Unf.Service (Revision)

/-- The schema of plans. -/
def wireguardKernelProviderSchemaVersion : UInt16 := 3

/-- The schema of readbacks. -/
def wireguardKernelSnapshotSchemaVersion : UInt16 := 3

/-- The schema of transactions. -/
def proofCarryingKernelTransactionSchemaVersion : UInt16 := 1

/-- The most peers of one tunnel. -/
def maxWireguardPeers : Nat := 4096

/-- The most prefixes of one tunnel. -/
def maxWireguardAllowedIps : Nat := 65536

/-- The most observations of one envelope. -/
def maxUnderlayMtuObservations : Nat := 65536

/-- The most blocks of one node. -/
def maxEncryptionPrefixesPerNode : Nat := 256

/-- What the tunnel adds to a packet over IPv4. -/
def wireguardIpv4Overhead : UInt32 := 60

/-- What the tunnel adds to a packet over IPv6. -/
def wireguardIpv6Overhead : UInt32 := 80

/-- The smallest packet size of a tunnel. -/
def minWireguardMtu : UInt32 := 1280

/-- The largest packet size of a tunnel. -/
def maxWireguardMtu : UInt32 := 9216

/-- The protocol number that marks the routes of the agent. -/
def unfWireguardRouteProtocol : UInt8 := 0x55

/-- The longest alias of a link. -/
def maxWireguardOwnerAliasBytes : Nat := 255

/-- Why a plan, a readback or a transaction is rejected. -/
inductive WireGuardKernelError where
  | invalidMtuEnvelope
  | unsupportedProviderSchema (actual : UInt16)
  | invalidPlan
  | capacityExceeded
  | ambiguousAllowedIp
  | planDigestMismatch
  | readbackMismatch
  | invalidTransaction
  deriving DecidableEq, Repr

/-- Texts of the kernel provider, which may have white space at their ends. -/
def validateKernelText (value : String) : Bool :=
  !value.isEmpty && decide (value.utf8ByteSize ≤ 253) && !value.toList.any isControl

/-- A link name with the prefix of the agent. -/
def validKernelInterfaceName (value : String) : Bool :=
  !value.isEmpty && decide (value.utf8ByteSize ≤ maxWireguardInterfaceNameBytes) &&
    "unfwg".toList.isPrefixOf value.toList &&
    value.toList.all fun character => isAsciiAlphanumeric character || character == '-'

/-- An address and a port that packets can be sent to. -/
def validEndpoint (value : SocketAddr) : Bool :=
  value.port != 0 && !value.ip.isUnspecified && !value.ip.isMulticast && !value.ip.isBroadcast

/-! ## Size of packets -/

/-- The packet size of the path to one peer. -/
structure UnderlayMtuObservation where
  peerNodeUid : String
  family : AddressFamily
  underlayMtu : UInt32
  deriving DecidableEq, Repr

/-- The packet size of a tunnel, and the path that limits it. -/
structure WireGuardMtuEnvelope where
  interfaceMtu : UInt32
  limitingPeerNodeUid : String
  limitingFamily : AddressFamily
  limitingUnderlayMtu : UInt32
  encapsulationOverhead : UInt32
  observations : List UnderlayMtuObservation
  deriving DecidableEq, Repr

/-- What the tunnel adds to a packet. -/
def wireguardOverhead : AddressFamily → UInt32
  | .ipv4 => wireguardIpv4Overhead
  | .ipv6 => wireguardIpv6Overhead

namespace WireGuardMtuEnvelope

/-- What is left of an underlay for a packet, with the observation it comes from. -/
def usable (observation : UnderlayMtuObservation) :
    Except WireGuardKernelError (UInt32 × UnderlayMtuObservation) :=
  let overhead := wireguardOverhead observation.family
  if observation.underlayMtu < overhead then .error .invalidMtuEnvelope
  else .ok (observation.underlayMtu - overhead, observation)

/-- The largest size that every underlay carries. -/
def derive (observations : List UnderlayMtuObservation) :
    Except WireGuardKernelError WireGuardMtuEnvelope := do
  failIf (observations.isEmpty || decide (observations.length > maxUnderlayMtuObservations))
    .invalidMtuEnvelope
  let canonical := sortByKey (fun observation => toLex (observation.peerNodeUid,
    toLex (observation.family, observation.underlayMtu))) observations
  failIf (anyAdjacent (fun left right => left.peerNodeUid == right.peerNodeUid &&
      left.family == right.family) canonical ||
    canonical.any fun observation => !validateKernelText observation.peerNodeUid)
    .invalidMtuEnvelope
  let candidates ← canonical.mapM usable
  let limiting ← (runningMin (fun candidate => toLex (candidate.1,
      toLex (candidate.2.peerNodeUid, candidate.2.family))) candidates).elim
    (.error .invalidMtuEnvelope) .ok
  failIf (decide (limiting.1 < minWireguardMtu) || decide (maxWireguardMtu < limiting.1))
    .invalidMtuEnvelope
  pure
    { interfaceMtu := limiting.1
      limitingPeerNodeUid := limiting.2.peerNodeUid
      limitingFamily := limiting.2.family
      limitingUnderlayMtu := limiting.2.underlayMtu
      encapsulationOverhead := wireguardOverhead limiting.2.family
      observations := canonical }

/-- The envelope is derived again. -/
def verify (envelope : WireGuardMtuEnvelope) : Except WireGuardKernelError Unit := do
  let derived ← derive envelope.observations
  failIf (derived != envelope) .invalidMtuEnvelope

end WireGuardMtuEnvelope

/-! ## Plans -/

/-- Whether traffic goes through the tunnel of an epoch. -/
inductive WireGuardEpochActivation where
  | inactiveStaged
  | active
  deriving DecidableEq, Repr

/-- The configuration of one peer. -/
structure WireGuardPeerPlan where
  nodeUid : String
  publicKey : WireGuardPublicKey
  endpoint : SocketAddr
  persistentKeepaliveSeconds : UInt16
  allowedIps : List IpPrefix
  deriving DecidableEq, Repr

/-- The configuration of a tunnel. -/
structure WireGuardKernelPlan where
  schemaVersion : UInt16
  clusterId : String
  localNodeUid : String
  epoch : UInt64
  revision : Revision
  interfaceName : String
  ownerAlias : String
  localPublicKey : WireGuardPublicKey
  listenPort : UInt16
  fwmark : Mark
  routeTable : UInt32
  mtuEnvelope : WireGuardMtuEnvelope
  localPodCidrs : List IpPrefix
  proofAddresses : List IpPrefix
  activation : WireGuardEpochActivation
  peers : List WireGuardPeerPlan
  planDigest : Digest
  deriving DecidableEq, Repr

/-- The reserved host address of a node block: the one before the last of an IPv4 block, and
the network itself of an IPv6 block. -/
def proofBeacon (block : IpPrefix) : Except WireGuardKernelError IpPrefix :=
  match block.address with
  | .v4 network =>
    if 30 < block.prefixLen ∨ ¬(Cidr.mk network block.prefixLen.toNat).Canonical then
      .error .invalidPlan
    else
      .ok ⟨.v4 ((network ||| ~~~Cidr.mask 32 block.prefixLen.toNat) - 1), 32⟩
  | .v6 network =>
    if 126 < block.prefixLen ∨ ¬(Cidr.mk network block.prefixLen.toNat).Canonical then
      .error .invalidPlan
    else
      .ok ⟨.v6 network, 128⟩

/-- The reserved addresses of all blocks of a node. -/
def deriveWireguardProofAddresses (podCidrs : List IpPrefix) :
    Except WireGuardKernelError (List IpPrefix) := do
  failIf (podCidrs.isEmpty || decide (podCidrs.length > maxEncryptionPrefixesPerNode))
    .invalidPlan
  let blocks := sort podCidrs
  failIf (blocks.any (fun block => !block.isCanonical) || anyAdjacent overlapping blocks)
    .invalidPlan
  let addresses ← blocks.mapM proofBeacon
  failIf (hasAdjacentRepeat (sort addresses)) .invalidPlan
  pure (sort addresses)

/-- A prefix that is a single address. -/
def IpPrefix.isHostRoute (range : IpPrefix) : Bool :=
  range.isCanonical && match range.address with
    | .v4 _ => range.prefixLen == 32
    | .v6 _ => range.prefixLen == 128

namespace WireGuardKernelPlan

/-- The alias by which the agent knows its links. -/
def ownerAliasFor (clusterId localNodeUid : String) (epoch : UInt64) : String :=
  "unf:encryption:v2:" ++ clusterId ++ ":" ++ localNodeUid ++ ":" ++ toString epoch.toNat

/-- What the loop over the peers remembers. -/
structure PeerScan where
  uids : ExtTreeSet String
  keys : ExtTreeSet WireGuardPublicKey
  prior : Option (String × WireGuardPublicKey)
  prefixes : List IpPrefix

/-- One peer is checked against the plan and the peers before it. -/
def scanPeer (plan : WireGuardKernelPlan) (scan : PeerScan) (peer : WireGuardPeerPlan) :
    Except WireGuardKernelError PeerScan := do
  failIf (!validateKernelText peer.nodeUid || peer.nodeUid == plan.localNodeUid ||
    peer.publicKey == 0 || peer.publicKey == plan.localPublicKey ||
    !validEndpoint peer.endpoint || decide (600 < peer.persistentKeepaliveSeconds) ||
    peer.allowedIps.isEmpty || scan.uids.contains peer.nodeUid ||
    scan.keys.contains peer.publicKey ||
    (scan.prior.any fun previous => decide (toLex (peer.nodeUid, peer.publicKey) ≤
      toLex previous)) || !strictlyAscending peer.allowedIps) .invalidPlan
  failIf (!plan.mtuEnvelope.observations.any fun observation =>
    observation.peerNodeUid == peer.nodeUid && observation.family == peer.endpoint.ip.family)
    .invalidMtuEnvelope
  let prefixes ← peer.allowedIps.foldlM (fun prefixes range => do
    failIf (!range.isCanonical) .invalidPlan
    failIf (decide (maxWireguardAllowedIps < prefixes.length + 1)) .capacityExceeded
    pure (prefixes ++ [range])) scan.prefixes
  pure
    { uids := scan.uids.insert peer.nodeUid
      keys := scan.keys.insert peer.publicKey
      prior := some (peer.nodeUid, peer.publicKey)
      prefixes }

/-- Everything about a plan but its digest. -/
def validateShape (plan : WireGuardKernelPlan) : Except WireGuardKernelError Unit := do
  plan.mtuEnvelope.verify
  failIf (plan.schemaVersion != wireguardKernelProviderSchemaVersion)
    (.unsupportedProviderSchema plan.schemaVersion)
  failIf (!validateKernelText plan.clusterId || !validateKernelText plan.localNodeUid ||
    plan.epoch == 0 || plan.revision == .initial || !validKernelInterfaceName plan.interfaceName ||
    plan.ownerAlias != ownerAliasFor plan.clusterId plan.localNodeUid plan.epoch ||
    decide (maxWireguardOwnerAliasBytes < plan.ownerAlias.utf8ByteSize) ||
    plan.localPublicKey == 0 || plan.listenPort == 0 || plan.fwmark == 0 || plan.routeTable == 0 ||
    (deriveWireguardProofAddresses plan.localPodCidrs).toOption != some plan.proofAddresses ||
    plan.proofAddresses.isEmpty ||
    decide (maxEncryptionPrefixesPerNode < plan.proofAddresses.length) ||
    !strictlyAscending plan.proofAddresses ||
    (plan.proofAddresses.any fun range => !IpPrefix.isHostRoute range) ||
    plan.peers.isEmpty || decide (maxWireguardPeers < plan.peers.length)) .invalidPlan
  let scan ← plan.peers.foldlM plan.scanPeer ⟨∅, ∅, none, []⟩
  failIf (decide (ExtTreeSet.ofList (plan.mtuEnvelope.observations.map
    UnderlayMtuObservation.peerNodeUid) ≠ scan.uids)) .invalidMtuEnvelope
  failIf (anyAdjacent overlapping (sort scan.prefixes)) .ambiguousAllowedIp

/-- The prefixes that are routed into the tunnel. -/
def routePrefixes (plan : WireGuardKernelPlan) : ExtTreeSet IpPrefix :=
  ExtTreeSet.ofList (plan.peers.flatMap WireGuardPeerPlan.allowedIps)

end WireGuardKernelPlan

/-! ## Readbacks -/

/-- A peer as the kernel reports it. -/
structure WireGuardPeerReadback where
  publicKey : WireGuardPublicKey
  endpoint : SocketAddr
  persistentKeepaliveSeconds : UInt16
  allowedIps : List IpPrefix
  lastHandshakeUnixSeconds : Int
  receivedBytes : UInt64
  transmittedBytes : UInt64
  deriving DecidableEq, Repr

/-- The scope of a route. -/
inductive WireGuardRouteScope where
  | link
  | «universe»
  deriving DecidableEq, Repr

/-- The scope that the kernel gives to a route. -/
def WireGuardRouteScope.forPrefix (range : IpPrefix) : WireGuardRouteScope :=
  match range.address with
  | .v4 _ => link
  | .v6 _ => «universe»

/-- A route as the kernel reports it. -/
structure WireGuardRouteReadback where
  ipPrefix : IpPrefix
  interfaceIndex : UInt32
  table : UInt32
  protocol : UInt8
  scope : WireGuardRouteScope
  deriving DecidableEq, Repr

/-- A tunnel as the kernel reports it. -/
structure WireGuardKernelSnapshot where
  schemaVersion : UInt16
  interfaceName : String
  interfaceIndex : UInt32
  ownerAlias : String
  isUp : Bool
  mtu : UInt32
  publicKey : WireGuardPublicKey
  listenPort : UInt16
  fwmark : Mark
  proofAddresses : List IpPrefix
  peers : List WireGuardPeerReadback
  routes : List WireGuardRouteReadback
  configurationDigest : Digest
  observationDigest : Digest
  deriving DecidableEq, Repr

/-! ## Transactions -/

/-- How far a transaction has come. -/
inductive KernelTransactionPhase where
  | prepared
  | committed
  | rolledBack
  deriving DecidableEq, Repr

/-- A change of the kernel, with what it was read back as. -/
structure ProofCarryingKernelTransaction where
  schemaVersion : UInt16
  transactionRevision : Revision
  plan : WireGuardKernelPlan
  beforeConfigurationDigest : Option Digest
  phase : KernelTransactionPhase
  readbackConfigurationDigest : Option Digest
  transactionDigest : Digest
  deriving DecidableEq, Repr

/-- The configuration of a peer, without its counters. -/
structure PeerConfiguration where
  publicKey : WireGuardPublicKey
  endpoint : SocketAddr
  persistentKeepaliveSeconds : UInt16
  allowedIps : List IpPrefix
  deriving DecidableEq, Repr

/-- The counters of a peer. -/
structure PeerCounters where
  publicKey : WireGuardPublicKey
  lastHandshakeUnixSeconds : Int
  receivedBytes : UInt64
  transmittedBytes : UInt64
  deriving DecidableEq, Repr

/-- What the stable digest of a readback covers: everything but the counters. -/
structure KernelConfiguration where
  schemaVersion : UInt16
  interfaceName : String
  interfaceIndex : UInt32
  ownerAlias : String
  isUp : Bool
  mtu : UInt32
  publicKey : WireGuardPublicKey
  listenPort : UInt16
  fwmark : Mark
  proofAddresses : List IpPrefix
  peers : List PeerConfiguration
  routes : List WireGuardRouteReadback
  deriving DecidableEq, Repr

/-- The hash functions of the kernel provider. Plans and transactions are hashed without the
digests that they carry. -/
structure KernelDigests where
  plan : WireGuardKernelPlan → Digest
  configuration : KernelConfiguration → Digest
  observation : Digest → List PeerCounters → Digest
  transaction : ProofCarryingKernelTransaction → Digest

variable (digests : KernelDigests) (snapshot : WireGuardKernelSnapshot) (plan : WireGuardKernelPlan)

namespace WireGuardKernelPlan

/-- The digest of a plan. -/
def calculateDigest : Digest :=
  digests.plan { plan with planDigest := 0 }

/-- The shape and the digest of a plan. -/
def verify : Except WireGuardKernelError Unit := do
  plan.validateShape
  failIf (plan.planDigest != plan.calculateDigest digests) .planDigestMismatch

end WireGuardKernelPlan

/-- What the kernel is to report of a peer. -/
def WireGuardPeerPlan.configuration (peer : WireGuardPeerPlan) : PeerConfiguration :=
  ⟨peer.publicKey, peer.endpoint, peer.persistentKeepaliveSeconds, peer.allowedIps⟩

/-- A reported peer without its counters. -/
def WireGuardPeerReadback.configuration (peer : WireGuardPeerReadback) : PeerConfiguration :=
  ⟨peer.publicKey, peer.endpoint, peer.persistentKeepaliveSeconds, peer.allowedIps⟩

/-- The counters of a reported peer. -/
def WireGuardPeerReadback.counters (peer : WireGuardPeerReadback) : PeerCounters :=
  ⟨peer.publicKey, peer.lastHandshakeUnixSeconds, peer.receivedBytes, peer.transmittedBytes⟩

namespace WireGuardKernelSnapshot

/-- A readback without its counters. -/
def configuration : KernelConfiguration where
  schemaVersion := snapshot.schemaVersion
  interfaceName := snapshot.interfaceName
  interfaceIndex := snapshot.interfaceIndex
  ownerAlias := snapshot.ownerAlias
  isUp := snapshot.isUp
  mtu := snapshot.mtu
  publicKey := snapshot.publicKey
  listenPort := snapshot.listenPort
  fwmark := snapshot.fwmark
  proofAddresses := snapshot.proofAddresses
  peers := snapshot.peers.map WireGuardPeerReadback.configuration
  routes := snapshot.routes

/-- The digest that stays while packets flow. -/
def calculateConfigurationDigest : Digest :=
  digests.configuration snapshot.configuration

/-- The digest of the counters. -/
def calculateObservationDigest : Digest :=
  digests.observation snapshot.configurationDigest
    (snapshot.peers.map WireGuardPeerReadback.counters)

/-- The loop over the peers, which collects their prefixes. -/
def scanPeerReadback (allowedIps : ExtTreeSet IpPrefix) (peer : WireGuardPeerReadback) :
    Except WireGuardKernelError (ExtTreeSet IpPrefix) := do
  failIf (peer.publicKey == 0 || !validEndpoint peer.endpoint ||
    decide (600 < peer.persistentKeepaliveSeconds) || peer.allowedIps.isEmpty ||
    !strictlyAscending peer.allowedIps) .readbackMismatch
  peer.allowedIps.foldlM (fun seen range => do
    failIf (!range.isCanonical || seen.contains range) .readbackMismatch
    pure (seen.insert range)) allowedIps

/-- A readback is well formed and has the digests that it names. -/
def verifyIntegrity : Except WireGuardKernelError Unit := do
  failIf (snapshot.schemaVersion != wireguardKernelSnapshotSchemaVersion ||
    !validKernelInterfaceName snapshot.interfaceName || snapshot.interfaceIndex == 0 ||
    snapshot.ownerAlias.isEmpty ||
    decide (maxWireguardOwnerAliasBytes < snapshot.ownerAlias.utf8ByteSize) ||
    !"unf:encryption:v2:".toList.isPrefixOf snapshot.ownerAlias.toList ||
    decide (maxEncryptionPrefixesPerNode < snapshot.proofAddresses.length) ||
    !strictlyAscending snapshot.proofAddresses ||
    (snapshot.proofAddresses.any fun range => !IpPrefix.isHostRoute range) || !snapshot.isUp ||
    decide (snapshot.mtu < minWireguardMtu) || decide (maxWireguardMtu < snapshot.mtu) ||
    snapshot.publicKey == 0 || snapshot.listenPort == 0 || snapshot.fwmark == 0 ||
    snapshot.peers.isEmpty || decide (maxWireguardPeers < snapshot.peers.length) ||
    decide (maxWireguardAllowedIps < snapshot.routes.length) ||
    !strictlyAscending (snapshot.peers.map WireGuardPeerReadback.publicKey) ||
    !strictlyAscending (snapshot.routes.map WireGuardRouteReadback.ipPrefix) ||
    snapshot.configurationDigest != snapshot.calculateConfigurationDigest digests ||
    snapshot.observationDigest != snapshot.calculateObservationDigest digests)
    .readbackMismatch
  let allowedIps ← snapshot.peers.foldlM scanPeerReadback ∅
  failIf (snapshot.routes.any fun route => !route.ipPrefix.isCanonical ||
    route.interfaceIndex != snapshot.interfaceIndex || route.table == 0 ||
    route.protocol != unfWireguardRouteProtocol ||
    route.scope != .forPrefix route.ipPrefix || !allowedIps.contains route.ipPrefix)
    .readbackMismatch

/-- The readback is exactly what the plan asks for; counters are not part of it. -/
def verifyAgainst : Except WireGuardKernelError Unit := do
  plan.verify digests
  snapshot.verifyIntegrity digests
  failIf (snapshot.schemaVersion != wireguardKernelSnapshotSchemaVersion ||
    snapshot.interfaceName != plan.interfaceName || snapshot.interfaceIndex == 0 ||
    snapshot.ownerAlias != plan.ownerAlias || !snapshot.isUp ||
    snapshot.mtu != plan.mtuEnvelope.interfaceMtu ||
    snapshot.publicKey != plan.localPublicKey || snapshot.listenPort != plan.listenPort ||
    snapshot.fwmark != plan.fwmark || snapshot.proofAddresses != plan.proofAddresses ||
    snapshot.configurationDigest != snapshot.calculateConfigurationDigest digests ||
    snapshot.observationDigest != snapshot.calculateObservationDigest digests)
    .readbackMismatch
  failIf (sortByKey PeerConfiguration.publicKey (plan.peers.map WireGuardPeerPlan.configuration) !=
    snapshot.peers.map WireGuardPeerReadback.configuration) .readbackMismatch
  failIf (snapshot.routes.length != plan.routePrefixes.size || snapshot.routes.any fun route =>
    !plan.routePrefixes.contains route.ipPrefix ||
    route.interfaceIndex != snapshot.interfaceIndex || route.table != plan.routeTable ||
    route.protocol != unfWireguardRouteProtocol ||
    route.scope != .forPrefix route.ipPrefix) .readbackMismatch

end WireGuardKernelSnapshot

namespace ProofCarryingKernelTransaction

/-- The digest of a transaction. -/
def calculateDigest (transaction : ProofCarryingKernelTransaction) : Digest :=
  digests.transaction { transaction with transactionDigest := 0 }

/-- Only a committed transaction has a readback. -/
def verify (transaction : ProofCarryingKernelTransaction) : Except WireGuardKernelError Unit := do
  transaction.plan.verify digests
  failIf (transaction.schemaVersion != proofCarryingKernelTransactionSchemaVersion ||
    transaction.transactionRevision == .initial ||
    (transaction.phase == .committed) != transaction.readbackConfigurationDigest.isSome ||
    transaction.transactionDigest != transaction.calculateDigest digests) .invalidTransaction

end ProofCarryingKernelTransaction

end Unf.Encryption
