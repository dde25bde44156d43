import Unf.Encryption.MirrorSpec
import Unf.Encryption.Packet

/-!
# An installed bank

A compiled bank as the active one of the maps. The other bank may hold anything. What the packet
program looks up in the maps is what the mirror looks up in the lists of the bank; in particular
the longest prefix around an address is the only one.
-/

namespace Unf.Encryption

open Std (ExtTreeMap)
open Unf.Lib Unf.Egress List EncryptionFastPathState EncryptionMaps UInt32
open Unf.Service (Revision)

variable {digests : EncryptionDigests} {context : FastPathCompileContext}
  {epochs : List FastPathEpochAdmission} {inputs : List FastPathDecisionInput}
  {state : EncryptionFastPathState} {admitted : AdmittedEpochs} {outcomes : List GroupOutcome}
  {table : TransportIndex} {maps : EncryptionMaps}

/-- The prefix of an entry, without the bits of the bank before it. -/
def LoweredPath.cidr {width : Nat} (path : LoweredPath width) : Cidr width :=
  ⟨path.destinationAddress, path.prefixLen.toNat⟩

/-- The bank is the active one of the maps. -/
structure Installed (maps : EncryptionMaps) (state : EncryptionFastPathState) : Prop where
  config : maps.config = state.config
  decisions : ∀ key : EncryptionDecisionKey, key.bank = state.config.activeBank → ∀ value,
    maps.decisions[key]? = some value ↔ (key, value) ∈ state.decisions
  transports : ∀ key : EncryptionTransportKey, key.bank = state.config.activeBank → ∀ value,
    maps.transports[key]? = some value ↔ (key, value) ∈ state.transports
  ipv4Paths : ∀ (cidr : Cidr 32) value,
    maps.ipv4Paths[EncryptionPathKey.mk state.config.activeBank cidr]? = some value ↔
      ∃ path ∈ state.ipv4Paths, path.cidr = cidr ∧ path.value = value
  ipv6Paths : ∀ (cidr : Cidr 128) value,
    maps.ipv6Paths[EncryptionPathKey.mk state.config.activeBank cidr]? = some value ↔
      ∃ path ∈ state.ipv6Paths, path.cidr = cidr ∧ path.value = value

variable (installed : Installed maps state)
  (built : Built digests context epochs inputs state admitted outcomes table)

/-! ## Lookups -/

section Lookups

include installed built

theorem Installed.decision_eq (source destination : IdentityId) : maps.decision source destination =
      (state.decisionAuthority.find? fun decision =>
        decision.pair == toLex (source, destination)).map
        fun decision => (lowerDecision context decision).2 := by
  apply Option.ext
  intro value
  rw [decision, installed.config, installed.decisions _ rfl, built.decisions,
    lowerDecisions, mem_map, built.config_eq, Option.map_eq_some_iff]
  simp only [find?_key_eq_some_iff built.nodup_pair]
  constructor
  · rintro ⟨decision, member, lowered⟩
    obtain ⟨sameKey, sameValue⟩ := Prod.ext_iff.mp lowered
    obtain ⟨rfl, rfl, -⟩ := EncryptionDecisionKey.mk.inj sameKey
    exact ⟨decision, ⟨member, rfl⟩, sameValue⟩
  · rintro ⟨decision, ⟨member, same⟩, rfl⟩
    obtain ⟨rfl, rfl⟩ := Prod.mk.inj (congrArg ofLex same)
    exact ⟨decision, member, rfl⟩

theorem Installed.transport_eq (transportId : UInt64) : maps.transport transportId =
      (state.transportAuthority.find? fun transport => transport.transportId == transportId).map
        fun transport => (lowerTransport context.bank transport).2 := by
  apply Option.ext
  intro value
  rw [transport, installed.config, installed.transports _ rfl, built.transports,
    lowerTransports, mem_map, built.config_eq, Option.map_eq_some_iff]
  simp only [find?_key_eq_some_iff built.nodup_transportId]
  constructor
  · rintro ⟨transport, member, lowered⟩
    obtain ⟨sameKey, sameValue⟩ := Prod.ext_iff.mp lowered
    obtain ⟨rfl, -⟩ := EncryptionTransportKey.mk.inj sameKey
    exact ⟨transport, ⟨member, rfl⟩, sameValue⟩
  · rintro ⟨transport, ⟨member, rfl⟩, rfl⟩
    exact ⟨transport, member, rfl⟩

end Lookups

/-! ## Paths -/

include built in
/-- The longest prefix of a map that has the paths of one family, which `embed` is the
constructor of. -/
theorem Built.longestMatch_eq {width : Nat} (embed : BitVec width → IpAddr)
    {paths : Cidr width → Option EncryptionPathValue}
    (contains_embed : ∀ (ipPrefix : IpPrefix) (network address : BitVec width),
      ipPrefix.address = embed network → ipPrefix.contains (embed address) =
        (Cidr.mk network ipPrefix.prefixLen.toNat).contains address)
    (family : ∀ (ipPrefix : IpPrefix) (address : BitVec width),
      ipPrefix.contains (embed address) = true → ∃ network, ipPrefix.address = embed network)
    (embed_injective : Function.Injective embed)
    (stored : ∀ (cidr : Cidr width) value, paths cidr = some value ↔
      ∃ path ∈ state.pathAuthority, path.ipPrefix.address = embed cidr.network ∧
        path.ipPrefix.prefixLen.toNat = cidr.prefixLen ∧ lowerPathValue path = value)
    (address : BitVec width) : Cidr.longestMatch paths address =
      (state.pathTo (embed address)).map lowerPathValue := by
  have around {cidr : Cidr width} {path : EncryptionPathAuthority}
      (network : path.ipPrefix.address = embed cidr.network)
      (length : path.ipPrefix.prefixLen.toNat = cidr.prefixLen) :
      path.ipPrefix.contains (embed address) = cidr.contains address := by
    rw [contains_embed _ _ _ network, length]
  have single (cidr other : Cidr width) (value otherValue : EncryptionPathValue)
      (here : paths cidr = some value) (there : paths other = some otherValue)
      (contained : cidr.contains address = true) (otherContained : other.contains address = true) :
      cidr = other := by
    obtain ⟨path, member, network, length, -⟩ := (stored cidr value).mp here
    obtain ⟨path', member', network', length', -⟩ := (stored other otherValue).mp there
    rw [← around network length] at contained
    rw [← around network' length'] at otherContained
    obtain rfl := built.path_unique member member' contained otherContained
    have networks := embed_injective (network.symm.trans network')
    have lengths := length.symm.trans length'
    cases cidr
    cases other
    simp only [Cidr.mk.injEq] at networks lengths ⊢
    exact ⟨networks, lengths⟩
  apply Option.ext
  intro value
  rw [Cidr.longestMatch_eq_some_iff single, Option.map_eq_some_iff]
  simp only [built.pathTo_eq_some_iff]
  constructor
  · rintro ⟨cidr, here, contained⟩
    obtain ⟨path, member, network, length, rfl⟩ := (stored cidr value).mp here
    exact ⟨path, ⟨member, (around network length).trans contained⟩, rfl⟩
  · rintro ⟨path, ⟨member, contained⟩, rfl⟩
    obtain ⟨network, same⟩ := family _ _ contained
    refine ⟨⟨network, path.ipPrefix.prefixLen.toNat⟩,
      (stored _ _).mpr ⟨path, member, same, rfl, rfl⟩, ?_⟩
    rw [← contains_embed _ _ _ same]
    exact contained

variable {bank : UInt8} {authority : List EncryptionPathAuthority}
  {value : EncryptionPathValue} {count : Nat} {decision : EncryptionDecisionValue}

/-- A lowering for a bank that keeps the paths of one family, which `embed` is the constructor
of. -/
def Lowers {width : Nat} (embed : BitVec width → IpAddr) (bank : UInt8)
    (lower : EncryptionPathAuthority → Option (LoweredPath width)) : Prop :=
  ∀ path lowered, lower path = some lowered ↔ ∃ network, path.ipPrefix.address = embed network ∧
    lowered = ⟨path.ipPrefix.prefixLen.toUInt32, bank, network, lowerPathValue path⟩

theorem lowers_lowerIpv4Path : Lowers .v4 bank (lowerIpv4Path bank) := by
  intro path lowered
  unfold lowerIpv4Path
  cases path.ipPrefix.address <;> simp [eq_comm]

theorem lowers_lowerIpv6Path : Lowers .v6 bank (lowerIpv6Path bank) := by
  intro path lowered
  unfold lowerIpv6Path
  cases path.ipPrefix.address <;> simp [eq_comm]

section Lowers

variable {width : Nat} {embed : BitVec width → IpAddr}
  {lower : EncryptionPathAuthority → Option (LoweredPath width)}

theorem Lowers.mem_filterMap (lowers : Lowers embed bank lower) {cidr : Cidr width} :
    (∃ lowered ∈ authority.filterMap lower, lowered.cidr = cidr ∧ lowered.value = value) ↔
      ∃ path ∈ authority, path.ipPrefix.address = embed cidr.network ∧
        path.ipPrefix.prefixLen.toNat = cidr.prefixLen ∧ lowerPathValue path = value := by
  constructor
  · rintro ⟨lowered, member, rfl, rfl⟩
    obtain ⟨path, pathMember, made⟩ := List.mem_filterMap.mp member
    obtain ⟨network, same, rfl⟩ := (lowers path lowered).mp made
    exact ⟨path, pathMember, same, (UInt8.toNat_toUInt32 _).symm, rfl⟩
  · rintro ⟨path, member, network, length, rfl⟩
    refine ⟨⟨path.ipPrefix.prefixLen.toUInt32, bank, cidr.network, lowerPathValue path⟩,
      List.mem_filterMap.mpr ⟨path, member, (lowers _ _).mpr ⟨_, network, rfl⟩⟩, ?_, rfl⟩
    rw [LoweredPath.cidr, UInt8.toNat_toUInt32, length]

end Lowers

include installed built in
/-- The packet program finds the path that the mirror finds. -/
theorem Installed.path_eq (address : IpAddr) : maps.path address =
      (state.pathTo address).map lowerPathValue := by
  cases address with
  | v4 address =>
    rw [path, installed.config]
    refine built.longestMatch_eq IpAddr.v4 ?_ ?_ (fun _ _ same => by cases same; rfl)
      (fun cidr value => ?_) address
    · rintro ⟨_, prefixLen⟩ network address rfl
      rfl
    · rintro ⟨_ | _, prefixLen⟩ address contained
      · exact ⟨_, rfl⟩
      · cases contained
    · rw [installed.ipv4Paths, built.ipv4Paths]
      exact lowers_lowerIpv4Path.mem_filterMap
  | v6 address =>
    rw [path, installed.config]
    refine built.longestMatch_eq IpAddr.v6 ?_ ?_ (fun _ _ same => by cases same; rfl)
      (fun cidr value => ?_) address
    · rintro ⟨_, prefixLen⟩ network address rfl
      rfl
    · rintro ⟨_ | _, prefixLen⟩ address contained
      · cases contained
      · exact ⟨_, rfl⟩
    · rw [installed.ipv6Paths, built.ipv6Paths]
      exact lowers_lowerIpv6Path.mem_filterMap

/-! ## Counters -/

theorem toNat_count (small : count < 2 ^ 32) : (ofNat count).toNat = count := by
  exact Nat.mod_eq_of_lt small

theorem count_le_iff {capacity : UInt32} (small : count < 2 ^ 32) :
    ofNat count ≤ capacity ↔ count ≤ capacity.toNat := by
  rw [le_iff_toNat_le, toNat_count small]

theorem count_pos_iff (small : count < 2 ^ 32) : 0 < ofNat count ↔ 0 < count := by
  rw [lt_iff_toNat_lt, toNat_count small]
  rfl

section Counters

include built

/-- There is at most one decision for each input. -/
theorem Built.decisions_le : state.decisionAuthority.length ≤ maxFastPathDecisions := by
  have given : ∀ pair ∈ state.decisionAuthority.map FastPathDecisionAuthority.pair,
      pair ∈ inputs.map FastPathDecisionInput.pair := by
    intro pair member
    rw [built.decisionAuthority, ((sortByKey_perm _ _).map _).mem_iff, built.map_pair] at member
    obtain ⟨group, groupMember, rfl⟩ := mem_map.mp member
    obtain ⟨own, nonempty⟩ := getElem?_groupInputs.mp
      (ExtTreeMap.mem_toList_iff_getElem?_eq_some.mp groupMember)
    obtain ⟨input, inputMember⟩ := exists_mem_of_ne_nil _ nonempty
    rw [own] at inputMember
    obtain ⟨listed, same⟩ := mem_inputsOf.mp inputMember
    exact mem_map.mpr ⟨input, listed, same⟩
  have fewer := (subperm_of_subset built.nodup_pair given).length_le
  rw [length_map, length_map] at fewer
  exact fewer.trans built.valid.fewInputs

theorem Built.transports_le : state.transportAuthority.length ≤ maxFastPathTransports := by
  have drained := built.drained
  simp only [addDrainingTransports, eq_ok_iffs, eq_false_iffs] at drained
  obtain ⟨_, -, capacity, rfl⟩ := drained
  rw [materializeTransports_eq built.materialized, (sortByKey_perm _ _).length_eq,
    length_map, ExtTreeMap.length_toList]
  exact capacity

theorem Built.paths_le : state.pathAuthority.length ≤ maxFastPathPaths := by
  rw [built.pathAuthority, length_tableValues]
  exact built.compile.capacity

/-- The packet program takes a bank that has decisions, and transports exactly if it has
epochs. -/
theorem Built.encryptionConfigIsActive_iff : encryptionConfigIsActive state.config = true ↔
      state.decisionAuthority ≠ [] ∧ (epochs ≠ [] ↔ state.transportAuthority ≠ []) := by
  obtain ⟨⟨decisionsSmall, transportsSmall, epochsSmall, pathsSmall⟩, config⟩ :=
    mapConfig_eq_ok.mp built.config
  have epochCount : UInt8.ofNat epochs.length ≤ 2 := UInt8.le_iff_toNat_le.mpr built.epochCount_le
  have epochsPositive : 0 < UInt8.ofNat epochs.length ↔ epochs ≠ [] := by
    rw [UInt8.lt_iff_toNat_lt, UInt8.toNat_ofNat', Nat.mod_eq_of_lt epochsSmall, ← length_pos_iff]
    rfl
  have decisions := (count_le_iff decisionsSmall).mpr built.decisions_le
  have transports := (count_le_iff transportsSmall).mpr built.transports_le
  have paths := (count_le_iff pathsSmall).mpr built.paths_le
  have revision {revision : Revision} (known : revision ≠ .initial) : revision.get ≠ 0 :=
    fun zero => known (congrArg Revision.mk zero)
  have bank : context.bank < encryptionBankCount := built.valid.bank
  rw [encryptionConfigIsActive, encryptionConfigHasAdmittedCut, config]
  simp only [Bool.and_eq_true, decide_eq_true_eq, bne_iff_ne, beq_self_eq_true, bank,
    revision built.valid.generation, revision built.valid.policyRevision,
    revision built.valid.serviceRevision, revision built.valid.egressRevision, epochCount,
    decisions, transports, paths, ne_eq, not_false_eq_true, true_and, and_true,
    count_pos_iff decisionsSmall, count_pos_iff transportsSmall, length_pos_iff,
    Bool.or_eq_true, beq_iff_eq, decide_eq_decide, epochsPositive]
  tauto

end Counters

/-! ## Decisions -/

include installed built in
theorem Installed.decision_found (packet : FastPathPacketContext) :
    maps.decision packet.sourceIdentity packet.destinationIdentity = state.decisionFor packet := by
  rw [installed.decision_eq built, built.decisionFor_eq]
  rfl

include installed built in
theorem Installed.transport_found (transportId : UInt64) :
    maps.transport transportId = state.transportOf transportId := by
  rw [installed.transport_eq built, built.transportOf_eq]

include built

/-- The packet program checks a decision as the mirror does, and what depends on its disposition
at once. -/
theorem Built.encryptionDecisionIsUsable_eq {packet : FastPathPacketContext}
    (atBank : AtBank context packet) : encryptionDecisionIsUsable decision state.config =
      (decisionMatches decision packet && if decision.disposition = encryptionDispositionNative then
          !decision.addressBound && decision.transportId == 0 &&
            decision.contractRevision == 0 && decision.keyEpoch == 0
        else if decision.disposition = encryptionDispositionRequired then
          decision.contractRevision != 0 && decision.keyEpoch != 0 &&
            decision.addressBound == (decision.transportId == 0) else false) := by
  have rejected : (decision.schemaVersion != encryptionMapAbiVersion ||
      decision.decisionWitness == 0 ||
      (decision.flags != encryptionDecisionBaseFlags && !decision.addressBound) ||
      decision.policyRevision != state.config.policyRevision ||
      decision.serviceRevision != state.config.serviceRevision ||
      decision.egressRevision != state.config.egressRevision) =
        !decisionMatches decision packet := by
    simp only [decisionMatches, built.config_eq, atBank.policyRevision, atBank.serviceRevision,
      atBank.egressRevision, bne, Bool.not_and, Bool.not_or, Bool.not_not]
  rw [encryptionDecisionIsUsable, rejected]
  cases decisionMatches decision packet <;> rfl

theorem Built.transportId_ne_zero {transport : EncryptionTransportAuthority}
    (member : transport ∈ state.transportAuthority) : transport.transportId ≠ 0 := by
  have valid := (checks_of_verifyIntegrity built.verified).1
  rw [transportIdsAreValid, Bool.and_eq_true, all_eq_true] at valid
  have own := valid.1 transport member
  rw [beq_iff_eq] at own
  rw [← own]
  exact Encryption.transportId_ne_zero digests transport.key

theorem Built.path_transportId_ne_zero {path : EncryptionPathAuthority}
    (member : path ∈ state.pathAuthority) : path.transportId ≠ 0 := by
  have valid := (checks_of_verifyIntegrity built.verified).2
  rw [pathsAreValid, Bool.and_eq_true, all_eq_true] at valid
  have own := valid.1 path member
  rw [Bool.and_eq_true, any_eq_true] at own
  obtain ⟨-, transport, transportMember, carries⟩ := own
  simp only [Bool.and_eq_true, beq_iff_eq] at carries
  rw [← carries.1.1.1]
  exact built.transportId_ne_zero transportMember

omit built

include installed built in
/-- A required decision that the packet program accepts is bound to the transport that the
mirror resolves it to. -/
theorem Installed.boundTransportId_eq (packet : FastPathPacketContext)
    (flags : decision.flags = encryptionDecisionBaseFlags ∨ decision.addressBound = true)
    (bound : decision.addressBound = (decision.transportId == 0)) :
    maps.boundTransportId decision packet.destinationAddress =
      (resolveNewTransportId state packet decision).toOption := by
  unfold boundTransportId resolveNewTransportId
  cases addressBound : decision.addressBound with
  | false =>
    have base : decision.flags = encryptionDecisionBaseFlags :=
      flags.resolve_right (by rw [addressBound]; decide)
    have direct : (decision.flags &&& encryptionDecisionFlagAddressBound == 0) = true := by
      rw [base]
      decide
    have own : ¬decision.transportId = 0 := by
      rw [addressBound] at bound
      simpa using bound.symm
    rw [if_pos direct, if_pos rfl, if_neg own]
    rfl
  | true =>
    have indirect : ¬(decision.flags &&& encryptionDecisionFlagAddressBound == 0) = true := by
      rw [EncryptionDecisionValue.addressBound, beq_iff_eq] at addressBound
      rw [addressBound]
      decide
    have unnamed : ¬decision.transportId ≠ 0 := by
      rw [addressBound] at bound
      simpa using bound.symm
    rw [if_neg indirect, if_neg (by decide), if_neg unnamed, installed.path_eq built, ← pathTo]
    cases best : state.pathTo packet.destinationAddress with
    | none => rfl
    | some path =>
      have member := ((built.pathTo_eq_some_iff packet.destinationAddress path).mp best).1
      have present : (path.transportId == 0) = false :=
        beq_eq_false_iff_ne.mpr (built.path_transportId_ne_zero member)
      have usable : encryptionPathIsUsable (lowerPathValue path) decision =
          !(path.contractRevision.get != decision.contractRevision ||
            path.keyEpoch != decision.keyEpoch || path.bindingWitness == 0) := by
        simp only [encryptionPathIsUsable, lowerPathValue, bne, present, beq_self_eq_true,
          Bool.not_or, Bool.not_not, Bool.not_false, Bool.and_true, Bool.true_and]
      simp only [Option.map_some, usable]
      cases path.contractRevision.get != decision.contractRevision ||
        path.keyEpoch != decision.keyEpoch || path.bindingWitness == 0 <;> rfl

/-! ## Installing a bank -/

/-- The maps with one bank, and the leases of the flows before it. -/
def EncryptionFastPathState.install (state : EncryptionFastPathState)
    (connections : ExtTreeMap ConnectionKey EncryptionFlowValue) : EncryptionMaps where
  config := state.config
  decisions := register ∅ state.decisions
  transports := register ∅ state.transports
  ipv4Paths := register ∅ (state.ipv4Paths.map fun path => (⟨path.bank, path.cidr⟩, path.value))
  ipv6Paths := register ∅ (state.ipv6Paths.map fun path => (⟨path.bank, path.cidr⟩, path.value))
  connections := connections

/-- A table of distinct keys has the entries that were written to it. -/
theorem getElem?_register_of_nodup {κ ν : Type*} [LinearOrder κ] {entries : List (κ × ν)}
    (distinct : (entries.map Prod.fst).Nodup) (key : κ) (value : ν) :
    (register ∅ entries)[key]? = some value ↔ (key, value) ∈ entries := by
  have registrable : Registrable ∅ entries := registrable_empty_iff.mpr
    ((pairwise_map.mp distinct).imp fun different same => absurd same different)
  rw [getElem?_register registrable]
  simp

section Install

include built

/-- Two paths of one prefix are one. -/
theorem Built.path_eq_of_ipPrefix {path other : EncryptionPathAuthority}
    (member : path ∈ state.pathAuthority) (otherMember : other ∈ state.pathAuthority)
    (address : path.ipPrefix.address = other.ipPrefix.address)
    (prefixLen : path.ipPrefix.prefixLen.toNat = other.ipPrefix.prefixLen.toNat) :
    path = other := by
  have valid := (checks_of_verifyIntegrity built.verified).2
  rw [pathsAreValid, Bool.and_eq_true, decide_eq_true_iff] at valid
  have distinct : (state.pathAuthority.map EncryptionPathAuthority.ipPrefix).Nodup :=
    pairwise_map.mpr (valid.2.imp And.left)
  apply inj_on_of_nodup_map distinct member otherMember
  cases firstPrefix : path.ipPrefix
  cases secondPrefix : other.ipPrefix
  rw [firstPrefix, secondPrefix] at address prefixLen
  rw [IpPrefix.mk.injEq]
  exact ⟨address, UInt8.toNat_inj.mp prefixLen⟩

/-- A table of the paths of one family. -/
theorem Built.getElem?_register_paths {width : Nat} {embed : BitVec width → IpAddr}
    {lower : EncryptionPathAuthority → Option (LoweredPath width)}
    (lowers : Lowers embed bank lower) (cidr : Cidr width) (value : EncryptionPathValue) :
    (register ∅ ((state.pathAuthority.filterMap lower).map fun path =>
        (EncryptionPathKey.mk path.bank path.cidr, path.value)))[
        EncryptionPathKey.mk bank cidr]? = some value ↔
      ∃ path ∈ state.pathAuthority.filterMap lower, path.cidr = cidr ∧ path.value = value := by
  have registrable : Registrable ∅ ((state.pathAuthority.filterMap lower).map fun path =>
      (EncryptionPathKey.mk path.bank path.cidr, path.value)) := by
    rw [registrable_empty_iff, pairwise_map]
    apply pairwise_of_forall_mem_list
    intro path member other otherMember same
    obtain ⟨first, firstMember, network, length, lowered⟩ :=
      lowers.mem_filterMap.mp ⟨path, member, rfl, rfl⟩
    obtain ⟨second, secondMember, network', length', lowered'⟩ :=
      lowers.mem_filterMap.mp ⟨other, otherMember, rfl, rfl⟩
    rw [(EncryptionPathKey.mk.inj same).2] at network length
    rw [← lowered, ← lowered', built.path_eq_of_ipPrefix firstMember secondMember
      (network.trans network'.symm) (length.trans length'.symm)]
  rw [getElem?_register registrable, ExtTreeMap.getElem?_empty, mem_map]
  simp only [reduceCtorEq, or_false, Prod.mk.injEq, EncryptionPathKey.mk.injEq]
  constructor
  · rintro ⟨path, member, ⟨-, same⟩, lowered⟩
    exact ⟨path, member, same, lowered⟩
  · rintro ⟨path, member, same, lowered⟩
    obtain ⟨authority, -, made⟩ := List.mem_filterMap.mp member
    obtain ⟨network, -, rfl⟩ := (lowers authority path).mp made
    exact ⟨_, member, ⟨rfl, same⟩, lowered⟩

/-- Every compiled bank can be installed. -/
theorem Built.installed_install (connections : ExtTreeMap ConnectionKey EncryptionFlowValue) :
    Installed (state.install connections) state where
  config := rfl
  decisions key _ value := by
    apply getElem?_register_of_nodup
    rw [built.decisions, lowerDecisions, map_map]
    have distinct := built.nodup_pair
    rw [nodup_iff_pairwise_ne, pairwise_map] at distinct ⊢
    refine distinct.imp fun different same => different ?_
    obtain ⟨source, destination, -⟩ := EncryptionDecisionKey.mk.inj same
    exact congrArg toLex (Prod.ext source destination)
  transports key _ value := by
    apply getElem?_register_of_nodup
    rw [built.transports, lowerTransports, map_map]
    have distinct := built.nodup_transportId
    rw [nodup_iff_pairwise_ne, pairwise_map] at distinct ⊢
    exact distinct.imp fun different same => different (EncryptionTransportKey.mk.inj same).1
  ipv4Paths cidr value := by
    rw [install, built.config_eq, built.ipv4Paths]
    exact built.getElem?_register_paths lowers_lowerIpv4Path cidr value
  ipv6Paths cidr value := by
    rw [install, built.config_eq, built.ipv6Paths]
    exact built.getElem?_register_paths lowers_lowerIpv6Path cidr value

end Install

end Unf.Encryption
