import Unf.Encryption.Packet

/-!
# Runs of the packet program

Packets go through the program one at a time, while the agent writes the maps and leases are
evicted. In every such run a packet between two identities leaves in one of two ways: forwarded
natively by a decision for its pair, or marked for a transport that its pair, or the packet that
started its lease, was bound to.
-/

namespace Unf.Encryption

open Std (ExtTreeMap)
open Unf.Lib List

/-! ## Events -/

/-- What happens to the maps. A write with no value removes the entry; either bank can be
written, so the runs that stage only the bank out of use are among these. -/
inductive EncryptionEvent where
  | packet (packet : TcPacket)
  | replaceConfig (config : EncryptionMapConfig)
  | writeDecision (key : EncryptionDecisionKey) (value : Option EncryptionDecisionValue)
  | writeTransport (key : EncryptionTransportKey) (value : Option EncryptionTransportValue)
  | writeIpv4Path (key : EncryptionPathKey 32) (value : Option EncryptionPathValue)
  | writeIpv6Path (key : EncryptionPathKey 128) (value : Option EncryptionPathValue)
  | removeConnection (key : ConnectionKey)

def writeEntry {κ ν : Type} [LinearOrder κ] (table : ExtTreeMap κ ν) (key : κ) :
    Option ν → ExtTreeMap κ ν
  | none => table.erase key
  | some value => table.insert key value

def EncryptionMaps.step (maps : EncryptionMaps) : EncryptionEvent → EncryptionMaps
  | .packet packet =>
    { maps with connections := (applyEncryptionSelection maps packet).connections }
  | .replaceConfig config => { maps with config }
  | .writeDecision key value => { maps with decisions := writeEntry maps.decisions key value }
  | .writeTransport key value => { maps with transports := writeEntry maps.transports key value }
  | .writeIpv4Path key value => { maps with ipv4Paths := writeEntry maps.ipv4Paths key value }
  | .writeIpv6Path key value => { maps with ipv6Paths := writeEntry maps.ipv6Paths key value }
  | .removeConnection key => { maps with connections := maps.connections.erase key }

/-! ## Passages -/

/-- A packet with the maps that it met. -/
structure Passage where
  maps : EncryptionMaps
  packet : TcPacket

namespace Passage

def selection (passage : Passage) : Selection :=
  applyEncryptionSelection passage.maps passage.packet

/-- The packet was passed on. -/
def Passed (passage : Passage) : Prop :=
  passage.selection.action = .pipe

/-- The tuple was not idle between two packets for longer than its protocol allows. -/
def WithinTimeout (earlier later : Passage) : Prop :=
  ∃ timeoutNs, connectionTimeoutNs later.packet.observation.protocol = some timeoutNs ∧
    later.packet.nowNs.toNat - earlier.packet.nowNs.toNat ≤ timeoutNs.toNat

/-- The packet could start a lease, and was passed on under a decision that requires encryption
with the transport. -/
def StartedLease (passage : Passage) (transportId keyEpoch contractRevision : UInt64) : Prop :=
  packetStartsEncryptionLease passage.packet.observation.protocol
      passage.packet.observation.tcpFlags = true ∧
    ∃ decision transport,
      RequiredDecision passage.maps passage.packet decision transportId transport ∧
      Carries passage.maps passage.packet false transportId transport ∧
      transport.keyEpoch = keyEpoch ∧ transport.contractRevision = contractRevision

/-- Passed packets of one tuple without an idle gap, the first of which started a lease of the
transport. -/
structure Sustains (chain : List Passage) (flowKey : ConnectionKey)
    (transportId keyEpoch contractRevision : UInt64) : Prop where
  started : ∃ first, chain.head? = some first ∧
    first.StartedLease transportId keyEpoch contractRevision
  sameTuple : ∀ passage ∈ chain, passage.packet.flowKey = flowKey
  passed : ∀ passage ∈ chain, passage.Passed
  noGap : chain.IsChain WithinTimeout

/-- The packet left without encryption, by the decision for its pair. -/
def LeftNatively (passage : Passage) : Prop :=
  (∃ decision, NativeDecision passage.maps passage.packet decision) ∧
    passage.maps.connections[passage.packet.flowKey]? = none ∧
    passage.selection.mark &&& encryptionRouteMarkMask = 0

/-- The packet left with the mark of a transport in use, to which its pair is bound or which
the earlier packets of its tuple hold a lease of. -/
def LeftEncrypted (earlier : List Passage) (passage : Passage) : Prop :=
  ∃ transportId transport,
    passage.maps.transport transportId = some transport ∧
    encryptionTransportIsUsable transport true passage.packet.nowNs = true ∧
    MarkedFor transport passage.selection.mark ∧
    ((∃ decision, RequiredDecision passage.maps passage.packet decision transportId transport ∧
        encryptionTransportIsUsable transport false passage.packet.nowNs = true) ∨
      ∃ chain, chain.Sublist earlier ∧ chain ≠ [] ∧
        Sustains (chain ++ [passage]) passage.packet.flowKey transportId
          transport.keyEpoch transport.contractRevision)

end Passage

open Passage

/-- The packets of a run, with the maps that each of them met. -/
def passages (maps : EncryptionMaps) : List EncryptionEvent → List Passage
  | [] => []
  | .packet packet :: events => ⟨maps, packet⟩ :: passages (maps.step (.packet packet)) events
  | event :: events => passages (maps.step event) events

/-! ## Leases -/

/-- The lease is what a chain of passed packets leaves behind. -/
def LeaseFounded (history : List Passage) (flowKey : ConnectionKey) (flow : EncryptionFlowValue) :
    Prop :=
  ∃ chain last, (chain ++ [last]).Sublist history ∧
    Sustains (chain ++ [last]) flowKey flow.transportId flow.keyEpoch flow.contractRevision ∧
    flow.lastSeenMonotonicNs = last.packet.nowNs

/-- Every lease goes back to packets of the run. -/
def LeasesFounded (history : List Passage) (maps : EncryptionMaps) : Prop :=
  ∀ (flowKey : ConnectionKey) (flow : EncryptionFlowValue),
    maps.connections[flowKey]? = some flow → LeaseFounded history flowKey flow

variable {history : List Passage} {flow : EncryptionFlowValue} {maps : EncryptionMaps}
  {passage : Passage}

theorem LeaseFounded.append {flowKey : ConnectionKey} (founded : LeaseFounded history flowKey flow)
    (more : List Passage) : LeaseFounded (history ++ more) flowKey flow := by
  obtain ⟨chain, last, sublist, sustains, seen⟩ := founded
  exact ⟨chain, last, sublist.trans (sublist_append_left history more), sustains, seen⟩

variable (founded : LeasesFounded history maps)

include founded in
/-- A run that only loses leases keeps them founded. -/
theorem LeasesFounded.mono (after : EncryptionMaps)
    (kept : ∀ (flowKey : ConnectionKey) (flow : EncryptionFlowValue),
      after.connections[flowKey]? = some flow → maps.connections[flowKey]? = some flow)
    (more : List Passage) : LeasesFounded (history ++ more) after :=
  fun flowKey flow held => (founded flowKey flow (kept flowKey flow held)).append more

include founded in
/-- A new entry for the tuple of a packet keeps the others founded. -/
theorem LeasesFounded.insert (passage : Passage)
    (new : LeaseFounded (history ++ [passage]) passage.packet.flowKey flow) :
    LeasesFounded (history ++ [passage])
      { maps with connections := maps.connections.insert passage.packet.flowKey flow } := by
  apply forall_getElem?_insert new
  intro flowKey other held
  exact (founded flowKey other held).append [passage]

variable {contractRevision : UInt64} {event : EncryptionEvent} {transportId keyEpoch : UInt64}

/-- A packet that starts a lease is a chain of its own. -/
theorem sustains_singleton (started : passage.StartedLease transportId keyEpoch contractRevision)
    (passed : passage.Passed) :
    Sustains [passage] passage.packet.flowKey transportId keyEpoch contractRevision where
  started := ⟨passage, rfl, started⟩
  sameTuple other member := by rw [mem_singleton.mp member]
  passed other member := by rw [mem_singleton.mp member]; exact passed
  noGap := isChain_singleton passage

/-- A packet in time extends the chain of its lease. -/
theorem Passage.Sustains.extend {chain : List Passage} {last : Passage}
    (sustains : Sustains (chain ++ [last]) passage.packet.flowKey transportId keyEpoch
      contractRevision) (passed : passage.Passed) (inTime : WithinTimeout last passage) :
    Sustains (chain ++ [last] ++ [passage]) passage.packet.flowKey transportId keyEpoch
      contractRevision where
  started := by
    obtain ⟨first, head, started⟩ := sustains.started
    exact ⟨first, by rw [head?_append, head]; rfl, started⟩
  sameTuple other member := by
    rcases mem_append.mp member with earlier | new
    · exact sustains.sameTuple other earlier
    · rw [mem_singleton.mp new]
  passed other member := by
    rcases mem_append.mp member with earlier | new
    · exact sustains.passed other earlier
    · rw [mem_singleton.mp new]
      exact passed
  noGap := by
    rw [isChain_append]
    refine ⟨sustains.noGap, isChain_singleton passage, ?_⟩
    intro final isLast next isNext
    rw [getLast?_concat] at isLast
    cases isLast
    cases isNext
    exact inTime

/-- A usable lease has not been idle for too long. -/
theorem withinTimeout_of_usable {earlier later : Passage}
    (seen : flow.lastSeenMonotonicNs = earlier.packet.nowNs)
    (usable : encryptionFlowIsUsable flow later.packet.observation.protocol
      later.packet.nowNs = true) : WithinTimeout earlier later := by
  unfold encryptionFlowIsUsable at usable
  split at usable
  · cases usable
  · next timeoutNs timeout =>
      rw [Bool.and_eq_true, decide_eq_true_eq, seen] at usable
      exact ⟨timeoutNs, timeout, usable.2⟩

/-! ## One packet -/

/-- The lease of a resumed tuple, with the packet itself at the end of its chain. -/
theorem exists_chain_of_resumed (passage : Passage) {transport : EncryptionTransportValue}
    (founded : LeasesFounded history passage.maps) (passed : passage.Passed)
    (lease : LeaseFor passage.maps passage.packet flow transport) :
    ∃ chain, chain.Sublist history ∧ chain ≠ [] ∧
      Sustains (chain ++ [passage]) passage.packet.flowKey flow.transportId flow.keyEpoch
        flow.contractRevision := by
  obtain ⟨chain, last, sublist, sustains, seen⟩ := founded _ _ lease.held
  exact ⟨chain ++ [last], sublist, by simp,
    sustains.extend passed (withinTimeout_of_usable seen lease.usable)⟩

include founded in
theorem leasesFounded_packet (packet : TcPacket) :
    LeasesFounded (history ++ [⟨maps, packet⟩]) (maps.step (.packet packet)) := by
  by_cases managed : packet.Managed
  · have outcome := applyEncryptionSelection_outcome maps managed
    simp only [EncryptionMaps.step]
    generalize result : applyEncryptionSelection maps packet = selection at outcome
    cases outcome with
    | native decision free decided => exact founded.mono _ (fun _ _ held => held) _
    | resumed flow transport mark lease carries _ marked =>
      have passed : Passage.Passed ⟨maps, packet⟩ := congrArg Selection.action result
      obtain ⟨chain, sublist, -, sustains⟩ :=
        exists_chain_of_resumed ⟨maps, packet⟩ founded passed lease
      exact founded.insert ⟨maps, packet⟩
        ⟨chain, ⟨maps, packet⟩, sublist.append (List.Sublist.refl _), sustains, rfl⟩
    | started decision transportId transport mark free starts decided carries _ marked =>
      have passed : Passage.Passed ⟨maps, packet⟩ := congrArg Selection.action result
      have started : StartedLease ⟨maps, packet⟩ transportId decision.keyEpoch
          decision.contractRevision :=
        ⟨starts, decision, transport, decided, carries, decided.keyEpoch.symm,
          decided.contractRevision.symm⟩
      exact founded.insert ⟨maps, packet⟩
        ⟨[], ⟨maps, packet⟩, sublist_append_right _ _, sustains_singleton started passed, rfl⟩
    | dropped => exact founded.mono _ (fun _ _ held => held) _
    | revoked => exact founded.mono _ (fun _ _ held => getElem?_of_erase held) _
  · have unmanaged : packet.observation.sourceIdentity.get = 0 ∨
        packet.observation.destinationIdentity.get = 0 := by
      by_contra both
      exact managed (not_or.mp both)
    refine founded.mono _ (fun flowKey flow held => ?_) _
    simpa only [EncryptionMaps.step, applyEncryptionSelection, if_pos unmanaged] using held

/-- A packet between two identities that is passed on leaves in one of the two ways. -/
theorem left_of_passed (founded : LeasesFounded history passage.maps)
    (managed : passage.packet.Managed) (passed : passage.Passed) :
    passage.LeftNatively ∨ passage.LeftEncrypted history := by
  have outcome := applyEncryptionSelection_outcome passage.maps managed
  generalize result : applyEncryptionSelection passage.maps passage.packet = selection at outcome
  have same : passage.selection = selection := result
  cases outcome with
  | native decision free decided =>
    refine .inl ⟨⟨decision, decided⟩, free, ?_⟩
    rw [same]
    exact clearEncryptionRouteMark_and_mask _
  | resumed flow transport mark lease carries _ marked =>
    obtain ⟨chain, sublist, nonempty, sustains⟩ :=
      exists_chain_of_resumed passage founded passed lease
    rw [lease.keyEpoch, lease.contractRevision] at sustains
    exact .inr ⟨flow.transportId, transport, carries.installed, carries.usable,
      by rw [same]; exact marked, .inr ⟨chain, sublist, nonempty, sustains⟩⟩
  | started decision transportId transport mark free starts decided carries _ marked =>
    exact .inr ⟨transportId, transport, carries.installed,
      encryptionTransportIsUsable_established carries.usable,
      by rw [same]; exact marked, .inl ⟨decision, decided, carries.usable⟩⟩
  | dropped =>
    rw [Passed, same] at passed
    cases passed
  | revoked =>
    rw [Passed, same] at passed
    cases passed

/-! ## Whole runs -/

include founded in
theorem leasesFounded_event (noPacket : ∀ packet, event ≠ .packet packet) :
    LeasesFounded history (maps.step event) := by
  have kept := founded.mono (maps.step event) ?_ []
  · rwa [append_nil] at kept
  · intro flowKey flow held
    cases event with
    | packet packet => exact absurd rfl (noPacket packet)
    | replaceConfig config => exact held
    | writeDecision key value => exact held
    | writeTransport key value => exact held
    | writeIpv4Path key value => exact held
    | writeIpv6Path key value => exact held
    | removeConnection key => exact getElem?_of_erase held

theorem passages_cons_of_noPacket (noPacket : ∀ packet, event ≠ .packet packet)
    (events : List EncryptionEvent) :
    passages maps (event :: events) = passages (maps.step event) events := by
  cases event with
  | packet packet => exact absurd rfl (noPacket packet)
  | _ => rfl

include founded in
/-- The leases that a packet meets are founded on the packets before it. -/
theorem leasesFounded_passages {events : List EncryptionEvent} {earlier later : List Passage}
    (split : passages maps events = earlier ++ passage :: later) :
    LeasesFounded (history ++ earlier) passage.maps := by
  induction events generalizing history maps earlier with
  | nil =>
    rw [passages] at split
    simp at split
  | cons event events ih =>
    by_cases noPacket : ∀ packet, event ≠ .packet packet
    · rw [passages_cons_of_noPacket noPacket] at split
      exact ih (leasesFounded_event founded noPacket) split
    · obtain ⟨packet, rfl⟩ : ∃ packet, event = .packet packet := by
        by_contra absent
        exact noPacket fun packet same => absent ⟨packet, same⟩
      rw [passages] at split
      cases earlier with
      | nil =>
        rw [nil_append, List.cons.injEq] at split
        rw [append_nil, ← split.1]
        exact founded
      | cons first earlier =>
        rw [cons_append, List.cons.injEq] at split
        have rest := ih (leasesFounded_packet founded packet) split.2
        rw [append_assoc, singleton_append, split.1] at rest
        exact rest

/-- In every run that starts without leases, a packet between two identities is passed on only
natively, by a usable decision for its pair and with its selector cleared, or with the selector
of a usable transport of the active bank, to which its pair is bound or which a packet of its
tuple started a lease of, with no idle gap since. -/
theorem passed_only_natively_or_encrypted (maps : EncryptionMaps)
    (noLeases : maps.connections = ∅) (events : List EncryptionEvent)
    (earlier later : List Passage) (passage : Passage)
    (split : passages maps events = earlier ++ passage :: later)
    (managed : passage.packet.Managed) (passed : passage.Passed) :
    passage.LeftNatively ∨ passage.LeftEncrypted earlier := by
  have initially : LeasesFounded [] maps := by
    intro flowKey flow held
    rw [noLeases] at held
    simp at held
  have founded := leasesFounded_passages initially split
  exact left_of_passed founded managed passed

/-! A bank with one transport, and the first two packets of a connection through it. -/

def oneTransportMaps : EncryptionMaps where
  config := ⟨1, 1, 1, 1, 1, 1, encryptionMapAbiVersion, 0, 1, 0⟩
  decisions := (∅ : ExtTreeMap EncryptionDecisionKey EncryptionDecisionValue).insert
    ⟨⟨1⟩, ⟨2⟩, 0⟩ ⟨7, 1, 1, 1, 1, 1, 1, encryptionMapAbiVersion,
      encryptionDispositionRequired, encryptionDecisionBaseFlags⟩
  transports := (∅ : ExtTreeMap EncryptionTransportKey EncryptionTransportValue).insert
    ⟨7, 0⟩ ⟨1, 1, 0, 0x00550100, 20001, 3, 1420, 1, 1, encryptionMapAbiVersion,
      encryptionTransportActive, encryptionTransportFlagKernelReadback⟩
  ipv4Paths := ∅
  ipv6Paths := ∅
  connections := ∅

def tcpPacket (tcpFlags : UInt8) (nowNs : UInt64) : TcPacket where
  observation := ⟨⟨1⟩, ⟨2⟩, .v4 0x0a2a0201, 6, tcpFlags⟩
  flowKey := ⟨0x0a2a0101, 0x0a2a0201, 40000, 80, 6, 4⟩
  mark := 0
  length := 100
  nowNs := nowNs
  policyRevision := 1
  serviceRevision := some 1
  insertSucceeds := true

def openingPassage : Passage :=
  ⟨oneTransportMaps, tcpPacket tcpFlagSyn 1000⟩

def followingPassage : Passage :=
  ⟨oneTransportMaps.step (.packet (tcpPacket tcpFlagSyn 1000)), tcpPacket tcpFlagAck 2000⟩

theorem followingPassage_left_encrypted : followingPassage.Passed ∧
      (followingPassage.LeftNatively ∨ followingPassage.LeftEncrypted [openingPassage]) := by
  have passed : followingPassage.Passed := by
    unfold Passage.Passed
    decide +kernel
  have managed : followingPassage.packet.Managed := by
    unfold TcPacket.Managed
    decide +kernel
  exact ⟨passed, passed_only_natively_or_encrypted oneTransportMaps rfl
    [.packet (tcpPacket tcpFlagSyn 1000), .packet (tcpPacket tcpFlagAck 2000)]
    [openingPassage] [] followingPassage rfl managed passed⟩

end Unf.Encryption
