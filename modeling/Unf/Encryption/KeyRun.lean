import Unf.Encryption.KeyAuthoritySpec
import Unf.Encryption.KeyStore

/-!
# Runs of a durable key authority

A node binds its authority from the store, or creates it, and performs operations on it. A change
is written to the store before it is taken over in memory, so that the store may be ahead of the
memory when a write fails after its rename. Writes may fail and the process may be killed at any
step; after a restart the authority is restored.
-/

namespace Unf.Encryption

open Std (ExtTreeSet)
open Unf.Lib List NodeKeyAuthority Option
open Unf.Service (Revision)

/-! ## Operations and events -/

/-- The operations of an authority. -/
inductive KeyOperation where
  | prepare (topologyRevision : Revision) (requiredPeerUids : ExtTreeSet String)
      (validFromUnixMs validUntilUnixMs : UInt64)
      (generated : Except KeyAuthorityError WireGuardPrivateKey)
  | acknowledge (authenticatedPeerNodeUid : String) (acknowledgement : PeerEpochAcknowledgement)
      (nowUnixMs : UInt64)
  | acknowledgeCut (cut : NodeKeyAttestationCut) (nowUnixMs : UInt64)
  | activate (epoch : UInt64) (currentTopologyRevision : Revision)
      (nowUnixMs drainWindowMs : UInt64)
  | retire (proof : EpochDrainProof) (nowUnixMs : UInt64)
  | revoke (epoch : UInt64) (reason : EpochRevocationReason) (nowUnixMs : UInt64)

/-- The candidate of an operation. Acknowledgements that change nothing have none. -/
def KeyOperation.candidate (primitives : KeyPrimitives) (authority : NodeKeyAuthority) :
    KeyOperation → Except KeyAuthorityError (Option NodeKeyAuthority)
  | prepare topologyRevision requiredPeerUids validFrom validUntil generated =>
    (authority.prepareEpoch primitives topologyRevision requiredPeerUids validFrom validUntil
      generated).map some
  | acknowledge peer acknowledgement now =>
    authority.acknowledgeEpoch primitives peer acknowledgement now
  | acknowledgeCut cut now => authority.acknowledgeAttestationCut primitives cut now
  | activate epoch topologyRevision now drainWindow =>
    (authority.activateEpoch primitives epoch topologyRevision now drainWindow).map some
  | retire proof now => (authority.retireDrainedEpoch primitives proof now).map some
  | revoke epoch reason now =>
    (authority.revokeThrough primitives epoch reason now).map fun result => some result.1

/-- What happens to a node: it binds its authority, performs an operation, or is killed. The
fates are those of the write. -/
inductive KeyEvent where
  | bind (fates : PersistFates)
  | perform (operation : KeyOperation) (fates : PersistFates)
  | crash

/-- How an operation ends. -/
inductive KeyReply where
  | done
  | failed (error : KeyAuthorityError)
  | killed

/-- The authority in memory and the directory of the store. -/
structure KeyNode where
  memory : Option NodeKeyAuthority
  directory : KeyDirectory

section Run

variable (primitives : KeyPrimitives) (codec : AuthorityCodec) (name : String)
  (identity : AuthenticatedNodeIdentity)

/-- Write a candidate, and take it over when the write has returned. -/
def KeyNode.commit (node : KeyNode) (candidate : NodeKeyAuthority) (fates : PersistFates) :
    KeyNode × KeyReply :=
  match (persist primitives codec name candidate fates).run node.directory with
  | .returned _ directory => (⟨some candidate, directory⟩, .done)
  | .failed error directory => (⟨node.memory, directory⟩, .failed error)
  | .killed directory => (⟨none, directory⟩, .killed)

/-- What a node binds: the authority in its store, or a new one. -/
def KeyNode.stored (node : KeyNode) : Except KeyAuthorityError NodeKeyAuthority :=
  if node.directory.files.contains name then
    restore primitives codec name identity.clusterId identity.nodeName identity.nodeUid
      node.directory
  else
    NodeKeyAuthority.new identity.clusterId identity.nodeName identity.nodeUid

/-- One event at a node. -/
def KeyNode.step (node : KeyNode) : KeyEvent → KeyNode × KeyReply
  | .crash => (⟨none, node.directory⟩, .killed)
  | .bind fates =>
    match node.memory with
    | some _ => (node, .done)
    | none =>
      match node.stored primitives codec name identity with
      | .error error => (node, .failed error)
      | .ok authority => node.commit primitives codec name authority fates
  | .perform operation fates =>
    match node.memory with
    | none => (node, .failed .invalidDurableState)
    | some authority =>
      match operation.candidate primitives authority with
      | .error error => (node, .failed error)
      | .ok none => (node, .done)
      | .ok (some candidate) => node.commit primitives codec name candidate fates

/-- A node without an authority, on an empty directory. -/
def KeyNode.initial : KeyNode :=
  ⟨none, .empty⟩

/-- The node after a sequence of events. -/
def KeyNode.after (node : KeyNode) (events : List KeyEvent) : KeyNode :=
  events.foldl (fun node event => (node.step primitives codec name identity event).1) node

end Run

/-! ## Writes -/

section Writes

variable {primitives : KeyPrimitives} {codec : AuthorityCodec} {name : String}
  {authority : NodeKeyAuthority} {fates : PersistFates} {before after : KeyDirectory}

/-- The last rename was that of an authority. -/
def Renamed (authority : NodeKeyAuthority) (directory : KeyDirectory) : Prop :=
  directory.lastRenamed = some authority

/-- A write that returns has passed its rename. -/
theorem persist_returns_renamed
    (ran : (persist primitives codec name authority fates).run before = .returned () after) :
    Renamed authority after := by
  obtain ⟨⟨⟩, _, -, steps⟩ := Attempt.bind_eq_returned ran
  obtain ⟨⟨⟩, inspected, -, steps⟩ := Attempt.bind_eq_returned steps
  rw [Attempt.look_bind] at steps
  cases fresh : inspected.files.contains (temporaryName name) with
  | true =>
    rw [fresh] at steps
    cases steps
  | false =>
    rw [fresh] at steps
    have left : Replacement.Leaves (KeepsCheckpoint name inspected false)
        (KeepsCheckpoint name inspected true) (HasCheckpoint primitives codec name authority)
        fates.replace.renames fates.replace.leavesTemporary _ :=
      checkpointReplacement_stages.perform
        (confirmCheckpoint_preserves primitives codec name authority fates) ⟨fresh, rfl, rfl⟩
    rw [Replacement.renames_of_returned steps] at left
    have stored : (((checkpointReplacement primitives codec name authority).perform
        fates.replace (confirmCheckpoint name fates)).run inspected).state = after :=
      congrArg Outcome.state steps
    rw [stored] at left
    exact left.lastRenamed

/-- A write leaves the checkpoint of its authority or the one before it. -/
theorem lastRenamed_persist (primitives : KeyPrimitives) (codec : AuthorityCodec) (name : String)
    (authority : NodeKeyAuthority) (fates : PersistFates) (before : KeyDirectory) :
    Renamed authority ((persist primitives codec name authority fates).run before).state ∨
      ((persist primitives codec name authority fates).run before).state.lastRenamed =
        before.lastRenamed := by
  obtain ⟨same, -⟩ | ⟨-, -, ⟨checkpoint, -⟩ | kept⟩ :=
    afterCall_cases primitives codec name before ⟨authority, fates⟩
  · exact .inr (congrArg KeyDirectory.lastRenamed same)
  · exact .inl checkpoint.lastRenamed
  · exact .inr kept.lastRenamed

end Writes

/-! ## Steps -/

/-- An operation that has a candidate returns a valid successor. -/
theorem candidate_advances {primitives : KeyPrimitives} {authority candidate : NodeKeyAuthority}
    {operation : KeyOperation}
    (computed : operation.candidate primitives authority = .ok (some candidate)) :
    Advances primitives authority candidate := by
  cases operation with
  | prepare topologyRevision peers validFrom validUntil generated =>
    obtain ⟨next, prepared, same⟩ := exists_of_map_eq_ok computed
    cases same
    exact prepareEpoch_advances prepared
  | acknowledge peer acknowledgement now => exact acknowledgeEpoch_advances computed
  | acknowledgeCut cut now => exact acknowledgeAttestationCut_advances computed
  | activate epoch topologyRevision now window =>
    obtain ⟨next, activated, same⟩ := exists_of_map_eq_ok computed
    cases same
    exact activateEpoch_advances activated
  | retire proof now =>
    obtain ⟨next, retired, same⟩ := exists_of_map_eq_ok computed
    cases same
    exact (retireDrainedEpoch_advances retired).1
  | revoke epoch reason now =>
    obtain ⟨⟨next, receipt⟩, revoked, same⟩ := exists_of_map_eq_ok computed
    cases same
    exact (revokeThrough_advances revoked).1

theorem Succeeds.identity {earlier later : NodeKeyAuthority} (succeeds : Succeeds earlier later) :
    later.identity = earlier.identity := by
  rw [NodeKeyAuthority.identity, NodeKeyAuthority.identity, succeeds.clusterId, succeeds.nodeName,
    succeeds.nodeUid]

section Steps

variable (primitives : KeyPrimitives) (codec : AuthorityCodec) (name : String)
  (identity : AuthenticatedNodeIdentity)

/-- The store holds a valid authority of the node, which is the one in memory or a successor of
it. -/
structure KeyNode.Sound (node : KeyNode) : Prop where
  consistent : Consistent primitives codec name node.directory
  stored : ∀ authority, node.directory.lastRenamed = some authority →
    authority.identity = identity
  memory : ∀ authority, node.memory = some authority →
    authority.validate primitives = .ok () ∧ authority.identity = identity ∧
      ∃ written, node.directory.lastRenamed = some written ∧ Succeeds authority written

/-- What a node has in memory and in its store comes after an authority. -/
structure KeyNode.Follows (node : KeyNode) (earlier : NodeKeyAuthority) : Prop where
  memory : ∀ authority, node.memory = some authority → Succeeds earlier authority
  stored : ∃ written, node.directory.lastRenamed = some written ∧ Succeeds earlier written

/-- How a commit ends: with the candidate in memory and in the store, or with the memory as it
was or lost, and with the store as it was or ahead of the memory. -/
theorem commit_cases (node : KeyNode) (candidate : NodeKeyAuthority) (fates : PersistFates) :
    let after := node.commit primitives codec name candidate fates
    (after.1.memory = some candidate ∧ after.1.directory.lastRenamed = some candidate ∧
      after.2 = .done) ∨
    ((after.1.memory = node.memory ∨ after.1.memory = none) ∧ after.2 ≠ .done ∧
      (after.1.directory.lastRenamed = some candidate ∨
        after.1.directory.lastRenamed = node.directory.lastRenamed)) := by
  intro after
  have renamed := lastRenamed_persist primitives codec name candidate fates node.directory
  cases ran : (persist primitives codec name candidate fates).run node.directory with
  | returned value directory =>
    have step : after = (⟨some candidate, directory⟩, .done) := by
      simp only [after, KeyNode.commit, ran]
    rw [step]
    exact .inl ⟨rfl, persist_returns_renamed ran, rfl⟩
  | failed error directory =>
    have step : after = (⟨node.memory, directory⟩, .failed error) := by
      simp only [after, KeyNode.commit, ran]
    rw [step]
    rw [ran] at renamed
    exact .inr ⟨.inl rfl, by simp, renamed⟩
  | killed directory =>
    have step : after = (⟨none, directory⟩, .killed) := by
      simp only [after, KeyNode.commit, ran]
    rw [step]
    rw [ran] at renamed
    exact .inr ⟨.inr rfl, by simp, renamed⟩

variable {primitives codec name identity} {node : KeyNode} {candidate : NodeKeyAuthority}
  {fates : PersistFates}

variable {authority earlier : NodeKeyAuthority} (sound : node.Sound primitives codec name identity)

include sound in
theorem KeyNode.Sound.follows (current : node.memory = some authority) :
    node.Follows authority := by
  refine ⟨fun other same => ?_, (sound.memory authority current).2.2⟩
  obtain rfl : authority = other := some.inj (current.symm.trans same)
  exact .refl authority

theorem consistent_commit (consistent : Consistent primitives codec name node.directory) :
    Consistent primitives codec name
      (node.commit primitives codec name candidate fates).1.directory := by
  have kept := consistent.afterCall ⟨candidate, fates⟩
  rw [afterCall] at kept
  rw [KeyNode.commit]
  cases ran : (persist primitives codec name candidate fates).run node.directory <;>
    rw [ran] at kept <;> exact kept

include sound in
/-- A commit of a valid successor of what the node has. -/
theorem KeyNode.Sound.commit (valid : candidate.validate primitives = .ok ())
    (own : candidate.identity = identity)
    (ahead : ∀ authority, node.memory = some authority → Succeeds authority candidate) :
    (node.commit primitives codec name candidate fates).1.Sound primitives codec name identity := by
  refine ⟨consistent_commit sound.consistent, ?_, ?_⟩
  · intro authority written
    obtain ⟨-, renamed, -⟩ | ⟨-, -, renamed | same⟩ := commit_cases primitives codec name
      node candidate fates
    · rw [renamed] at written
      exact some.inj written ▸ own
    · rw [renamed] at written
      exact some.inj written ▸ own
    · exact sound.stored authority (same ▸ written)
  · intro authority current
    obtain ⟨memory, renamed, -⟩ | ⟨memory | lost, -, stored⟩ := commit_cases
      primitives codec name node candidate fates
    · obtain rfl : candidate = authority := some.inj (memory.symm.trans current)
      exact ⟨valid, own, candidate, renamed, .refl candidate⟩
    · rw [memory] at current
      obtain ⟨currentValid, currentOwn, written, same, succeeds⟩ := sound.memory authority current
      refine ⟨currentValid, currentOwn, ?_⟩
      obtain renamed | unchanged := stored
      · exact ⟨candidate, renamed, ahead authority current⟩
      · exact ⟨written, unchanged.trans same, succeeds⟩
    · rw [lost] at current
      cases current

theorem KeyNode.Follows.commit (follows : node.Follows earlier)
    (ahead : Succeeds earlier candidate) :
    (node.commit primitives codec name candidate fates).1.Follows earlier := by
  obtain ⟨memory, renamed, -⟩ | ⟨memory, -, stored⟩ := commit_cases primitives codec name
    node candidate fates
  · refine ⟨fun authority current => ?_, candidate, renamed, ahead⟩
    exact some.inj (memory.symm.trans current) ▸ ahead
  · refine ⟨fun authority current => ?_, ?_⟩
    · obtain same | lost := memory
      · exact follows.memory authority (same ▸ current)
      · rw [lost] at current
        cases current
    · obtain renamed | unchanged := stored
      · exact ⟨candidate, renamed, ahead⟩
      · exact unchanged ▸ follows.stored

theorem new_valid
    (created : new identity.clusterId identity.nodeName identity.nodeUid =
      .ok authority) : authority.validate primitives = .ok () ∧ authority.identity = identity := by
  simp only [new, eq_ok_iffs] at created
  obtain ⟨checked, rfl⟩ := created
  refine ⟨?_, rfl⟩
  simp only [validate, bind_eq_ok]
  exact ⟨(), rfl, (), checked, (), rfl, _, rfl, rfl⟩

include sound

/-- What a node without an authority binds: the one in its store, or a new one when the store is
empty. -/
theorem KeyNode.Sound.stored_eq_ok
    (bound : node.stored primitives codec name identity = .ok authority) :
    authority.validate primitives = .ok () ∧ authority.identity = identity ∧
      ∀ written, node.directory.lastRenamed = some written → authority = written := by
  have consistent := sound.consistent
  rw [Consistent] at consistent
  rw [KeyNode.stored, Std.ExtTreeMap.contains_eq_isSome_getElem?] at bound
  cases renamed : node.directory.lastRenamed with
  | none =>
    rw [renamed] at consistent
    rw [consistent] at bound
    obtain ⟨valid, own⟩ := new_valid bound
    exact ⟨valid, own, by simp⟩
  | some written =>
    rw [renamed] at consistent
    obtain ⟨valid, file⟩ := consistent
    have own := sound.stored written renamed
    have restored := restore_of_checkpoint valid file
    rw [file, ← own, NodeKeyAuthority.identity, restored] at bound
    obtain rfl := Except.ok.inj bound
    exact ⟨valid, own, fun other same => some.inj same⟩

/-- An event changes nothing, loses the memory, or commits a valid authority of the node that
comes after all that the node has. -/
theorem KeyNode.Sound.step_cases (event : KeyEvent) :
    let after := (node.step primitives codec name identity event).1
    after = node ∨ after = ⟨none, node.directory⟩ ∨ ∃ candidate fates,
      after = (node.commit primitives codec name candidate fates).1 ∧
        candidate.validate primitives = .ok () ∧ candidate.identity = identity ∧
        ∀ earlier, node.Follows earlier → Succeeds earlier candidate := by
  cases event with
  | crash => exact .inr (.inl rfl)
  | bind fates =>
    simp only [KeyNode.step]
    cases memory : node.memory with
    | some current => exact .inl rfl
    | none =>
      cases bound : node.stored primitives codec name identity with
      | error error => exact .inl rfl
      | ok authority =>
        obtain ⟨valid, own, stored⟩ := sound.stored_eq_ok bound
        refine .inr (.inr ⟨authority, fates, rfl, valid, own, fun earlier follows => ?_⟩)
        obtain ⟨written, renamed, succeeds⟩ := follows.stored
        exact stored written renamed ▸ succeeds
  | perform operation fates =>
    simp only [KeyNode.step]
    cases memory : node.memory with
    | none => exact .inl rfl
    | some authority =>
      dsimp only
      cases computed : operation.candidate primitives authority with
      | error error => exact .inl rfl
      | ok changed =>
        cases changed with
        | none => exact .inl rfl
        | some candidate =>
          have advances := candidate_advances computed
          refine .inr (.inr ⟨candidate, fates, rfl, advances.valid, ?_, fun earlier follows => ?_⟩)
          · exact advances.identity.trans (sound.memory authority memory).2.1
          · exact (follows.memory authority memory).trans advances.toSucceeds

theorem KeyNode.Sound.step (event : KeyEvent) :
    (node.step primitives codec name identity event).1.Sound primitives codec name identity := by
  obtain same | lost | ⟨candidate, fates, commits, valid, own, ahead⟩ := sound.step_cases event
  · rwa [same]
  · rw [lost]
    exact ⟨sound.consistent, sound.stored, by simp⟩
  · rw [commits]
    exact sound.commit valid own fun authority current => ahead _ (sound.follows current)

theorem KeyNode.Follows.step (follows : node.Follows earlier) (event : KeyEvent) :
    (node.step primitives codec name identity event).1.Follows earlier := by
  obtain same | lost | ⟨candidate, fates, commits, -, -, ahead⟩ := sound.step_cases event
  · rwa [same]
  · rw [lost]
    exact ⟨by simp, follows.stored⟩
  · rw [commits]
    exact follows.commit (ahead earlier follows)

end Steps

/-! ## Runs -/

section Runs

variable {primitives : KeyPrimitives} {codec : AuthorityCodec} {name : String}
  {identity : AuthenticatedNodeIdentity} {node : KeyNode} {events : List KeyEvent}
  {authority : NodeKeyAuthority} {operation : KeyOperation} {epoch : UInt64}

section Sound

variable (sound : node.Sound primitives codec name identity)
include sound

variable {earlier : NodeKeyAuthority}

end Sound

end Runs

end Unf.Encryption
