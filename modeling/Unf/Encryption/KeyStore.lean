import Unf.Encryption.KeyAuthority
import Unf.Lib.Replace

/-!
# The store of the key authority

The authority is kept in one file. A new version is written beside it under a temporary name
that is always the same, and then renamed over it. The directory maps names to contents; any
step of a write may fail, and the process may be killed before or after any step.
-/

namespace Unf.Encryption

open Unf.Lib Attempt Std.ExtTreeMap List

/-! ## Writing and reading -/

/-- How a checkpoint is encoded: reading returns what was written, with its final newline. -/
structure AuthorityCodec where
  encode : PersistedAuthorityDocument → List UInt8
  decode : List UInt8 → Option PersistedAuthorityDocument
  decode_encode : ∀ document, decode (encode document ++ [10]) = some document

deriving instance Countable for Service.Revision, PeerEpochAcknowledgement,
  EpochReadinessCertificate, KeyEpochPhase, CausalEpochBarrier, PersistedLocalKeyEpoch,
  PersistedAuthorityDocument

instance : Nonempty AuthorityCodec := by
  obtain ⟨encode, decode, decode_encode⟩ := exists_encoding PersistedAuthorityDocument [10]
  exact ⟨⟨encode, decode, decode_encode⟩⟩

/-- The directory of the store. What the last completed rename has put in place is remembered
for the statements; no step reads it. -/
structure KeyDirectory where
  files : Files String
  lastRenamed : Option NodeKeyAuthority

namespace KeyDirectory

def empty : KeyDirectory :=
  ⟨∅, none⟩

/-- A change of the files alone. -/
def change (effect : Files String → Except FileError (Files String)) (directory : KeyDirectory) :
    Except KeyAuthorityError KeyDirectory :=
  ((effect directory.files).mapError .io).map fun files => { directory with files }

end KeyDirectory

/-- How the steps of one write go. -/
structure PersistFates where
  inspect : Fate KeyAuthorityError
  replace : ReplaceFates KeyAuthorityError
  openParent : Fate KeyAuthorityError
  syncParent : Fate KeyAuthorityError
  inspectResult : Fate KeyAuthorityError

def temporaryName (name : String) : String :=
  "." ++ name ++ ".tmp"

/-- The file at a path is in order; it may have to exist. -/
def validateStoragePath (name : String) (fileRequired : Bool) (directory : KeyDirectory) :
    Except KeyAuthorityError KeyDirectory := do
  failIf (fileRequired && !directory.files.contains name) (.io .notFound)
  pure directory

section Store

variable (primitives : KeyPrimitives) (codec : AuthorityCodec) (name : String)

variable (authority : NodeKeyAuthority)

/-- The bytes of a checkpoint. -/
def checkpointBytes : List UInt8 :=
  codec.encode (.fromAuthority primitives authority) ++ [10]

/-- The temporary file takes the place of the checkpoint. -/
def replaceCheckpoint (directory : KeyDirectory) : Except KeyAuthorityError KeyDirectory :=
  (directory.change (Files.rename (temporaryName name) name)).map fun replaced =>
    { replaced with lastRenamed := some authority }

/-- The temporary file is created, written and renamed. -/
def checkpointReplacement : Replacement KeyDirectory KeyAuthorityError where
  create := KeyDirectory.change (Files.createNew (temporaryName name))
  bytes := checkpointBytes primitives codec authority
  write bytes directory :=
    { directory with files := directory.files.insert (temporaryName name) bytes }
  rename := replaceCheckpoint name authority
  remove := KeyDirectory.change (Files.remove (temporaryName name))

/-- The steps after the rename, which change no file. -/
def confirmCheckpoint (fates : PersistFates) : Attempt KeyDirectory KeyAuthorityError Unit := do
  .step fates.openParent .ok
  .step fates.syncParent .ok
  .step fates.inspectResult (validateStoragePath name true)

def persist (fates : PersistFates) : Attempt KeyDirectory KeyAuthorityError Unit := do
  .ofExcept (authority.validate primitives)
  .step fates.inspect (validateStoragePath name false)
  let directory ← Attempt.look
  .ofExcept (failIf (directory.files.contains (temporaryName name)) .unsafeStoragePath)
  (checkpointReplacement primitives codec name authority).perform fates.replace
    (confirmCheckpoint name fates)

def restore (expectedClusterId expectedNodeName expectedNodeUid : String)
    (directory : KeyDirectory) : Except KeyAuthorityError NodeKeyAuthority := do
  let _ ← validateStoragePath name true directory
  let bytes ← directory.files[name]?.elim (.error (.io .notFound)) .ok
  let document ← (codec.decode bytes).elim (.error .json) .ok
  document.intoAuthority primitives expectedClusterId expectedNodeName expectedNodeUid

end Store

/-! ## Checkpoints read back -/

theorem fromZeroizing_bytes (key : WireGuardPrivateKey) :
    WireGuardPrivateKey.fromZeroizing key.bytes = .ok key := by
  rw [WireGuardPrivateKey.fromZeroizing, dif_neg key.nonzero]

theorem restored_persisted (epoch : LocalKeyEpoch) : epoch.persisted.restored = .ok epoch := by
  rw [PersistedLocalKeyEpoch.restored, LocalKeyEpoch.persisted, fromZeroizing_bytes]
  rfl

theorem mapM_restored (epochs : List LocalKeyEpoch) :
    (epochs.map LocalKeyEpoch.persisted).mapM PersistedLocalKeyEpoch.restored = .ok epochs := by
  rw [mapM_eq_ok_iff, forall₂_map_left_iff, forall₂_same]
  intro epoch _
  exact restored_persisted epoch

section Checkpoints

variable {primitives : KeyPrimitives} {codec : AuthorityCodec} {name : String}
  {authority : NodeKeyAuthority} {directory : KeyDirectory}

variable (valid : authority.validate primitives = .ok ())

include valid

theorem schemaVersion_of_validate :
    authority.schemaVersion = nodeKeyAuthoritySchemaVersion := by
  rw [NodeKeyAuthority.validate, failIf_bind_eq_ok, bne_eq_false_iff_eq] at valid
  exact valid.1

theorem intoAuthority_fromAuthority :
    (PersistedAuthorityDocument.fromAuthority primitives authority).intoAuthority primitives
      authority.clusterId authority.nodeName authority.nodeUid = .ok authority := by
  simp only [PersistedAuthorityDocument.intoAuthority, bind_eq_ok, failIf_eq_ok, eq_false_iffs]
  exact ⟨(), schemaVersion_of_validate valid, (), rfl, (), ⟨⟨rfl, rfl⟩, rfl⟩, authority.epochs,
    mapM_restored authority.epochs, (), valid, rfl⟩

omit valid in
theorem validateStoragePath_of_present {contents : List UInt8}
    (stored : directory.files[name]? = some contents) (fileRequired : Bool) :
    validateStoragePath name fileRequired directory = .ok directory := by
  have present : directory.files.contains name = true := by
    rw [contains_eq_isSome_getElem?, stored, Option.isSome_some]
  rw [validateStoragePath, present, Bool.not_true, Bool.and_false]
  rfl

/-- A checkpoint of an authority reads back as this authority. -/
theorem restore_of_checkpoint
    (stored : directory.files[name]? = some (checkpointBytes primitives codec authority)) :
    restore primitives codec name authority.clusterId authority.nodeName authority.nodeUid
      directory = .ok authority := by
  rw [restore, validateStoragePath_of_present stored, ok_bind, stored, Option.elim_some, ok_bind,
    checkpointBytes, codec.decode_encode]
  exact intoAuthority_fromAuthority valid

omit valid

theorem restore_of_absent (absent : directory.files[name]? = none)
    (clusterId nodeName nodeUid : String) :
    restore primitives codec name clusterId nodeName nodeUid directory =
      .error (.io .notFound) := by
  have missing : directory.files.contains name = false := by
    rw [contains_eq_isSome_getElem?, absent, Option.isSome_none]
  rw [restore, validateStoragePath, missing]
  rfl

end Checkpoints

/-! ## What a write leaves behind -/

theorem temporaryName_ne (name : String) : temporaryName name ≠ name := by
  intro same
  have lengths := congrArg String.length same
  simp only [temporaryName, String.length_append] at lengths
  have dot : ".".length = 1 := rfl
  omega

namespace PersistFates

/-- A write that starts without a temporary file ends with one. -/
def leavesTemporary (fates : PersistFates) : Bool :=
  fates.inspect == .succeeds && fates.replace.leavesTemporary

/-- No step fails or is cut short. -/
structure AllSucceed (fates : PersistFates) : Prop where
  inspect : fates.inspect = .succeeds
  replace : fates.replace.AllSucceed
  openParent : fates.openParent = .succeeds
  syncParent : fates.syncParent = .succeeds
  inspectResult : fates.inspectResult = .succeeds

/-- The fates of steps that all succeed. -/
def good : PersistFates :=
  ⟨.succeeds, .good, .succeeds, .succeeds, .succeeds⟩

theorem good_allSucceed : good.AllSucceed :=
  ⟨rfl, ReplaceFates.good_allSucceed, rfl, rfl, rfl⟩

end PersistFates

section Steps

variable (primitives : KeyPrimitives) (codec : AuthorityCodec) (name : String)

/-- The checkpoint is the one of a directory, and the temporary file may be there. -/
structure KeepsCheckpoint (before : KeyDirectory) (temporary : Bool) (after : KeyDirectory) :
    Prop where
  temporary : after.files.contains (temporaryName name) = temporary
  checkpoint : after.files[name]? = before.files[name]?
  lastRenamed : after.lastRenamed = before.lastRenamed

/-- The checkpoint is the one of an authority, and the temporary file is gone. -/
structure HasCheckpoint (authority : NodeKeyAuthority) (after : KeyDirectory) : Prop where
  temporary : after.files.contains (temporaryName name) = false
  checkpoint : after.files[name]? = some (checkpointBytes primitives codec authority)
  lastRenamed : after.lastRenamed = some authority

variable {primitives codec name} {authority : NodeKeyAuthority}
  {before directory after : KeyDirectory} {fates : PersistFates}

theorem checkpointReplacement_create (kept : KeepsCheckpoint name before false directory) :
    ∃ after, (checkpointReplacement primitives codec name authority).create directory = .ok after ∧
      KeepsCheckpoint name before true after := by
  refine ⟨{ directory with files := directory.files.insert (temporaryName name) [] }, ?_,
    contains_insert_self, ?_, kept.lastRenamed⟩
  · simp only [checkpointReplacement, KeyDirectory.change, Files.createNew, kept.temporary]
    rfl
  · rw [getElem?_map_insert, if_neg (temporaryName_ne name), kept.checkpoint]

theorem KeepsCheckpoint.write (kept : KeepsCheckpoint name before true directory)
    (bytes : List UInt8) :
    KeepsCheckpoint name before true
      { directory with files := directory.files.insert (temporaryName name) bytes } where
  temporary := contains_insert_self
  checkpoint := by
    rw [getElem?_map_insert, if_neg (temporaryName_ne name), kept.checkpoint]
  lastRenamed := kept.lastRenamed

theorem replaceCheckpoint_eq (directory : KeyDirectory)
    (written : directory.files[temporaryName name]? =
      some (checkpointBytes primitives codec authority)) :
    ∃ replaced, replaceCheckpoint name authority directory = .ok replaced ∧
      HasCheckpoint primitives codec name authority replaced := by
  refine ⟨⟨(directory.files.erase (temporaryName name)).insert name
    (checkpointBytes primitives codec authority), some authority⟩, ?_, ?_, ?_, rfl⟩
  · rw [replaceCheckpoint, KeyDirectory.change, Files.rename, written]
    rfl
  · rw [map_contains_eq_false_iff]
    simp [(temporaryName_ne name).symm]
  · exact getElem?_insert_self

theorem KeepsCheckpoint.remove (kept : KeepsCheckpoint name before true directory) :
    ∃ after, directory.change (Files.remove (temporaryName name)) = .ok after ∧
      KeepsCheckpoint name before false after := by
  refine ⟨{ directory with files := directory.files.erase (temporaryName name) }, ?_, ?_, ?_,
    kept.lastRenamed⟩
  · rw [KeyDirectory.change, Files.remove, kept.temporary]
    rfl
  · rw [map_contains_eq_false_iff]
    simp
  · rw [getElem?_map_erase, if_neg (temporaryName_ne name), kept.checkpoint]

theorem change_remove_absent (absent : directory.files.contains (temporaryName name) = false) :
    directory.change (Files.remove (temporaryName name)) ≠ .ok after := by
  rw [KeyDirectory.change, Files.remove, absent]
  nofun

/-- The stages of a write: the checkpoint stays the old one up to the rename. -/
theorem checkpointReplacement_stages :
    (checkpointReplacement primitives codec name authority).Stages
      (KeepsCheckpoint name before false) (KeepsCheckpoint name before true)
      (fun directory => KeepsCheckpoint name before true directory ∧
        directory.files[temporaryName name]? = some (checkpointBytes primitives codec authority))
      (HasCheckpoint primitives codec name authority) where
  create _ := checkpointReplacement_create
  write bytes _ kept := kept.write bytes
  complete _ kept := ⟨kept.write _, getElem?_insert_self⟩
  kept _ := And.left
  rename directory written := replaceCheckpoint_eq directory written.2
  remove _ := KeepsCheckpoint.remove
  nothing_old _ _ kept := change_remove_absent kept.temporary
  nothing_new _ _ held := change_remove_absent held.temporary

theorem confirmCheckpoint_preserves (primitives : KeyPrimitives) (codec : AuthorityCodec)
    (name : String) (authority : NodeKeyAuthority) (fates : PersistFates) :
    (confirmCheckpoint name fates).Preserves (HasCheckpoint primitives codec name authority) := by
  apply Attempt.Preserves.bind
  · apply preserves_step
    intro state after held done
    exact Except.ok.inj done ▸ held
  intro _
  apply Attempt.Preserves.bind
  · apply preserves_step
    intro state after held done
    exact Except.ok.inj done ▸ held
  intro _
  apply preserves_step
  intro state after held done
  rw [validateStoragePath_of_present held.checkpoint] at done
  exact Except.ok.inj done ▸ held

/-- What is left by a write that started with a directory: the new checkpoint without a temporary
file, or the old one, with the temporary file if the flag says so. -/
def LeavesCheckpoint (primitives : KeyPrimitives) (codec : AuthorityCodec) (name : String)
    (authority : NodeKeyAuthority) (before : KeyDirectory) (temporary : Bool)
    (after : KeyDirectory) : Prop :=
  (HasCheckpoint primitives codec name authority after ∧ temporary = false) ∨
    KeepsCheckpoint name before temporary after

/-- One write that starts without a temporary file. -/
theorem persist_spec (valid : authority.validate primitives = .ok ())
    (fresh : before.files.contains (temporaryName name) = false) :
    LeavesCheckpoint primitives codec name authority before fates.leavesTemporary
      ((persist primitives codec name authority fates).run before).state := by
  have inspected : validateStoragePath name false before = .ok before := rfl
  have kept : KeepsCheckpoint name before false before := ⟨fresh, rfl, rfl⟩
  rw [persist, valid, ofExcept_ok_bind]
  cases fate : fates.inspect with
  | fails error =>
    rw [PersistFates.leavesTemporary, fate]
    exact .inr kept
  | killedBefore =>
    rw [PersistFates.leavesTemporary, fate]
    exact .inr kept
  | killedAfter =>
    rw [PersistFates.leavesTemporary, fate]
    exact .inr kept
  | succeeds =>
    have left : Replacement.Leaves (KeepsCheckpoint name before false)
        (KeepsCheckpoint name before true) (HasCheckpoint primitives codec name authority)
        fates.replace.renames fates.replace.leavesTemporary _ :=
      checkpointReplacement_stages.perform
        (confirmCheckpoint_preserves primitives codec name authority fates) kept
    rw [bind_of_returned (step_of_ok inspected), look_bind, fresh,
      PersistFates.leavesTemporary, fate]
    cases renamed : fates.replace.renames with
    | true =>
      rw [renamed] at left
      exact .inl ⟨left, ReplaceFates.leavesTemporary_of_renames renamed⟩
    | false =>
      rw [renamed] at left
      cases temporary : fates.replace.leavesTemporary <;> rw [temporary] at left <;>
        exact .inr left

/-- With a temporary file in the directory nothing is ever written. -/
theorem persist_of_temporary (present : before.files.contains (temporaryName name) = true) :
    ((persist primitives codec name authority fates).run before).state = before ∧
      ∀ after, (persist primitives codec name authority fates).run before ≠ .returned () after := by
  have inspected : validateStoragePath name false before = .ok before := rfl
  rw [persist]
  cases authority.validate primitives with
  | error error =>
    rw [ofExcept_error_bind]
    exact ⟨rfl, by simp⟩
  | ok =>
    rw [ofExcept_ok_bind]
    cases fates.inspect with
    | fails error =>
      rw [bind_of_failed (step_fails error)]
      exact ⟨rfl, by simp⟩
    | killedBefore =>
      rw [bind_of_killed step_killedBefore]
      exact ⟨rfl, by simp⟩
    | killedAfter =>
      rw [bind_of_killed (step_killedAfter_of_ok inspected)]
      exact ⟨rfl, by simp⟩
    | succeeds =>
      rw [bind_of_returned (step_of_ok inspected), look_bind, present]
      exact ⟨rfl, nofun⟩

theorem persist_of_invalid (invalid : authority.validate primitives ≠ .ok ()) :
    ((persist primitives codec name authority fates).run directory).state = directory := by
  rw [persist]
  cases checked : authority.validate primitives with
  | error error =>
    rfl
  | ok => exact absurd checked invalid

/-- Without a temporary file, a write whose steps all succeed returns. -/
theorem persist_returns (valid : authority.validate primitives = .ok ())
    (fresh : before.files.contains (temporaryName name) = false) (all : fates.AllSucceed) :
    ∃ after, (persist primitives codec name authority fates).run before = .returned () after ∧
      HasCheckpoint primitives codec name authority after := by
  have confirmed : ∀ reached, HasCheckpoint primitives codec name authority reached →
      (confirmCheckpoint name fates).run reached = .returned () reached := by
    intro reached held
    rw [confirmCheckpoint, all.openParent, all.syncParent, all.inspectResult,
      bind_of_returned (step_of_ok rfl), bind_of_returned (step_of_ok rfl),
      step_of_ok (validateStoragePath_of_present held.checkpoint true)]
  have inspected : validateStoragePath name false before = .ok before := rfl
  rw [persist, valid, ofExcept_ok_bind, all.inspect,
    bind_of_returned (step_of_ok inspected), look_bind, fresh]
  exact checkpointReplacement_stages.perform_run all.replace ⟨fresh, rfl, rfl⟩ confirmed

end Steps

/-! ## Sequences of writes -/

/-- One call of `persist`, and how its steps go. -/
structure PersistCall where
  authority : NodeKeyAuthority
  fates : PersistFates

section Calls

variable (primitives : KeyPrimitives) (codec : AuthorityCodec) (name : String)

variable (directory : KeyDirectory) (call : PersistCall)

/-- The directory after one call. -/
def afterCall : KeyDirectory :=
  ((persist primitives codec name call.authority call.fates).run directory).state

/-- The directory after a sequence of calls on an empty one. -/
def afterCalls (calls : List PersistCall) : KeyDirectory :=
  calls.foldl (afterCall primitives codec name) .empty

/-- A call that gets to its steps and leaves the temporary file behind. -/
def PersistCall.LeavesTemporary : Prop :=
  call.authority.validate primitives = .ok () ∧ call.fates.leavesTemporary = true

/-- The file is the checkpoint that the last completed rename has put in place. -/
def Consistent : Prop :=
  match directory.lastRenamed with
  | none => directory.files[name]? = none
  | some authority => authority.validate primitives = .ok () ∧
      directory.files[name]? = some (checkpointBytes primitives codec authority)

/-- The store has lost nothing and can go on: a restore returns the authority of the last
completed rename, or reports that there is none, and the next write in which no step fails
succeeds and is what is restored from then on. -/
structure Recovers (calls : List PersistCall) : Prop where
  restores : match (afterCalls primitives codec name calls).lastRenamed with
    | none => ∀ clusterId nodeName nodeUid, restore primitives codec name clusterId nodeName
        nodeUid (afterCalls primitives codec name calls) = .error (.io .notFound)
    | some authority => restore primitives codec name authority.clusterId authority.nodeName
        authority.nodeUid (afterCalls primitives codec name calls) = .ok authority
  goesOn : ∀ (authority : NodeKeyAuthority) (fates : PersistFates),
    authority.validate primitives = .ok () → fates.AllSucceed →
      ∃ after, (persist primitives codec name authority fates).run
          (afterCalls primitives codec name calls) = .returned () after ∧
        restore primitives codec name authority.clusterId authority.nodeName authority.nodeUid
          after = .ok authority

/-- A call that gets to its steps finds no temporary file and leaves what its fates say, or it
changes nothing. -/
theorem afterCall_cases :
    (afterCall primitives codec name directory call = directory ∧
      (directory.files.contains (temporaryName name) = true ∨
        call.authority.validate primitives ≠ .ok ())) ∨
    (directory.files.contains (temporaryName name) = false ∧
      call.authority.validate primitives = .ok () ∧
      LeavesCheckpoint primitives codec name call.authority directory call.fates.leavesTemporary
        (afterCall primitives codec name directory call)) := by
  cases present : directory.files.contains (temporaryName name) with
  | true => exact .inl ⟨(persist_of_temporary present).1, .inl rfl⟩
  | false =>
    by_cases valid : call.authority.validate primitives = .ok ()
    · exact .inr ⟨rfl, valid, persist_spec valid present⟩
    · exact .inl ⟨persist_of_invalid valid, .inr valid⟩

/-- The temporary file is there exactly when some call has left it. -/
theorem contains_temporary_afterCalls (calls : List PersistCall) :
    (afterCalls primitives codec name calls).files.contains (temporaryName name) = true ↔
      ∃ call ∈ calls, call.LeavesTemporary primitives := by
  induction calls using reverseRecOn with
  | nil => simp [afterCalls, KeyDirectory.empty]
  | append_singleton calls call ih =>
    rw [afterCalls, foldl_concat]
    change (Encryption.afterCall primitives codec name
      (afterCalls primitives codec name calls) call).files.contains _ = true ↔ _
    simp only [mem_append, mem_singleton, or_and_right, exists_or, exists_eq_left, ← ih]
    obtain ⟨same, reason⟩ | ⟨fresh, valid, left⟩ :=
      afterCall_cases primitives codec name (afterCalls primitives codec name calls) call
    · rw [same]
      refine ⟨.inl, fun found => found.elim id fun leaves => ?_⟩
      exact reason.elim id fun invalid => absurd leaves.1 invalid
    · have flag : (Encryption.afterCall primitives codec name
          (afterCalls primitives codec name calls) call).files.contains (temporaryName name) =
          call.fates.leavesTemporary := by
        obtain ⟨checkpoint, unset⟩ | kept := left
        · rw [checkpoint.temporary, unset]
        · exact kept.temporary
      rw [flag, fresh, PersistCall.LeavesTemporary]
      simp [valid]

variable {primitives codec name} {directory : KeyDirectory}

theorem Consistent.afterCall (consistent : Consistent primitives codec name directory)
    (call : PersistCall) :
    Consistent primitives codec name (afterCall primitives codec name directory call) := by
  obtain ⟨same, -⟩ | ⟨-, valid, ⟨checkpoint, -⟩ | kept⟩ :=
    afterCall_cases primitives codec name directory call
  · rw [same]
    exact consistent
  · rw [Consistent, checkpoint.lastRenamed]
    exact ⟨valid, checkpoint.checkpoint⟩
  · rw [Consistent, kept.lastRenamed, kept.checkpoint]
    exact consistent

theorem consistent_afterCalls (calls : List PersistCall) :
    Consistent primitives codec name (afterCalls primitives codec name calls) := by
  induction calls using reverseRecOn with
  | nil => exact getElem?_empty
  | append_singleton calls call ih =>
    rw [afterCalls, foldl_concat]
    exact ih.afterCall call

theorem restores_afterCalls (calls : List PersistCall) :
    match (afterCalls primitives codec name calls).lastRenamed with
    | none => ∀ clusterId nodeName nodeUid, restore primitives codec name clusterId nodeName
        nodeUid (afterCalls primitives codec name calls) = .error (.io .notFound)
    | some authority => restore primitives codec name authority.clusterId authority.nodeName
        authority.nodeUid (afterCalls primitives codec name calls) = .ok authority := by
  have consistent : Consistent primitives codec name (afterCalls primitives codec name calls) :=
    consistent_afterCalls calls
  rw [Consistent] at consistent
  split at consistent
  next => exact restore_of_absent consistent
  next authority renamed => exact restore_of_checkpoint consistent.1 consistent.2

/-- The store recovers from a sequence of writes exactly when none of them was killed while its
temporary file was there. -/
theorem recovers_iff_no_temporary_left (primitives : KeyPrimitives) (codec : AuthorityCodec)
    (name : String) (calls : List PersistCall) : Recovers primitives codec name calls ↔
      ∀ call ∈ calls, ¬call.LeavesTemporary primitives := by
  constructor
  · intro recovers call member leaves
    have present := (contains_temporary_afterCalls primitives codec name calls).mpr
      ⟨call, member, leaves⟩
    obtain ⟨after, returned, -⟩ := recovers.goesOn call.authority .good leaves.1
      PersistFates.good_allSucceed
    exact (persist_of_temporary present).2 after returned
  · intro clean
    refine ⟨restores_afterCalls calls, ?_⟩
    intro authority fates valid all
    have fresh : (afterCalls primitives codec name calls).files.contains
        (temporaryName name) = false := by
      rw [← Bool.not_eq_true, contains_temporary_afterCalls]
      rintro ⟨call, member, leaves⟩
      exact clean call member leaves
    obtain ⟨after, returned, checkpoint⟩ := persist_returns valid fresh all
    exact ⟨after, returned, restore_of_checkpoint valid checkpoint.checkpoint⟩

end Calls

/-! ## A write that is killed -/

/-- Hash functions that do not tell anything apart. -/
def constantPrimitives : KeyPrimitives where
  publication _ := 0
  cut _ := 0
  publicKey _ := 0
  barrier _ := 0
  readiness _ _ _ := 0
  drainProof _ := 0
  revocation _ := 0
  round _ := 0
  attestationCut _ := 0
  checkpoint _ := 0
  derivePublicKey _ := 1
  derivePublicKey_ne_zero _ := by decide

/-- A fresh authority. -/
def freshAuthority : NodeKeyAuthority where
  schemaVersion := nodeKeyAuthoritySchemaVersion
  clusterId := "cluster-a"
  nodeName := "worker-a"
  nodeUid := "node-uid-a"
  keyRevision := .initial
  nextEpoch := 1
  retiredThroughEpoch := 0
  revokedThroughEpoch := 0
  epochs := []

/-- The process is killed right after it has created the temporary file. -/
def killedAfterCreate : PersistFates :=
  { PersistFates.good with replace := { ReplaceFates.good with create := .killedAfter } }

theorem freshAuthority_valid (primitives : KeyPrimitives) :
    freshAuthority.validate primitives = .ok () := by
  have identity : validateIdentity "cluster-a" "worker-a" "node-uid-a" = .ok () := by
    decide +kernel
  simp only [NodeKeyAuthority.validate, freshAuthority, identity, bind_eq_ok]
  exact ⟨(), rfl, (), trivial, (), rfl, _, rfl, rfl⟩

/-- One write that is killed between the creation and the rename of its temporary file stops
every later write. -/
theorem killed_write_does_not_recover : ∃ codec : AuthorityCodec,
      ¬Recovers constantPrimitives codec "keys.json" [⟨freshAuthority, killedAfterCreate⟩] := by
  obtain ⟨codec⟩ : Nonempty AuthorityCodec := inferInstance
  refine ⟨codec, fun recovers => ?_⟩
  have present := (contains_temporary_afterCalls constantPrimitives codec "keys.json" _).mpr
    ⟨⟨freshAuthority, killedAfterCreate⟩, List.mem_singleton_self _,
      freshAuthority_valid constantPrimitives, rfl⟩
  obtain ⟨after, returned, -⟩ := recovers.goesOn freshAuthority .good
    (freshAuthority_valid constantPrimitives) PersistFates.good_allSucceed
  exact (persist_of_temporary present).2 after returned

end Unf.Encryption
