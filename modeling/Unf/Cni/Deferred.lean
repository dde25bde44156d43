import Unf.Lib.Attempt
import Unf.Lib.Sorted

/-!
# The queue of deferred deletions

A deletion that cannot be carried out is kept as a file until a later invocation of the plugin
carries it out. The files of one network lie in a directory of their own, one directory for each
container and one file for each interface. Every call reads the whole directory of the network
back before it goes on, and accepts no file that is not a record.

The names of a key are names of files: the plugin has checked that they are no paths. Directories
are created where they are missing and removed where they are empty, and a missing one reads like
an empty one. So the files alone are kept, and a step on a directory leaves them as they are. The
attributes of files (owner, mode, links) are those with which the queue creates them.
-/

namespace Unf.Cni

open Unf.Lib
open Std (ExtTreeSet)

/-- The key of an attachment: one interface of one container in one network. -/
structure AttachmentKey where
  network : String
  containerId : String
  ifname : String
  deriving DecidableEq, Repr

namespace AttachmentKey

def sortKey (key : AttachmentKey) : String ×ₗ String ×ₗ String :=
  toLex (key.network, toLex (key.containerId, key.ifname))

instance : LinearOrder AttachmentKey :=
  LinearOrder.lift' sortKey <| by
    intro left right same
    cases left
    cases right
    simpa [sortKey] using same

end AttachmentKey

/-- Why a call on the queue fails. -/
inductive DeferredError where
  | io (error : FileError)
  | decode
  | schema (version : Nat)
  | differentKey
  | recordLimit
  | pathMismatch
  | tooManyRecords
  | changedBeforeCompletion
  deriving DecidableEq, Repr

def deferredDeleteSchemaVersion : Nat := 1

def maxPendingDeletes : Nat := 65536

/-- A deferred deletion as it is stored. -/
structure DeferredDeleteDocument where
  schemaVersion : Nat
  key : AttachmentKey
  deriving DecidableEq, Repr

/-- How a record is encoded: reading returns what was written. -/
structure DeferredCodec where
  encode : DeferredDeleteDocument → List UInt8
  decode : List UInt8 → Option DeferredDeleteDocument
  decode_encode : ∀ document, decode (encode document) = some document

deriving instance Countable for AttachmentKey, DeferredDeleteDocument

instance : Nonempty DeferredCodec := by
  obtain ⟨encode, decode, decode_encode⟩ := exists_encoding DeferredDeleteDocument []
  exact ⟨⟨fun document => encode document ++ [], decode, decode_encode⟩⟩

/-! ## Files and steps -/

/-- The directory and the name of a file. -/
abbrev Place := String ×ₗ String

/-- The files of one network. The keys whose record was put in place by a rename and has not been
removed since are remembered for the statements; no step reads them. -/
structure QueueTree where
  files : Files Place
  pending : ExtTreeSet AttachmentKey

/-- The files after each step of a call, and its result. -/
structure Trail (α : Type) where
  trees : List QueueTree
  result : Except DeferredError α

/-- The files when the process is killed after a number of steps. With a number beyond its steps
the call is not killed. -/
def Trail.treeAfter {α : Type} (trail : Trail α) (steps : Nat) (tree : QueueTree) : QueueTree :=
  (trail.trees.take steps).getLastD tree

def recordName (key : AttachmentKey) : String :=
  key.ifname ++ ".json"

def temporaryName (key : AttachmentKey) (processId : Nat) : String :=
  key.ifname ++ "." ++ toString processId ++ ".tmp"

def recordPlace (key : AttachmentKey) : Place :=
  toLex (key.containerId, recordName key)

def temporaryPlace (key : AttachmentKey) (processId : Nat) : Place :=
  toLex (key.containerId, temporaryName key processId)

section Calls

variable (codec : DeferredCodec)

variable (network : String) (key : AttachmentKey) (tree : QueueTree)

def recordBytes : List UInt8 :=
  codec.encode ⟨deferredDeleteSchemaVersion, key⟩

def load (bytes : List UInt8) : Except DeferredError DeferredDeleteDocument := do
  let document ← (codec.decode bytes).elim (.error .decode) .ok
  failIf (document.schemaVersion != deferredDeleteSchemaVersion)
    (.schema document.schemaVersion)
  pure document

/-- One file of the directory: its place is that of its key. -/
def loadEntry (entry : Place × List UInt8) : Except DeferredError AttachmentKey := do
  let document ← load codec entry.2
  failIf (document.key.network != network || entry.1 != recordPlace document.key) .pathMismatch
  pure document.key

/-- One more key, unless there are too many. -/
def pushPending (pending : List AttachmentKey) (key : AttachmentKey) :
    Except DeferredError (List AttachmentKey) := do
  failIf (maxPendingDeletes < (pending ++ [key]).length) .tooManyRecords
  pure (pending ++ [key])

/-- The files are read in the order of their directories and names. -/
def listUnlocked : Except DeferredError (List AttachmentKey) := do
  let pending ← tree.files.toList.foldlM
    (fun pending entry => loadEntry codec network entry >>= pushPending pending) []
  pure (sort pending)

/-- A file under the temporary name of a key, as far as it is written. -/
def QueueTree.withTemporary (processId written : Nat) (tree : QueueTree) : QueueTree :=
  { tree with files :=
      tree.files.insert (temporaryPlace key processId) ((recordBytes codec key).take written) }

/-- The temporary file becomes the record of its key. -/
def QueueTree.withRecord : QueueTree where
  files := tree.files.insert (recordPlace key) (recordBytes codec key)
  pending := tree.pending.insert key

/-- The two directories of a record are created, and the record is written byte by byte under its
temporary name and renamed. A temporary file that is there already is taken for a failure of the
call itself and removed. -/
def store (processId : Nat) (tree : QueueTree) : Trail Unit :=
  if tree.files.contains (temporaryPlace key processId) then
    { trees := [tree, tree, { tree with files := tree.files.erase (temporaryPlace key processId) }]
      result := .error (.io .alreadyExists) }
  else
    { trees := tree :: tree :: (List.range ((recordBytes codec key).length + 1)).map
        (fun written => tree.withTemporary codec key processId written) ++
          [tree.withRecord codec key]
      result := .ok () }

/-- A record that is already there is read back. -/
def confirm (bytes : List UInt8) : Except DeferredError Unit := do
  let document ← load codec bytes
  failIf (document.key != key) .differentKey

/-- The first step creates the root and takes the lock. -/
def enqueue (processId : Nat) (tree : QueueTree) : Trail Unit :=
  match tree.files[recordPlace key]? with
  | some bytes => ⟨[tree], confirm codec key bytes⟩
  | none =>
    match listUnlocked codec key.network tree with
    | .error error => ⟨[tree], .error error⟩
    | .ok pending =>
      if maxPendingDeletes ≤ pending.length then ⟨[tree], .error .recordLimit⟩
      else
        let stored := store codec key processId tree
        ⟨tree :: stored.trees, stored.result⟩

def list : Trail (List AttachmentKey) :=
  ⟨[tree], listUnlocked codec network tree⟩

/-- The record of a key is read back and removed, and then the directories that are empty. -/
def complete : Trail Unit :=
  match (tree.files[recordPlace key]?).elim (.error (.io .notFound)) (load codec) with
  | .error error => ⟨[], .error error⟩
  | .ok document =>
    if document.key ≠ key then ⟨[], .error .changedBeforeCompletion⟩
    else
      let removed : QueueTree :=
        ⟨tree.files.erase (recordPlace key), tree.pending.erase key⟩
      ⟨[removed, removed, removed], .ok ()⟩

end Calls

/-! ## Places -/

variable {key other : AttachmentKey}

theorem recordName_injective
    (same : recordName key = recordName other) : key.ifname = other.ifname := by
  rw [recordName, recordName] at same
  have lists := congrArg String.toList same
  rw [String.toList_append, String.toList_append] at lists
  exact String.toList_inj.mp (List.append_cancel_right lists)

/-- A key of the network is known by the place of its record. -/
theorem key_eq_of_recordPlace (networks : other.network = key.network)
    (same : recordPlace other = recordPlace key) : other = key := by
  obtain ⟨containers, names⟩ := Prod.ext_iff.mp (toLex.injective same)
  have interfaces := recordName_injective names
  cases key
  cases networks
  cases containers
  cases interfaces
  rfl

/-- A temporary file is never taken for a record. -/
theorem temporaryPlace_ne_recordPlace (key other : AttachmentKey) (processId : Nat) :
    temporaryPlace key processId ≠ recordPlace other := by
  intro same
  have names := (Prod.ext_iff.mp (toLex.injective same)).2
  have last := congrArg (fun name : String => name.toList.getLast?) names
  simp only [temporaryName, recordName, String.toList_append, List.getLast?_append] at last
  cases last

end Unf.Cni
