import Unf.Lib.OrderedMap
import Unf.Revision

/-!
# The history of the topology

The controller keeps the last states of the topology, each under the revision at which it was
captured. The history is written to a checkpoint, and a controller that starts reads it back
with all its checks. Of a captured state only the numbers are modelled that the history reads.
-/

namespace Unf.Topology

open Unf.Lib List Nat
open Std (ExtTreeSet)
open Unf.Service (Revision)

def topologySnapshotSchemaVersion : UInt16 := 3

def topologyHistoryCheckpointSchemaVersion : UInt16 := 1

def topologyHistoryCapacity : Nat := 32

/-- A state of the topology, under the epoch of its controller and the revision of the topology. -/
structure TopologyStateSnapshot where
  schemaVersion : UInt16
  sourceEpoch : UInt64
  revision : Revision
  deriving DecidableEq, Repr

/-- A snapshot and its time. -/
structure TopologyHistoryEntry where
  capturedAtUnixMs : UInt64
  snapshot : TopologyStateSnapshot
  deriving DecidableEq, Repr

/-- A history as it is stored. -/
structure TopologyHistoryCheckpoint where
  schemaVersion : UInt16
  evictedSnapshots : UInt64
  omittedSnapshots : UInt64
  entries : List TopologyHistoryEntry
  deriving DecidableEq, Repr

inductive TopologyHistoryCheckpointError where
  | unsupportedSchema (actual expected : UInt16)
  | capacityExceeded (actual capacity : Nat)
  | invalidTimestamp
  | unsupportedTopologySchema (actual : UInt16)
  | invalidRevisionOrder
  | duplicateFence
  deriving DecidableEq, Repr

/-- The last snapshots. -/
structure TopologyHistoryStore where
  capacity : Nat
  entries : List TopologyHistoryEntry
  evictedSnapshots : UInt64
  durableOmittedSnapshots : UInt64
  deriving DecidableEq, Repr

variable (store : TopologyHistoryStore)

namespace TopologyHistoryStore

def withCapacity (capacity : Nat) : TopologyHistoryStore :=
  ⟨capacity, [], 0, 0⟩

/-- The newest entry is of the same controller and revision as a state. -/
def holdsFence (snapshot : TopologyStateSnapshot) : Bool :=
  store.entries.getLast?.any fun latest =>
    latest.snapshot.sourceEpoch == snapshot.sourceEpoch &&
      latest.snapshot.revision == snapshot.revision

/-- A snapshot is added, and the oldest may go. -/
def record (snapshot : TopologyStateSnapshot) (capturedAtUnixMs : UInt64) : TopologyHistoryStore :=
  if store.capacity = 0 then
    { store with evictedSnapshots := saturatingAdd store.evictedSnapshots 1 }
  else if store.holdsFence snapshot then
    { store with entries := store.entries.dropLast ++ [⟨capturedAtUnixMs, snapshot⟩] }
  else if store.entries.length = store.capacity then
    { store with
      entries := store.entries.tail ++ [⟨capturedAtUnixMs, snapshot⟩]
      evictedSnapshots := saturatingAdd store.evictedSnapshots 1 }
  else
    { store with entries := store.entries ++ [⟨capturedAtUnixMs, snapshot⟩] }

/-- The newest entries, as many as the limit allows. -/
def checkpoint (entryLimit : Nat) : TopologyHistoryCheckpoint :=
  let omitted := store.entries.length - min store.entries.length entryLimit
  { schemaVersion := topologyHistoryCheckpointSchemaVersion
    evictedSnapshots := store.evictedSnapshots
    omittedSnapshots := saturatingAdd store.durableOmittedSnapshots (UInt64.ofNat omitted)
    entries := store.entries.drop omitted }

/-- The revision of the newest entry, and the initial one while there is none. -/
def latestRevision : Revision :=
  store.entries.getLast?.elim .initial fun entry => entry.snapshot.revision

end TopologyHistoryStore

/-- The fences and the last revision of the entries that have been read. -/
abbrev ReadEntries := ExtTreeSet (UInt64 ×ₗ UInt64) × Option UInt64

def checkEntry (read : ReadEntries) (entry : TopologyHistoryEntry) :
    Except TopologyHistoryCheckpointError ReadEntries := do
  let snapshot := entry.snapshot
  let revision := snapshot.revision.get
  failIf (entry.capturedAtUnixMs == 0) .invalidTimestamp
  failIf (snapshot.schemaVersion != topologySnapshotSchemaVersion)
    (.unsupportedTopologySchema snapshot.schemaVersion)
  failIf (read.1.contains (toLex (snapshot.sourceEpoch, revision))) .duplicateFence
  failIf (revision == 0 || read.2.any fun previous => revision ≤ previous) .invalidRevisionOrder
  pure (read.1.insert (toLex (snapshot.sourceEpoch, revision)), some revision)

def fromCheckpoint (checkpoint : TopologyHistoryCheckpoint) (capacity : Nat) :
    Except TopologyHistoryCheckpointError TopologyHistoryStore := do
  failIf (checkpoint.schemaVersion != topologyHistoryCheckpointSchemaVersion)
    (.unsupportedSchema checkpoint.schemaVersion topologyHistoryCheckpointSchemaVersion)
  failIf (capacity < checkpoint.entries.length)
    (.capacityExceeded checkpoint.entries.length capacity)
  let _ ← checkpoint.entries.foldlM checkEntry (∅, none)
  pure ⟨capacity, checkpoint.entries, checkpoint.evictedSnapshots, checkpoint.omittedSnapshots⟩

/-! ## What is read back -/

/-- An entry that passes the checks on its own. -/
structure TopologyHistoryEntry.Valid (entry : TopologyHistoryEntry) : Prop where
  captured : entry.capturedAtUnixMs ≠ 0
  schema : entry.snapshot.schemaVersion = topologySnapshotSchemaVersion
  revision : entry.snapshot.revision.get ≠ 0

/-- The revisions increase strictly, and each entry is valid. -/
structure Sound (entries : List TopologyHistoryEntry) : Prop where
  increasing : entries.Pairwise fun earlier later =>
    earlier.snapshot.revision < later.snapshot.revision
  valid : ∀ entry ∈ entries, entry.Valid

theorem Sound.nil : Sound [] :=
  ⟨.nil, by simp⟩

variable {entries : List TopologyHistoryEntry}
  {entry : TopologyHistoryEntry} {store : TopologyHistoryStore}

theorem sound_cons : Sound (entry :: entries) ↔ entry.Valid ∧ Sound entries ∧
      ∀ later ∈ entries, entry.snapshot.revision < later.snapshot.revision := by
  constructor
  · intro sound
    obtain ⟨least, increasing⟩ := pairwise_cons.mp sound.increasing
    obtain ⟨valid, others⟩ := forall_mem_cons.mp sound.valid
    exact ⟨valid, ⟨increasing, others⟩, least⟩
  · rintro ⟨valid, sound, least⟩
    exact ⟨pairwise_cons.mpr ⟨least, sound.increasing⟩, forall_mem_cons.mpr ⟨valid, sound.valid⟩⟩

theorem Sound.sublist {fewer : List TopologyHistoryEntry} (sound : Sound entries)
    (sublist : fewer.Sublist entries) : Sound fewer :=
  ⟨sound.increasing.sublist sublist, fun entry member => sound.valid entry (sublist.subset member)⟩

theorem sound_append_singleton {newest : TopologyHistoryEntry} :
    Sound (entries ++ [newest]) ↔ Sound entries ∧ newest.Valid ∧
      ∀ earlier ∈ entries, earlier.snapshot.revision < newest.snapshot.revision := by
  constructor
  · intro sound
    have before := (pairwise_append.mp sound.increasing).2.2
    exact ⟨sound.sublist (sublist_append_left entries [newest]), sound.valid newest (by simp),
      fun earlier member => before earlier member newest (by simp)⟩
  · rintro ⟨sound, valid, before⟩
    refine ⟨pairwise_append.mpr ⟨sound.increasing, pairwise_singleton _ _, ?_⟩, ?_⟩
    · intro earlier member last same
      rw [mem_singleton.mp same]
      exact before earlier member
    · intro entry member
      obtain earlier | same := mem_append.mp member
      · exact sound.valid entry earlier
      · exact mem_singleton.mp same ▸ valid

/-- An entry is accepted after others whose revisions are known to be no later. -/
theorem checkEntry_eq_ok {read after : ReadEntries}
    (ordered : ∀ fence ∈ read.1, ∃ previous ∈ read.2, (ofLex fence).2 ≤ previous) :
    checkEntry read entry = .ok after ↔
      entry.Valid ∧ (∀ previous ∈ read.2, previous < entry.snapshot.revision.get) ∧
        (read.1.insert (toLex (entry.snapshot.sourceEpoch, entry.snapshot.revision.get)),
          some entry.snapshot.revision.get) = after := by
  have fresh (later : ∀ previous ∈ read.2, previous < entry.snapshot.revision.get) :
      read.1.contains (toLex (entry.snapshot.sourceEpoch, entry.snapshot.revision.get)) =
        false := by
    rw [contains_eq_false_iff]
    intro member
    obtain ⟨previous, found, atMost⟩ := ordered _ member
    exact absurd (later previous found) (not_lt.mpr atMost)
  simp only [checkEntry, eq_ok_iffs, eq_false_iffs]
  have compared :
      (read.2.any fun previous => decide (entry.snapshot.revision.get ≤ previous)) = false ↔
        ∀ previous ∈ read.2, previous < entry.snapshot.revision.get := by
    cases read.2 <;> simp
  rw [compared]
  constructor
  · rintro ⟨captured, schema, _, ⟨revision, later⟩, same⟩
    exact ⟨⟨captured, schema, revision⟩, later, same⟩
  · rintro ⟨valid, later, same⟩
    exact ⟨valid.captured, valid.schema, fresh later, ⟨valid.revision, later⟩, same⟩

theorem foldlM_checkEntry {read : ReadEntries}
    (ordered : ∀ fence ∈ read.1, ∃ previous ∈ read.2, (ofLex fence).2 ≤ previous) :
    (∃ after, entries.foldlM checkEntry read = .ok after) ↔ Sound entries ∧
      ∀ entry ∈ entries, ∀ previous ∈ read.2, previous < entry.snapshot.revision.get := by
  induction entries generalizing read with
  | nil => simp [Sound.nil, pure, Except.pure]
  | cons entry entries ih =>
    have rest (later : ∀ previous ∈ read.2, previous < entry.snapshot.revision.get) :
        (∃ after, entries.foldlM checkEntry
          (read.1.insert (toLex (entry.snapshot.sourceEpoch, entry.snapshot.revision.get)),
            some entry.snapshot.revision.get) = .ok after) ↔ Sound entries ∧
          ∀ other ∈ entries, entry.snapshot.revision.get < other.snapshot.revision.get := by
      rw [ih]
      · simp
      · intro fence member
        refine ⟨_, rfl, ?_⟩
        obtain rfl | member := mem_set_insert.mp member
        · exact le_rfl
        · obtain ⟨previous, found, atMost⟩ := ordered fence member
          exact atMost.trans (later previous found).le
    simp only [foldlM_cons, bind_eq_ok, checkEntry_eq_ok ordered, sound_cons, forall_mem_cons]
    constructor
    · rintro ⟨after, _, ⟨valid, later, rfl⟩, read⟩
      obtain ⟨sound, least⟩ := (rest later).mp ⟨after, read⟩
      refine ⟨⟨valid, sound, least⟩, later, ?_⟩
      intro other member previous found
      exact (later previous found).trans (least other member)
    · rintro ⟨⟨valid, sound, least⟩, later, _⟩
      obtain ⟨after, read⟩ := (rest later).mpr ⟨sound, least⟩
      exact ⟨after, _, ⟨valid, later, rfl⟩, read⟩

/-- The checkpoints that are read back. -/
theorem exists_fromCheckpoint_iff {checkpoint : TopologyHistoryCheckpoint} {capacity : Nat} :
    (∃ store, fromCheckpoint checkpoint capacity = .ok store) ↔
      checkpoint.schemaVersion = topologyHistoryCheckpointSchemaVersion ∧
        checkpoint.entries.length ≤ capacity ∧ Sound checkpoint.entries := by
  have loop : (∃ after, checkpoint.entries.foldlM checkEntry (∅, none) = .ok after) ↔ _ :=
    foldlM_checkEntry (by simp)
  simp only [reduceCtorEq, Option.mem_def, false_implies, implies_true, and_true] at loop
  rw [← loop]
  simp only [fromCheckpoint, eq_ok_iffs, eq_false_iffs]
  constructor
  · rintro ⟨_, schema, fits, after, read, _⟩
    exact ⟨schema, fits, after, read⟩
  · rintro ⟨schema, fits, after, read⟩
    exact ⟨_, schema, fits, after, read, rfl⟩

/-- The checkpoint with all entries of a history is read back only when they are sound. -/
theorem TopologyHistoryStore.sound_of_accepted {restored : TopologyHistoryStore}
    (accepted : fromCheckpoint (store.checkpoint store.entries.length)
      topologyHistoryCapacity = .ok restored) : Sound store.entries := by
  have sound := (exists_fromCheckpoint_iff.mp ⟨restored, accepted⟩).2.2
  rwa [checkpoint, Nat.min_self, Nat.sub_self] at sound

theorem TopologyHistoryStore.checkpoint_accepted (sound : Sound store.entries)
    (fits : store.entries.length ≤ topologyHistoryCapacity) (entryLimit : Nat) : ∃ restored,
      fromCheckpoint (store.checkpoint entryLimit) topologyHistoryCapacity = .ok restored :=
  exists_fromCheckpoint_iff.mpr ⟨rfl, (drop_sublist _ _).length_le.trans fits,
    sound.sublist (drop_sublist _ _)⟩

/-! ## Recording -/

section Record

variable {store : TopologyHistoryStore} {snapshot : TopologyStateSnapshot} {now : UInt64}

theorem TopologyHistoryStore.holdsFence_iff :
    store.holdsFence snapshot = true ↔ ∃ earlier newest, store.entries = earlier ++ [newest] ∧
      newest.snapshot.sourceEpoch = snapshot.sourceEpoch ∧
        newest.snapshot.revision = snapshot.revision := by
  rw [holdsFence, Option.any_eq_true]
  simp only [getLast?_eq_some_iff, Bool.and_eq_true, beq_iff_eq]
  exact ⟨fun ⟨newest, ⟨earlier, same⟩, fence⟩ => ⟨earlier, newest, same, fence⟩,
    fun ⟨earlier, newest, same, fence⟩ => ⟨newest, ⟨earlier, same⟩, fence⟩⟩

/-- A state under the fence of the newest entry replaces it. -/
theorem TopologyHistoryStore.record_of_holdsFence (room : store.capacity ≠ 0)
    (holds : store.holdsFence snapshot = true) :
    (store.record snapshot now).entries = store.entries.dropLast ++ [⟨now, snapshot⟩] := by
  rw [record, if_neg room, if_pos holds]

/-- Any other state is added after the entries, of which the first one may go. -/
theorem TopologyHistoryStore.record_of_not_holdsFence (room : 1 < store.capacity)
    (fits : store.entries.length ≤ store.capacity) (other : store.holdsFence snapshot = false) :
    ∃ kept, (store.record snapshot now).entries = kept ++ [⟨now, snapshot⟩] ∧
      kept.length < store.capacity ∧ kept.Sublist store.entries ∧
        kept.getLast? = store.entries.getLast? := by
  rw [record, if_neg (ne_of_gt (zero_lt_of_lt room)), other, if_neg Bool.false_ne_true]
  split
  next full =>
    refine ⟨store.entries.tail, rfl, ?_, tail_sublist _, ?_⟩
    · rw [length_tail, full]
      exact sub_lt (zero_lt_of_lt room) one_pos
    · rw [getLast?_tail, if_neg]
      rw [full]
      exact ne_of_gt room
  next notFull => exact ⟨store.entries, rfl, lt_of_le_of_ne fits notFull, .refl _, rfl⟩

@[simp] theorem TopologyHistoryStore.capacity_record :
    (store.record snapshot now).capacity = store.capacity := by
  rw [record]
  split
  · rfl
  · split
    · rfl
    · split <;> rfl

theorem TopologyHistoryStore.latestRevision_append {earlier : List TopologyHistoryEntry}
    {newest : TopologyHistoryEntry} (same : store.entries = earlier ++ [newest]) :
    store.latestRevision = newest.snapshot.revision := by
  rw [latestRevision, same, getLast?_append_of_ne_nil _ (cons_ne_nil _ _)]
  rfl

theorem Sound.le_latestRevision (sound : Sound store.entries) {entry : TopologyHistoryEntry}
    (member : entry ∈ store.entries) : entry.snapshot.revision ≤ store.latestRevision := by
  obtain nothing | ⟨earlier, newest, same⟩ := eq_nil_or_concat store.entries
  · rw [nothing] at member
    cases member
  · rw [concat_eq_append] at same
    rw [TopologyHistoryStore.latestRevision_append same]
    rw [same] at sound member
    obtain before | last := mem_append.mp member
    · exact ((sound_append_singleton.mp sound).2.2 entry before).le
    · rw [mem_singleton.mp last]

end Record

end Unf.Topology
