import Unf.Topology.Watch

/-!
# When the history stays current

A state is captured under the revision of the last change. The first capture of a controller
needs a change of its own: without one it repeats the revision of the controller before it, or
has the revision zero, and the history is not read back again. And a listing that is begun again
before it is finished counts as unfinished for good, so that no later change is captured.

The revision stops at the end of its range, where a change is no longer one that advances it.
-/

namespace Unf.Topology

open Unf.Lib List TopologyHistoryStore
open Unf.Service (Revision)

/-! ## What the events say -/

/-- How far the listing of a watch is. -/
inductive Listing where
  | unlisted
  | listing
  | listed
  deriving DecidableEq, Repr

/-- What has come of the changes that advance the revision since the start of a controller: there
were none, the last one came while a listing was unfinished, or no listing was unfinished after it.
It is spoiled when a state is captured before the first one, or while the clock stands at zero. -/
inductive Recording where
  | untouched
  | behind
  | recorded
  | spoiled
  deriving DecidableEq, Repr

/-- A state is captured. -/
def Recording.settle (now : UInt64) : Recording → Recording
  | untouched | spoiled => spoiled
  | behind | recorded => if now = 0 then spoiled else recorded

/-- What the events since the start of a controller amount to, with the number of listings that
were begun and not finished, which a counter of 64 bits has. -/
structure Watching where
  listing : Watch → Listing
  unfinished : UInt64
  recording : Recording

namespace Watching

/-- Nothing is listed. A controller that has drawn the epoch of the newest entry it restores goes on
as the controller that has captured it. -/
def start (resumed : Bool) : Watching :=
  ⟨fun _ => .unlisted, 0, if resumed then .recorded else .untouched⟩

/-- A change, by whether it advances the revision. -/
def change (advances : Bool) (now : UInt64) (watching : Watching) : Watching :=
  let recording := if advances then .behind else watching.recording
  { watching with
    recording := if watching.unfinished = 0 then recording.settle now else recording }

/-- A listing begins. -/
def begin (watch : Watch) (watching : Watching) : Watching :=
  { watching with
    listing := Function.update watching.listing watch .listing
    unfinished := watching.unfinished + 1 }

/-- A listing ends. The last one to end captures a state. -/
def finish (watch : Watch) (now : UInt64) (watching : Watching) : Watching where
  listing := Function.update watching.listing watch
    (if watching.listing watch = .listing then .listed else watching.listing watch)
  unfinished := if watching.unfinished = 0 then 0 else watching.unfinished - 1
  recording :=
    if watching.unfinished = 1 then watching.recording.settle now else watching.recording

/-- One event of a watch, by whether it changes an object and a change advances the revision. -/
def apply {Object : Type} (watch : Watch) (event : WatchEvent Object) (changes advances : Bool)
    (now : UInt64) (watching : Watching) : Watching :=
  match event with
  | .init =>
    if changes then (watching.begin watch).change advances now else watching.begin watch
  | .initDone => watching.finish watch now
  | .initApply _ | .apply _ | .delete _ =>
    if changes then watching.change advances now else watching

/-- The last listing of every watch is finished. -/
def AllListed (watching : Watching) : Prop :=
  ∀ watch, watching.listing watch = .listed

/-- No state is captured before the first change that advances the revision, and no such change is
left that came while a listing was unfinished when the last listing of every watch is finished. -/
structure Undisturbed (watching : Watching) : Prop where
  unspoiled : watching.recording ≠ .spoiled
  notBehind : watching.AllListed → watching.recording ≠ .behind

end Watching

/-- The controller, beside what its events say. -/
structure Tracked (sources : Sources) where
  world : World sources
  watching : Watching

namespace Tracked

variable {sources : Sources}

/-- Before the first controller starts. -/
def initial : Tracked sources :=
  ⟨.initial, .start false⟩

/-- What the events amount to after one more. -/
def watchingAfter (tracked : Tracked sources) : ControllerEvent sources → Watching
  | .watch watch event now =>
    tracked.world.controller.elim tracked.watching fun controller =>
      tracked.watching.apply watch event ((controller.stores watch).handle event).2
        (controller.revision.next ≠ controller.revision) now
  | .persist _ => tracked.watching
  | .restart epoch now => .start ((tracked.world.restart epoch now).controller.any fun controller =>
      controller.history.holdsFence controller.topologySnapshot)

def step (tracked : Tracked sources) (event : ControllerEvent sources) : Tracked sources :=
  ⟨tracked.world.step event, tracked.watchingAfter event⟩

/-- The controller after a sequence of events, the first start included. -/
def run (events : List (ControllerEvent sources)) : Tracked sources :=
  events.foldl step initial

end Tracked

/-- What the history of a controller has to keep. -/
structure Intact {sources : Sources} (controller : Controller sources) (watching : Watching) :
    Prop where
  current : watching.AllListed → controller.history.latestRevision = controller.revision
  increasing : controller.history.entries.Pairwise fun earlier later =>
    earlier.snapshot.revision < later.snapshot.revision
  nonzero : ∀ entry ∈ controller.history.entries, entry.snapshot.revision ≠ .initial
  restorable : ∀ entryLimit, ∃ restored,
    fromCheckpoint (controller.history.checkpoint entryLimit) topologyHistoryCapacity =
      .ok restored

/-! ## Captures -/

/-- A state that is captured. -/
abbrev stateOf (epoch : UInt64) (revision : Revision) : TopologyStateSnapshot :=
  ⟨topologySnapshotSchemaVersion, epoch, revision⟩

/-- A history that is read back. -/
structure Ordered (history : TopologyHistoryStore) : Prop where
  capacity : history.capacity = topologyHistoryCapacity
  fits : history.entries.length ≤ topologyHistoryCapacity
  sound : Sound history.entries

/-- The history by what has come of the changes. -/
def Standing (epoch : UInt64) (revision : Revision) (history : TopologyHistoryStore) :
    Recording → Prop
  | .untouched => Ordered history ∧ history.latestRevision = revision ∧
      history.holdsFence (stateOf epoch revision) = false
  | .behind => Ordered history ∧ history.latestRevision < revision
  | .recorded => Ordered history ∧ history.holdsFence (stateOf epoch revision) = true
  | .spoiled => ¬Sound history.entries

section Captures

variable {epoch : UInt64} {revision : Revision} {history : TopologyHistoryStore}
  {recording : Recording} (standing : Standing epoch revision history recording)

include standing

variable (unspoiled : recording ≠ .spoiled)

include unspoiled

theorem Standing.ordered : Ordered history := by
  cases recording with
  | untouched => exact standing.1
  | behind => exact standing.1
  | recorded => exact standing.1
  | spoiled => exact absurd rfl unspoiled

/-- The newest entry has the current revision unless the last change was not captured. -/
theorem Standing.latestRevision_eq_iff :
    history.latestRevision = revision ↔ recording ≠ .behind := by
  cases recording with
  | untouched => simp [standing.2.1]
  | behind => simp [standing.2.ne]
  | recorded =>
    obtain ⟨earlier, newest, same, -, rfl⟩ := holdsFence_iff.mp standing.2
    simp [latestRevision_append same]
  | spoiled => exact absurd rfl unspoiled

/-- A change, before it is captured. -/
theorem Standing.advance : Standing epoch revision.next history
      (if revision.next ≠ revision then .behind else recording) := by
  split
  next advances =>
    refine ⟨standing.ordered unspoiled, lt_of_le_of_lt ?_ (Revision.lt_next advances)⟩
    by_cases behind : recording = .behind
    · subst behind
      exact standing.2.le
    · exact ((standing.latestRevision_eq_iff unspoiled).mpr behind).le
  next stopped =>
    rw [not_not.mp stopped]
    exact standing

omit standing

omit unspoiled in
/-- A state that is added or replaces the newest one, after entries of earlier revisions. -/
theorem Ordered.settle (ordered : Ordered history) {kept : List TopologyHistoryEntry}
    {now : UInt64} (recorded : (history.record (stateOf epoch revision) now).entries =
      kept ++ [⟨now, stateOf epoch revision⟩])
    (fits : kept.length < topologyHistoryCapacity) (sublist : kept.Sublist history.entries)
    (before : ∀ entry ∈ kept, entry.snapshot.revision < revision) (nonzero : revision.get ≠ 0) :
    Standing epoch revision (history.record (stateOf epoch revision) now)
      (if now = 0 then .spoiled else .recorded) := by
  split
  next stopped =>
    rw [Standing, recorded, sound_append_singleton]
    exact fun sound => sound.2.1.captured stopped
  next clock =>
    refine ⟨⟨capacity_record.trans ordered.capacity, ?_, ?_⟩,
      holdsFence_iff.mpr ⟨kept, _, recorded, rfl, rfl⟩⟩
    · rw [recorded, length_append]
      exact fits
    · rw [recorded, sound_append_singleton]
      exact ⟨ordered.sound.sublist sublist, ⟨clock, rfl, nonzero⟩, before⟩

omit unspoiled in
/-- A state under a fence that the newest entry does not have. -/
theorem Ordered.record (ordered : Ordered history) (now : UInt64)
    (other : history.holdsFence (stateOf epoch revision) = false) :
    ∃ kept, (history.record (stateOf epoch revision) now).entries =
        kept ++ [⟨now, stateOf epoch revision⟩] ∧
      kept.length < topologyHistoryCapacity ∧ kept.Sublist history.entries ∧
        kept.getLast? = history.entries.getLast? := by
  have capacity := ordered.capacity
  have room : 1 < history.capacity := by
    rw [capacity]
    decide
  rw [← capacity]
  exact record_of_not_holdsFence room (capacity ▸ ordered.fits) other

include standing in
/-- The state is captured. -/
theorem Standing.capture (now : UInt64) :
    Standing epoch revision (history.record (stateOf epoch revision) now)
      (recording.settle now) := by
  have ordered := standing.ordered unspoiled
  cases recording with
  | untouched =>
    -- Nothing has changed: the revision is the one of the newest entry, or zero.
    obtain ⟨-, latest, other⟩ := standing
    obtain ⟨kept, recorded, -, -, last⟩ := ordered.record now other
    rw [Recording.settle, Standing, recorded, sound_append_singleton]
    rintro ⟨_, valid, before⟩
    rw [latestRevision, ← last] at latest
    cases newest : kept.getLast? with
    | none =>
      rw [newest] at latest
      exact valid.revision (congrArg Revision.get latest.symm)
    | some entry =>
      rw [newest] at latest
      exact (before entry (mem_of_getLast? newest)).ne latest
  | behind =>
    obtain ⟨-, behind⟩ := standing
    have other : history.holdsFence (stateOf epoch revision) = false := by
      rw [← Bool.not_eq_true, holdsFence_iff]
      rintro ⟨earlier, newest, same, -, sameRevision⟩
      exact behind.ne ((latestRevision_append same).trans sameRevision)
    obtain ⟨kept, recorded, fits, sublist, -⟩ := ordered.record now other
    refine ordered.settle recorded fits sublist ?_ (ne_of_gt (UInt64.zero_le.trans_lt behind))
    intro entry member
    exact (ordered.sound.le_latestRevision (sublist.subset member)).trans_lt behind
  | recorded =>
    obtain ⟨-, holds⟩ := standing
    obtain ⟨earlier, newest, same, -, sameRevision⟩ := holdsFence_iff.mp holds
    change newest.snapshot.revision = revision at sameRevision
    have sound := ordered.sound
    have fits := ordered.fits
    rw [same] at sound fits
    rw [length_append] at fits
    obtain ⟨-, valid, before⟩ := sound_append_singleton.mp sound
    refine ordered.settle ?_ fits ?_ (sameRevision ▸ before) (sameRevision ▸ valid.revision)
    · have room : history.capacity ≠ 0 := by
        rw [ordered.capacity]
        decide
      rw [record_of_holdsFence room holds, same, dropLast_concat]
    · rw [same]
      exact sublist_append_left earlier [newest]
  | spoiled => exact absurd rfl unspoiled

end Captures

/-! ## Events -/

/-- A controller in step with what its events say. -/
structure InStep {sources : Sources} (controller : Controller sources) (watching : Watching) :
    Prop where
  counted : controller.topologyInitializations = watching.unfinished
  standing : Standing controller.identityEpoch controller.revision controller.history
    watching.recording

section Events

variable {sources : Sources} {controller : Controller sources} {watching : Watching}
  (inStep : InStep controller watching)
  (unspoiled : watching.recording ≠ .spoiled)

include inStep unspoiled

theorem InStep.intact_iff :
    Intact controller watching ↔ (watching.AllListed → watching.recording ≠ .behind) := by
  have standing := inStep.standing
  have ordered := standing.ordered unspoiled
  have current := standing.latestRevision_eq_iff unspoiled
  constructor
  · intro intact listed
    exact current.mp (intact.current listed)
  · intro notBehind
    exact ⟨fun listed => current.mpr (notBehind listed), ordered.sound.increasing,
      fun entry member initial =>
        (ordered.sound.valid entry member).revision (congrArg Revision.get initial),
      checkpoint_accepted ordered.sound ordered.fits⟩

variable (watch : Watch) (event : WatchEvent (sources.kind watch).Object) (now : UInt64)

/-- Whether a change advances the revision. -/
abbrev advances (controller : Controller sources) : Bool :=
  controller.revision.next ≠ controller.revision

theorem InStep.bump : InStep (controller.bumpTopologyRevision now)
      (watching.change (advances controller) now) := by
  obtain ⟨counted, standing⟩ := inStep
  have advanced := standing.advance unspoiled
  have stillUnspoiled : (if controller.revision.next ≠ controller.revision then Recording.behind
      else watching.recording) ≠ .spoiled := by
    split
    · simp
    · exact unspoiled
  rw [Controller.bumpTopologyRevision, Controller.captureTopologyHistory, Watching.change]
  simp only [decide_eq_true_eq]
  by_cases finished : watching.unfinished = 0
  · rw [if_pos finished, if_neg (not_not.mpr (counted.trans finished))]
    exact ⟨counted, advanced.capture stillUnspoiled now⟩
  · rw [if_neg finished, if_pos (counted ▸ finished)]
    exact ⟨counted, advanced⟩

theorem InStep.finish : InStep (controller.finishTopologyInitialization now)
      (watching.finish watch now) := by
  obtain ⟨counted, standing⟩ := inStep
  rw [Controller.finishTopologyInitialization, Watching.finish, counted]
  by_cases none : watching.unfinished = 0
  · have notLast : watching.unfinished ≠ 1 := by simp [none]
    rw [if_pos none, if_pos none, if_neg notLast]
    exact ⟨counted.trans none, standing⟩
  · rw [if_neg none, if_neg none]
    by_cases last : watching.unfinished = 1
    · have finished : ¬watching.unfinished - 1 ≠ 0 := by simp [last]
      rw [if_pos last, if_pos last, Controller.captureTopologyHistory, if_neg finished]
      exact ⟨rfl, standing.capture unspoiled now⟩
    · rw [if_neg last, if_neg last]
      exact ⟨rfl, standing⟩

/-- An event reaches its store, and a change advances the revision. -/
theorem InStep.handle : InStep (controller.handle watch event now)
      (if ((controller.stores watch).handle event).2 then
        watching.change (advances controller) now else watching) := by
  have stored (stores : (watch : Watch) → ObjectStore (sources.kind watch)) :
      InStep { controller with stores := stores } watching :=
    ⟨inStep.counted, inStep.standing⟩
  rw [Controller.handle]
  split
  · exact (stored _).bump unspoiled now
  · exact stored _

theorem InStep.apply : InStep (controller.apply watch event now)
      (watching.apply watch event ((controller.stores watch).handle event).2
        (advances controller) now) := by
  cases event with
  | init =>
    have begun : InStep controller.beginTopologyInitialization (watching.begin watch) :=
      ⟨congrArg (· + 1) inStep.counted, inStep.standing⟩
    exact begun.handle unspoiled watch .init now
  | initDone => exact (inStep.handle unspoiled watch .initDone now).finish unspoiled watch now
  | initApply object => exact inStep.handle unspoiled watch (.initApply object) now
  | apply object => exact inStep.handle unspoiled watch (.apply object) now
  | delete object => exact inStep.handle unspoiled watch (.delete object) now

end Events

/-! ## Runs -/

section Runs

variable {sources : Sources} {tracked : Tracked sources}

/-- The present controller is in step. -/
structure Kept (tracked : Tracked sources) : Prop where
  absent : tracked.world.controller = none → tracked.watching = .start false
  inStep : ∀ controller, tracked.world.controller = some controller →
    InStep controller tracked.watching

/-- A checkpoint that is read back has the checks of its history passed. -/
theorem ordered_of_restored {persisted : Option TopologyHistoryCheckpoint} {now : UInt64}
    {history : TopologyHistoryStore}
    (restored : restoreTopologyHistory persisted now = .ok history) : Ordered history := by
  cases persisted with
  | none =>
    cases restored
    exact ⟨rfl, Nat.zero_le _, .nil⟩
  | some checkpoint =>
    simp only [restoreTopologyHistory, eq_ok_iffs] at restored
    obtain ⟨-, accepted⟩ := restored
    obtain ⟨-, fits, sound⟩ := exists_fromCheckpoint_iff.mp ⟨history, accepted⟩
    simp only [fromCheckpoint, eq_ok_iffs] at accepted
    obtain ⟨-, -, -, -, rfl⟩ := accepted
    exact ⟨rfl, fits, sound⟩

theorem Kept.persist (kept : Kept tracked) (halvings : Nat) :
    Kept (tracked.step (.persist halvings)) := by
  rw [Tracked.step, World.step, World.persist]
  cases present : tracked.world.controller with
  | none => exact kept
  | some controller =>
    have inStep := kept.inStep controller present
    dsimp only
    split
    next =>
      refine ⟨by simp, ?_⟩
      intro after same
      cases same
      exact ⟨inStep.counted, inStep.standing⟩
    next => exact kept

theorem kept_restart (tracked : Tracked sources) (epoch now : UInt64) :
    Kept (tracked.step (.restart epoch now)) := by
  rw [Tracked.step, World.step, Tracked.watchingAfter, World.restart]
  cases restored : restoreTopologyHistory tracked.world.persisted now with
  | error => exact ⟨fun _ => rfl, by simp⟩
  | ok history =>
    refine ⟨by simp, fun controller same => ?_⟩
    cases same
    have ordered := ordered_of_restored restored
    refine ⟨rfl, ?_⟩
    dsimp only [Watching.start]
    split
    next holds => exact ⟨ordered, holds⟩
    next other => exact ⟨ordered, rfl, Bool.not_eq_true _ ▸ other⟩

theorem Kept.step (kept : Kept tracked) (unspoiled : tracked.watching.recording ≠ .spoiled)
    (event : ControllerEvent sources) : Kept (tracked.step event) := by
  cases event with
  | watch watch event now =>
    rw [Tracked.step, World.step, Tracked.watchingAfter]
    cases present : tracked.world.controller with
    | none => exact ⟨fun _ => kept.absent present, by simp⟩
    | some controller =>
      refine ⟨by simp, ?_⟩
      intro after same
      cases same
      exact (kept.inStep controller present).apply unspoiled watch event now
  | persist halvings => exact kept.persist halvings
  | restart epoch now => exact kept_restart tracked epoch now

/-- As long as nothing is spoiled, everything is kept. -/
theorem Tracked.kept_run {events : List (ControllerEvent sources)}
    (unspoiled : ∀ earlier, earlier <+: events → Kept (run earlier) →
      (run earlier).watching.recording ≠ .spoiled) :
    ∀ earlier, earlier <+: events → Kept (run earlier) := by
  intro earlier before
  induction earlier using List.reverseRecOn with
  | nil => exact ⟨fun _ => rfl, by simp [run, initial, World.initial]⟩
  | append_singleton earlier event ih =>
    have shorter := (prefix_append earlier [event]).trans before
    have kept := ih shorter
    rw [run, foldl_append]
    exact kept.step (unspoiled earlier shorter kept) event

/-- At every moment of a run the history keeps what it has to. -/
def KeepsHistory (events : List (ControllerEvent sources)) : Prop :=
  ∀ earlier, earlier <+: events → ∀ controller,
    (Tracked.run earlier).world.controller = some controller →
      Intact controller (Tracked.run earlier).watching

/-- A history that is spoiled is not read back. -/
theorem InStep.not_intact {controller : Controller sources} {watching : Watching}
    (inStep : InStep controller watching)
    (spoiled : watching.recording = .spoiled) : ¬Intact controller watching := by
  intro intact
  have unsound := inStep.standing
  rw [spoiled] at unsound
  obtain ⟨restored, accepted⟩ := intact.restorable controller.history.entries.length
  exact unsound (sound_of_accepted accepted)

/-- What is kept tells whether the history is intact. -/
theorem Kept.undisturbed (kept : Kept tracked)
    (intact : ∀ controller, tracked.world.controller = some controller →
      Intact controller tracked.watching) : tracked.watching.Undisturbed := by
  cases present : tracked.world.controller with
  | none =>
    rw [kept.absent present]
    exact ⟨nofun, nofun⟩
  | some controller =>
    have inStep := kept.inStep controller present
    have unspoiled : tracked.watching.recording ≠ .spoiled := fun spoiled =>
      inStep.not_intact spoiled (intact controller present)
    exact ⟨unspoiled, (inStep.intact_iff unspoiled).mp (intact controller present)⟩

/-- The history of the topology stays current and restorable exactly when no state is captured
before the first change of its controller, and with the last listings of all watches finished no
change is left that came while a listing was unfinished. -/
theorem keepsHistory_iff_undisturbed (events : List (ControllerEvent sources)) :
    KeepsHistory events ↔
      ∀ earlier, earlier <+: events → (Tracked.run earlier).watching.Undisturbed := by
  constructor
  · intro keeps earlier before
    have kept := Tracked.kept_run (fun earlier before kept =>
      (kept.undisturbed (keeps earlier before)).unspoiled) earlier before
    exact kept.undisturbed (keeps earlier before)
  · intro undisturbed earlier before controller present
    have kept := Tracked.kept_run (fun earlier before _ => (undisturbed earlier before).unspoiled)
      earlier before
    have here := undisturbed earlier before
    exact ((kept.inStep controller present).intact_iff here.unspoiled).mpr here.notBehind

end Runs

/-- Objects that are nothing but their names. -/
def namedSources : Sources where
  Pod := String
  PodRecord := String
  Identities := Unit
  podRecordEq := inferInstance
  podKey := id
  podIsTerminal _ := false
  podRecord := some
  noIdentities := ()
  admitPod _ _ := some ()
  removePod _ := id
  clearIdentities := id
  Node := String
  TopologyNode := String
  topologyNodeEq := inferInstance
  nodeName := id
  topologyNode := id
  Service := String
  ServiceRecord := String
  serviceKey := id
  serviceRecord := some
  serviceRecordSemanticsEqual previous record := previous == record
  EndpointSlice := String
  EndpointSliceRecord := String
  endpointSliceRecordEq := inferInstance
  endpointSliceKey := id
  endpointSliceRecord := some

/-- The first controller lists the Pods of a cluster that has none: it captures a state of
revision zero, and the next controller does not start. -/
theorem empty_listing_spoils_history :
    ¬KeepsHistory ([.restart 7 1, .watch .pods .init 2, .watch .pods .initDone 3] :
      List (ControllerEvent namedSources)) := by
  intro keeps
  have intact := keeps _ (prefix_refl _) _ rfl
  obtain ⟨restored, accepted⟩ := intact.restorable 1
  cases accepted

end Unf.Topology
