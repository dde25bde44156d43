import Unf.Cni.Deferred

/-!
# What the queue survives

The queue is in order as long as its files are exactly the records of its pending keys. A process
that is killed while its temporary file is there leaves a file that is no record: from then on
neither `list` nor `enqueue` goes on, and no call removes it.
-/

namespace Unf.Cni

open Unf.Lib List Std.ExtTreeSet Trail Nat
open Std (ExtTreeMap ExtTreeSet)

/-! ## A queue in order -/

/-- The record of one of the keys is at a place. -/
def Recorded (codec : DeferredCodec) (keys : ExtTreeSet AttachmentKey) (place : Place)
    (bytes : List UInt8) : Prop :=
  ∃ key ∈ keys, recordPlace key = place ∧ recordBytes codec key = bytes

/-- The files are exactly the records of the pending keys, which are keys of the network and not
too many. -/
structure InOrder (codec : DeferredCodec) (network : String) (keys : ExtTreeSet AttachmentKey)
    (tree : QueueTree) : Prop where
  pending : tree.pending = keys
  ofNetwork : ∀ key ∈ keys, key.network = network
  bounded : keys.size ≤ maxPendingDeletes
  files : ∀ place bytes, tree.files[place]? = some bytes ↔ Recorded codec keys place bytes

/-- A file that is no record has been left behind. -/
def Stuck (tree : QueueTree) : Prop :=
  ∃ place bytes, tree.files[place]? = some bytes ∧ ∀ key, place ≠ recordPlace key

variable {codec : DeferredCodec} {network : String} {keys : ExtTreeSet AttachmentKey}
  {tree : QueueTree} {key : AttachmentKey}

section Records

theorem inOrder_empty (codec : DeferredCodec) (network : String) :
    InOrder codec network ∅ ⟨∅, ∅⟩ where
  pending := rfl
  ofNetwork := by simp
  bounded := by simp
  files := by simp [Recorded]

theorem load_recordBytes (codec : DeferredCodec) (key : AttachmentKey) :
    load codec (recordBytes codec key) = .ok ⟨deferredDeleteSchemaVersion, key⟩ := by
  rw [load, recordBytes, codec.decode_encode]
  rfl

theorem recordPlace_of_loadEntry {entry : Place × List UInt8}
    (loaded : loadEntry codec network entry = .ok key) : entry.1 = recordPlace key := by
  simp only [loadEntry, eq_ok_iffs, eq_false_iffs] at loaded
  obtain ⟨document, -, ⟨-, placed⟩, rfl⟩ := loaded
  exact placed

theorem loadEntry_record (ofNetwork : key.network = network) :
    loadEntry codec network (recordPlace key, recordBytes codec key) = .ok key := by
  rw [loadEntry, load_recordBytes]
  simp [ofNetwork, pure, Except.pure]

theorem foldlM_pushPending {items : List AttachmentKey}
    (bounded : items.length ≤ maxPendingDeletes) : items.foldlM pushPending [] = .ok items := by
  induction items using reverseRecOn with
  | nil => rfl
  | append_singleton items item ih =>
    rw [length_append] at bounded
    rw [foldlM_append, ih (le_of_add_right_le bounded), ok_bind,
      foldlM_cons, pushPending, length_append, decide_eq_false (not_lt.mpr bounded)]
    rfl

/-- A directory with a file that is no record is not read. -/
theorem listUnlocked_of_stuck (stuck : Stuck tree) (result : List AttachmentKey) :
    listUnlocked codec network tree ≠ .ok result := by
  intro listed
  obtain ⟨place, bytes, found, unnamed⟩ := stuck
  rw [listUnlocked, bind_eq_ok] at listed
  obtain ⟨_, loaded, -⟩ := listed
  obtain ⟨_, converted, -⟩ := foldlM_mapM_eq_ok.mp loaded
  obtain ⟨key, -, ofEntry⟩ := exists_mem_mapM_of_mem converted
    (ExtTreeMap.mem_toList_iff_getElem?_eq_some.mpr found)
  exact unnamed key (recordPlace_of_loadEntry ofEntry)

theorem stuck_withTemporary (tree : QueueTree) (key : AttachmentKey) (processId written : Nat) :
    Stuck (tree.withTemporary codec key processId written) := by
  refine ⟨temporaryPlace key processId, (recordBytes codec key).take written, ?_, fun other =>
    temporaryPlace_ne_recordPlace key other processId⟩
  rw [QueueTree.withTemporary, getElem?_map_insert, if_pos rfl]

variable (ordered : InOrder codec network keys tree)

include ordered

/-- The keys are read from their records. -/
theorem InOrder.exists_mapM :
    ∃ listed, tree.files.toList.mapM (loadEntry codec network) = .ok listed ∧
      listed.Perm keys.toList := by
  -- The entries are the records of the keys, in the order of their places.
  have recorded : tree.files.toList.Perm
      (keys.toList.map fun key => (recordPlace key, recordBytes codec key)) := by
    have distinct : keys.toList.Nodup := distinct_toList.imp fun different same =>
      different (compare_eq_iff_eq.mpr same)
    rw [perm_ext_iff_of_nodup]
    · rintro ⟨place, bytes⟩
      rw [ExtTreeMap.mem_toList_iff_getElem?_eq_some, ordered.files, Recorded]
      simp [mem_toList]
    · refine List.Nodup.of_map Prod.fst (pairwise_map.mpr ?_)
      exact ExtTreeMap.distinct_keys_toList.imp fun different same =>
        different (compare_eq_iff_eq.mpr same)
    · refine List.Nodup.map_on ?_ distinct
      intro left leftMember right rightMember same
      rw [mem_toList] at leftMember rightMember
      have networks := ordered.ofNetwork left leftMember
      rw [← ordered.ofNetwork right rightMember] at networks
      exact key_eq_of_recordPlace networks (Prod.ext_iff.mp same).1
  have loaded : List.Forall₂ (fun entry key => loadEntry codec network entry = .ok key)
      (keys.toList.map fun key => (recordPlace key, recordBytes codec key)) keys.toList := by
    rw [forall₂_map_left_iff, forall₂_same]
    intro key member
    exact loadEntry_record (ordered.ofNetwork key (mem_toList.mp member))
  obtain ⟨listed, converted, perm⟩ := perm_comp_forall₂ recorded loaded
  exact ⟨listed, mapM_eq_ok_iff.mpr converted, perm⟩

/-- A queue in order is listed. -/
theorem InOrder.listUnlocked : listUnlocked codec network tree = .ok keys.toList := by
  have sorted : keys.toList.Pairwise (· ≤ ·) := ordered_toList.imp fun ordered =>
    (compare_lt_iff_lt.mp ordered).le
  obtain ⟨listed, converted, perm⟩ := ordered.exists_mapM
  rw [Cni.listUnlocked, bind_eq_ok]
  refine ⟨listed, foldlM_mapM_eq_ok.mpr ⟨listed, converted, foldlM_pushPending ?_⟩, ?_⟩
  · rw [perm.length_eq, length_toList]
    exact ordered.bounded
  · rw [eq_of_perm_of_sorted ((sort_perm _).trans perm) (sort_sorted _) sorted]
    rfl

theorem InOrder.no_temporary (processId : Nat) :
    tree.files[temporaryPlace key processId]? = none := by
  rw [Option.eq_none_iff_forall_ne_some]
  intro bytes found
  obtain ⟨other, -, placed, -⟩ := (ordered.files _ bytes).mp found
  exact temporaryPlace_ne_recordPlace key other processId placed.symm

variable (ofNetwork : key.network = network)

include ofNetwork

/-- At the place of its record a key is known. -/
theorem InOrder.recorded_iff {bytes : List UInt8} :
    Recorded codec keys (recordPlace key) bytes ↔ key ∈ keys ∧ recordBytes codec key = bytes := by
  constructor
  · rintro ⟨other, member, placed, ofOther⟩
    have networks := (ordered.ofNetwork other member).trans ofNetwork.symm
    obtain rfl := key_eq_of_recordPlace networks placed
    exact ⟨member, ofOther⟩
  · rintro ⟨member, ofKey⟩
    exact ⟨key, member, rfl, ofKey⟩

/-- The record of a key is there exactly when the key is pending. -/
theorem InOrder.record : tree.files[recordPlace key]? =
      if key ∈ keys then some (recordBytes codec key) else none := by
  apply Option.ext
  intro bytes
  rw [ordered.files, ordered.recorded_iff ofNetwork]
  split
  next pending => simp [pending]
  next absent => simp [absent]

theorem InOrder.withRecord (room : keys.size < maxPendingDeletes) :
    InOrder codec network (keys.insert key) (tree.withRecord codec key) where
  pending := congrArg (·.insert key) ordered.pending
  ofNetwork other member := by
    obtain rfl | member := mem_set_insert.mp member
    · exact ofNetwork
    · exact ordered.ofNetwork other member
  bounded := by
    rw [size_insert]
    split
    · exact ordered.bounded
    · exact room
  files place bytes := by
    rw [QueueTree.withRecord, getElem?_map_insert]
    simp only [Recorded, mem_set_insert, or_and_right, exists_or]
    split
    next same =>
      have old : Recorded codec keys (recordPlace key) bytes ↔ _ := ordered.recorded_iff ofNetwork
      rw [Recorded, same] at old
      rw [old]
      simp +contextual [same]
    next other =>
      rw [ordered.files, Recorded]
      simp [other]

theorem InOrder.erase : InOrder codec network (keys.erase key)
      ⟨tree.files.erase (recordPlace key), tree.pending.erase key⟩ where
  pending := congrArg (·.erase key) ordered.pending
  ofNetwork other member := ordered.ofNetwork other (mem_erase.mp member).2
  bounded := size_erase_le.trans ordered.bounded
  files place bytes := by
    rw [getElem?_map_erase]
    simp only [Recorded, mem_erase, ne_eq, compare_eq_iff_eq]
    split
    next same =>
      refine ⟨by simp, ?_⟩
      rintro ⟨other, ⟨different, member⟩, placed, _⟩
      have networks := (ordered.ofNetwork other member).trans ofNetwork.symm
      exact absurd (key_eq_of_recordPlace networks (placed.trans same.symm)).symm different
    next elsewhere =>
      rw [ordered.files]
      constructor
      · rintro ⟨other, member, placed, ofOther⟩
        refine ⟨other, ⟨?_, member⟩, placed, ofOther⟩
        intro same
        exact elsewhere (same ▸ placed)
      · rintro ⟨other, ⟨_, member⟩, placed, ofOther⟩
        exact ⟨other, member, placed, ofOther⟩

end Records

/-! ## Single calls -/

/-- One call on the queue of a network, and the number of steps after which it is killed. -/
inductive QueueCall where
  | enqueue (containerId ifname : String) (processId steps : Nat)
  | list (steps : Nat)
  | complete (containerId ifname : String) (steps : Nat)

section Calls

variable (codec network)

/-- The steps before the temporary file of a record, and with it the steps up to its rename. -/
def stepsBeforeTemporary : Nat := 3

def stepsBeforeRename (key : AttachmentKey) : Nat :=
  stepsBeforeTemporary + (recordBytes codec key).length + 1

namespace QueueCall

/-- The files after a call. -/
def after (tree : QueueTree) : QueueCall → QueueTree
  | enqueue containerId ifname processId steps =>
    (Cni.enqueue codec ⟨network, containerId, ifname⟩ processId tree).treeAfter steps tree
  | list steps => (Cni.list codec network tree).treeAfter steps tree
  | complete containerId ifname steps =>
    (Cni.complete codec ⟨network, containerId, ifname⟩ tree).treeAfter steps tree

/-- A key that gets a record unless the call is killed: it has none, and there is room. -/
def stores (keys : ExtTreeSet AttachmentKey) (key : AttachmentKey) : Bool :=
  !keys.contains key && decide (keys.size < maxPendingDeletes)

/-- The keys that are pending after a call: a record is renamed or removed before the process is
killed. -/
def pendingAfter (keys : ExtTreeSet AttachmentKey) : QueueCall → ExtTreeSet AttachmentKey
  | enqueue containerId ifname _ steps =>
    if stores keys ⟨network, containerId, ifname⟩ &&
        stepsBeforeRename codec ⟨network, containerId, ifname⟩ < steps then
      keys.insert ⟨network, containerId, ifname⟩
    else keys
  | list _ => keys
  | complete containerId ifname steps =>
    if keys.contains ⟨network, containerId, ifname⟩ && 0 < steps then
      keys.erase ⟨network, containerId, ifname⟩
    else keys

/-- The process is killed while its temporary file is there. -/
def leavesTemporary (keys : ExtTreeSet AttachmentKey) : QueueCall → Bool
  | enqueue containerId ifname _ steps =>
    stores keys ⟨network, containerId, ifname⟩ && stepsBeforeTemporary < steps &&
      steps ≤ stepsBeforeRename codec ⟨network, containerId, ifname⟩
  | list _ => false
  | complete _ _ _ => false

end QueueCall

variable {codec network}

theorem QueueCall.stores_iff :
    stores keys key = true ↔ key ∉ keys ∧ keys.size < maxPendingDeletes := by
  simp [stores, contains_eq_false_iff]

/-- A call that only looks at the files. -/
theorem Trail.treeAfter_singleton {α : Type} (result : Except DeferredError α) (steps : Nat)
    (tree : QueueTree) : treeAfter ⟨[tree], result⟩ steps tree = tree := by
  cases steps <;> simp [treeAfter]

theorem getLastD_take_range {α : Type} (written : Nat → α) (last initial : α) (length steps : Nat) :
    (((range (length + 1)).map written ++ [last]).take (steps + 1)).getLastD initial =
      if steps ≤ length then written steps else last := by
  rw [getLastD_eq_getLast?, getLast?_take, if_neg (Nat.succ_ne_zero steps), Nat.add_sub_cancel]
  split
  next within =>
    rw [getElem?_append_left (by simpa using lt_succ_of_le within), getElem?_map,
      getElem?_range (lt_succ_of_le within)]
    rfl
  next beyond =>
    have outside : ((range (length + 1)).map written).length ≤ steps := by
      simpa using not_le.mp beyond
    rw [getElem?_append_right outside, getLast?_append_of_ne_nil _ (by simp)]
    cases steps - ((range (length + 1)).map written).length <;> rfl

variable (ordered : InOrder codec network keys tree)

include ordered

/-- The steps of a key that is stored. -/
theorem InOrder.store (processId : Nat) :
    store codec key processId tree =
      { trees := tree :: tree :: (range ((recordBytes codec key).length + 1)).map
          (fun written => tree.withTemporary codec key processId written) ++
            [tree.withRecord codec key]
        result := .ok () } := by
  rw [Cni.store, if_neg]
  rw [ExtTreeMap.contains_iff_mem, ExtTreeMap.mem_iff_isSome_getElem?, ordered.no_temporary]
  nofun

variable (ofNetwork : key.network = network)

include ofNetwork

/-- What a call of `enqueue` on a queue in order does. -/
theorem InOrder.enqueue (processId : Nat) :
    enqueue codec key processId tree = if key ∈ keys then ⟨[tree], .ok ()⟩
      else if maxPendingDeletes ≤ keys.size then ⟨[tree], .error .recordLimit⟩
      else ⟨tree :: (Cni.store codec key processId tree).trees, .ok ()⟩ := by
  rw [Cni.enqueue, ordered.record ofNetwork]
  by_cases pending : key ∈ keys
  · rw [if_pos pending, if_pos pending]
    dsimp only
    rw [confirm, load_recordBytes]
    simp
  · rw [if_neg pending, if_neg pending]
    rw [ofNetwork, ordered.listUnlocked]
    dsimp only
    rw [length_toList, ordered.store]

/-- The files of a key that is stored, by the step after which the process is killed. -/
theorem InOrder.treeAfter_enqueue (processId steps : Nat)
    (stores : QueueCall.stores keys key = true) :
    (Cni.enqueue codec key processId tree).treeAfter steps tree =
      if steps ≤ stepsBeforeTemporary then tree else if steps ≤ stepsBeforeRename codec key then
        tree.withTemporary codec key processId (steps - stepsBeforeTemporary - 1)
      else tree.withRecord codec key := by
  obtain ⟨absent, room⟩ := QueueCall.stores_iff.mp stores
  rw [ordered.enqueue ofNetwork processId, if_neg absent, if_neg (not_le.mpr room),
    ordered.store, treeAfter, stepsBeforeRename, stepsBeforeTemporary]
  match steps with
  | 0 | 1 | 2 | 3 => rfl
  | steps + 4 =>
    rw [if_neg (by omega), cons_append, cons_append, take_succ_cons,
      take_succ_cons, take_succ_cons, getLastD_cons, getLastD_cons,
      getLastD_cons, getLastD_take_range]
    by_cases within : steps ≤ (recordBytes codec key).length
    · rw [if_pos within, if_pos (by omega)]
      congr 1
    · rw [if_neg within, if_neg (by omega)]

/-- A key that is not stored leaves the files as they are. -/
theorem InOrder.treeAfter_enqueue_of_kept (processId steps : Nat)
    (kept : QueueCall.stores keys key = false) :
    (Cni.enqueue codec key processId tree).treeAfter steps tree = tree := by
  rw [← Bool.not_eq_true, QueueCall.stores_iff, not_and, not_lt] at kept
  rw [ordered.enqueue ofNetwork processId]
  split
  next => exact treeAfter_singleton _ steps tree
  next absent =>
    rw [if_pos (kept absent)]
    exact treeAfter_singleton _ steps tree

theorem InOrder.treeAfter_complete (steps : Nat) :
    (Cni.complete codec key tree).treeAfter steps tree = if keys.contains key && 0 < steps then
        ⟨tree.files.erase (recordPlace key), tree.pending.erase key⟩ else tree := by
  rw [Cni.complete, ordered.record ofNetwork]
  by_cases pending : key ∈ keys
  · rw [if_pos pending, Option.elim_some, load_recordBytes, contains_iff_mem.mpr pending]
    dsimp only
    rw [if_neg (not_not.mpr rfl)]
    match steps with
    | 0 | 1 | 2 => rfl
    | steps + 3 => simp [treeAfter]
  · rw [if_neg pending, contains_eq_false_iff.mpr pending]
    simp [treeAfter]

omit ofNetwork

/-- One call on a queue in order. -/
theorem InOrder.afterCall (call : QueueCall) : match call.leavesTemporary codec network keys with
    | true => Stuck (call.after codec network tree)
    | false => InOrder codec network (call.pendingAfter codec network keys)
        (call.after codec network tree) := by
  cases call with
  | enqueue containerId ifname processId steps =>
    rw [QueueCall.leavesTemporary, QueueCall.pendingAfter, QueueCall.after]
    cases stores : QueueCall.stores keys ⟨network, containerId, ifname⟩ with
    | false =>
      rw [ordered.treeAfter_enqueue_of_kept rfl processId steps stores]
      exact ordered
    | true =>
      have later : stepsBeforeTemporary < stepsBeforeRename codec
          ⟨network, containerId, ifname⟩ := by
        rw [stepsBeforeRename]
        omega
      rw [ordered.treeAfter_enqueue rfl processId steps stores]
      by_cases early : steps ≤ stepsBeforeTemporary
      · rw [if_pos early, decide_eq_false early.not_gt,
          decide_eq_false (early.trans later.le).not_gt]
        exact ordered
      · rw [if_neg early, decide_eq_true (not_le.mp early)]
        by_cases written : steps ≤ stepsBeforeRename codec ⟨network, containerId, ifname⟩
        · rw [if_pos written, decide_eq_true written]
          exact stuck_withTemporary tree _ processId _
        · rw [if_neg written, decide_eq_false written, decide_eq_true (not_le.mp written)]
          exact ordered.withRecord rfl (QueueCall.stores_iff.mp stores).2
  | list steps =>
    rw [QueueCall.after, Cni.list, treeAfter_singleton]
    exact ordered
  | complete containerId ifname steps =>
    rw [QueueCall.after, ordered.treeAfter_complete rfl steps, QueueCall.pendingAfter]
    dsimp only [QueueCall.leavesTemporary]
    split
    · exact ordered.erase rfl
    · exact ordered

omit ordered

/-- A file that is no record stays. -/
theorem Stuck.afterCall (stuck : Stuck tree) (call : QueueCall) :
    Stuck (call.after codec network tree) := by
  cases call with
  | enqueue containerId ifname processId steps =>
    rw [QueueCall.after, Cni.enqueue]
    split
    next =>
      rw [treeAfter_singleton]
      exact stuck
    next =>
      cases listed : listUnlocked codec network tree with
      | error =>
        rw [treeAfter_singleton]
        exact stuck
      | ok result => exact absurd listed (listUnlocked_of_stuck stuck result)
  | list steps =>
    rw [QueueCall.after, Cni.list, treeAfter_singleton]
    exact stuck
  | complete containerId ifname steps =>
    obtain ⟨place, bytes, found, unnamed⟩ := stuck
    refine ⟨place, bytes, ?_, unnamed⟩
    rw [QueueCall.after, Cni.complete]
    split
    next => simpa [treeAfter] using found
    next =>
      split
      next => simpa [treeAfter] using found
      next =>
        have kept : (tree.files.erase (recordPlace ⟨network, containerId, ifname⟩))[place]? =
            some bytes := by
          rw [getElem?_map_erase, if_neg (unnamed _).symm, found]
        match steps with
        | 0 => exact found
        | 1 | 2 => exact kept
        | steps + 3 => simpa [treeAfter] using kept

end Calls

/-! ## Sequences of calls -/

section Sequences

variable (codec network)

/-- The files after a sequence of calls. -/
def afterCalls (tree : QueueTree) (calls : List QueueCall) : QueueTree :=
  calls.foldl (QueueCall.after codec network) tree

/-- One of the calls is killed while its temporary file is there. -/
def leavesTemporary : ExtTreeSet AttachmentKey → List QueueCall → Bool
  | _, [] => false
  | keys, call :: calls => call.leavesTemporary codec network keys ||
      leavesTemporary (call.pendingAfter codec network keys) calls

/-- The queue has lost nothing and can go on: a listing returns the pending keys in their order,
and as long as there is room every key can be enqueued. -/
structure Survives (tree : QueueTree) : Prop where
  lists : (list codec network tree).result = .ok tree.pending.toList
  enqueues : ∀ (containerId ifname : String) (processId : Nat),
    tree.pending.size < maxPendingDeletes →
      (enqueue codec ⟨network, containerId, ifname⟩ processId tree).result = .ok ()

variable {codec network}

theorem Stuck.afterCalls (stuck : Stuck tree) (calls : List QueueCall) :
    Stuck (afterCalls codec network tree calls) := by
  induction calls generalizing tree with
  | nil => exact stuck
  | cons call calls ih => exact ih (stuck.afterCall call)

/-- A sequence of calls on a queue in order. -/
theorem InOrder.afterCalls (ordered : InOrder codec network keys tree) (calls : List QueueCall) :
    match leavesTemporary codec network keys calls with
    | true => Stuck (afterCalls codec network tree calls)
    | false => ∃ pending, InOrder codec network pending (afterCalls codec network tree calls) := by
  induction calls generalizing keys tree with
  | nil => exact ⟨keys, ordered⟩
  | cons call calls ih =>
    have left := ordered.afterCall call
    rw [leavesTemporary]
    cases temporary : call.leavesTemporary codec network keys with
    | true =>
      rw [temporary] at left
      exact left.afterCalls calls
    | false =>
      rw [temporary] at left
      exact ih left

theorem InOrder.survives (ordered : InOrder codec network keys tree) :
    Survives codec network tree := by
  have same := ordered.pending
  subst same
  refine ⟨ordered.listUnlocked, ?_⟩
  intro containerId ifname processId room
  rw [ordered.enqueue rfl processId, if_neg (not_le.mpr room)]
  split <;> rfl

/-- The queue survives a sequence of calls exactly when none of them is killed while its
temporary file is there. -/
theorem queue_survives_iff (codec : DeferredCodec) (network : String) (calls : List QueueCall) :
    Survives codec network (afterCalls codec network ⟨∅, ∅⟩ calls) ↔
      leavesTemporary codec network ∅ calls = false := by
  have left := (inOrder_empty codec network).afterCalls calls
  cases temporary : leavesTemporary codec network ∅ calls with
  | true =>
    rw [temporary] at left
    simp only [Bool.true_eq_false, iff_false]
    intro survives
    exact listUnlocked_of_stuck left _ survives.lists
  | false =>
    rw [temporary] at left
    obtain ⟨pending, ordered⟩ := left
    simp [ordered.survives]

/-- A single `enqueue` that is killed right after it has created its temporary file stops the
queue. -/
theorem killed_enqueue_stops_queue :
    ∃ codec : DeferredCodec, ¬Survives codec "unf" (afterCalls codec "unf" ⟨∅, ∅⟩
      [.enqueue "container-a" "eth0" 7 4]) := by
  obtain ⟨codec⟩ : Nonempty DeferredCodec := inferInstance
  refine ⟨codec, ?_⟩
  intro survives
  have left := (inOrder_empty codec "unf").afterCall (.enqueue "container-a" "eth0" 7 4)
  have temporary : QueueCall.leavesTemporary codec "unf" ∅
      (.enqueue "container-a" "eth0" 7 4) = true := by
    simp [QueueCall.leavesTemporary, QueueCall.stores, stepsBeforeTemporary, stepsBeforeRename,
      maxPendingDeletes]
  rw [temporary] at left
  exact listUnlocked_of_stuck left _ survives.lists

end Sequences

end Unf.Cni
