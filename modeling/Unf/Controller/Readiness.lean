import Mathlib.Data.Finset.Basic
import Unf.Lib.Counter

/-!
# Readiness of the authority served to agents

Eight watchers keep the lists an agent's authority is built from. A relist marks its watcher's bit
and withdraws readiness, and its end clears the bit and publishes readiness again. Requests are
fenced by the ready flag and by a revision of the informer cut, both read before and after the
handler runs.

Seven watchers handle an event under `policy_state_guard`, in one step here. The EncryptionPolicies
watcher takes no lock: each of its atomic operations is a step of its own, and so are those of the
main task, which publishes readiness once before it serves any request. Another watcher's relist
fits between their check of the bits and their store of the flag.
-/

namespace Unf.Controller

open Unf.Lib

/-! ## Cells -/

/-- The authoritative watchers, one bit of `initial_agent_authority_watches` each. -/
inductive Watcher where
  | pods | namespaces | nodes | services | endpointSlices | securityPolicies | networkPolicies
  | encryptionPolicies
  deriving DecidableEq, Repr

/-- The bits a connected controller starts with: all eight. -/
def initialAgentAuthorityWatches : Finset Watcher :=
  {.pods, .namespaces, .nodes, .services, .endpointSlices, .securityPolicies, .networkPolicies,
    .encryptionPolicies}

/-- The atomic cells that fence requests. -/
structure ControllerState where
  ready : Bool
  authorityWatches : Finset Watcher
  cutRevision : UInt64

/-- The beginning of a list, by a watcher under the lock. -/
def beginInitialAgentAuthorityWatch (state : ControllerState) (watch : Watcher) :
    ControllerState where
  cutRevision := state.cutRevision + 1
  authorityWatches := insert watch state.authorityWatches
  ready := false

/-- Readiness is up when no bit is left. -/
def publishControllerReadiness (state : ControllerState) : ControllerState :=
  if state.authorityWatches = ∅ then { state with ready := true } else state

/-- The end of a list, by a watcher under the lock. -/
def finishInitialAgentAuthorityWatch (state : ControllerState) (watch : Watcher) :
    ControllerState :=
  publishControllerReadiness
    { state with
      authorityWatches := state.authorityWatches.erase watch
      cutRevision := state.cutRevision + 1 }

/-! ## Requests -/

/-- What the admission slots and the semaphore give a request, if it needs them. -/
inductive Admission where
  | unneeded | granted | atCapacity | closed
  deriving DecidableEq, Repr

/-- The answer to a request: that of its handler, or that the service is unavailable. -/
inductive Response where
  | ofHandler
  | unavailable (message : String)
  deriving DecidableEq, Repr

/-- The answer to a request, by the cells as its loads find them: the flag on arrival, the revision
when it is sampled, the flag before and after the handler runs, and the revision once more. -/
def admitAgentAuthorityRequest (admission : Admission)
    (arrival sampled admitted returned rechecked : ControllerState) : Response :=
  if !arrival.ready then
    .unavailable "controller authoritative informer cut is not ready"
  else match admission with
  | .atCapacity =>
    .unavailable "controller authority admission queue is at its fixed capacity"
  | .closed => .unavailable "controller authority admission is closed"
  | .unneeded | .granted =>
    if !admitted.ready then
      .unavailable "controller authoritative informer cut changed before admission"
    else if returned.ready && rechecked.cutRevision == sampled.cutRevision then
      .ofHandler
    else
      .unavailable "controller authoritative informer cut changed during materialization"

/-! ## Steps -/

/-- The atomic operations of `begin_initial_agent_authority_watch` and
`finish_initial_agent_authority_watch` after the first one of each. -/
inductive Operation where
  | markWatch | withdrawReady | advanceRevision | loadWatches | storeReady
  deriving DecidableEq, Repr

/-- The cells with the tasks that change them: `listing` holds the watchers between an `Init` and
its `InitDone`, `pending` is the operation the EncryptionPolicies watcher is at, and `startup` the
one the main task is at before it serves requests. -/
structure System extends ControllerState where
  listing : Finset Watcher
  pending : Option Operation
  startup : Option Operation

/-- The steps of the tasks. An `Apply`, `Delete` or `InitApply` touches none of the cells. -/
inductive Action where
  | lockedInit (watch : Watcher)
  | lockedInitDone (watch : Watcher)
  | init
  | initDone
  | watcher
  | main
  deriving DecidableEq, Repr

/-- Whether a watcher handles an `Init` or an `InitDone`. -/
def Action.isListing : Action → Bool
  | lockedInit _ | lockedInitDone _ | init | initDone => true
  | watcher | main => false

namespace System

/-- The connected controller before the first event of any watch. -/
def start : System where
  ready := false
  authorityWatches := initialAgentAuthorityWatches
  cutRevision := 0
  listing := ∅
  pending := none
  startup := some .loadWatches

/-- The next atomic operation of the EncryptionPolicies watcher. -/
def watcherStep (system : System) : System :=
  match system.pending with
  | none => system
  | some .markWatch =>
    { system with
      authorityWatches := insert .encryptionPolicies system.authorityWatches
      pending := some .withdrawReady }
  | some .withdrawReady =>
    { system with
      ready := false
      listing := insert .encryptionPolicies system.listing
      pending := none }
  | some .advanceRevision =>
    { system with cutRevision := system.cutRevision + 1, pending := some .loadWatches }
  | some .loadWatches =>
    { system with pending := if system.authorityWatches = ∅ then some .storeReady else none }
  | some .storeReady => { system with ready := true, pending := none }

/-- The next atomic operation of the main task. -/
def mainStep (system : System) : System :=
  match system.startup with
  | some .loadWatches =>
    { system with startup := if system.authorityWatches = ∅ then some .storeReady else none }
  | some .storeReady => { system with ready := true, startup := none }
  | _ => system

/-- One step. It changes nothing where the task is not at it: a watcher ends only a list that it
has begun, and the EncryptionPolicies watcher handles one event after the other. -/
def step (system : System) : Action → System
  | .lockedInit watch =>
    if watch = .encryptionPolicies then system
    else
      { system with
        toControllerState := beginInitialAgentAuthorityWatch system.toControllerState watch
        listing := insert watch system.listing }
  | .lockedInitDone watch =>
    if watch = .encryptionPolicies ∨ watch ∉ system.listing then system
    else
      { system with
        toControllerState := finishInitialAgentAuthorityWatch system.toControllerState watch
        listing := system.listing.erase watch }
  | .init =>
    if system.pending ≠ none then system
    else { system with cutRevision := system.cutRevision + 1, pending := some .markWatch }
  | .initDone =>
    if system.pending ≠ none ∨ .encryptionPolicies ∉ system.listing then system
    else
      { system with
        authorityWatches := system.authorityWatches.erase .encryptionPolicies
        listing := system.listing.erase .encryptionPolicies
        pending := some .advanceRevision }
  | .watcher => system.watcherStep
  | .main => system.mainStep

/-- The system at a moment of a run, by the number of steps before it. -/
def moment (run : Nat → Action) : Nat → System
  | 0 => start
  | time + 1 => (moment run time).step (run time)

/-- The lists that began or ended before a moment. -/
def listingsAt (run : Nat → Action) : Nat → Nat
  | 0 => 0
  | time + 1 => listingsAt run time + (run time).isListing.toNat

/-- The moments at which a request loads the cells. It changes none of them. -/
structure Request where
  admission : Admission
  arrival : Nat
  sampled : Nat
  admitted : Nat
  returned : Nat
  rechecked : Nat
  ordered : arrival ≤ sampled ∧ sampled ≤ admitted ∧ admitted ≤ returned ∧ returned ≤ rechecked

/-- The answer to a request that arrives during a run. -/
def Request.response (request : Request) (run : Nat → Action) : Response :=
  admitAgentAuthorityRequest request.admission (moment run request.arrival).toControllerState
    (moment run request.sampled).toControllerState (moment run request.admitted).toControllerState
    (moment run request.returned).toControllerState
    (moment run request.rechecked).toControllerState

/-- A request is answered by its handler only if no watcher was between an `Init` and its
`InitDone` while the handler ran, and readiness is down while a watcher that clears its lists
relists. The EncryptionPolicies watcher stages a relist beside the list it serves. -/
structure Fenced (run : Nat → Action) : Prop where
  answered : ∀ request : Request, (moment run request.arrival).startup = none →
    request.response run = .ofHandler → ∀ time, request.admitted ≤ time →
      time ≤ request.returned → (moment run time).listing = ∅
  cleared : ∀ time watch, (moment run time).ready = true →
    watch ∈ (moment run time).authorityWatches → watch ∈ (moment run time).listing →
      watch = .encryptionPolicies

/-- Whether a step stores readiness without the lock. -/
def StoresReady (system : System) : Action → Prop
  | .watcher => system.pending = some .storeReady
  | .main => system.startup = some .storeReady
  | _ => False

/-- Whenever readiness is stored without the lock, no watcher is listing. -/
def StoresFresh (run : Nat → Action) : Prop :=
  ∀ time, (moment run time).StoresReady (run time) → (moment run time).listing = ∅

/-! ## What every run keeps -/

section Runs

variable {run : Nat → Action} {system : System} {listings : Nat}

/-- A watcher that lists has its bit set, the EncryptionPolicies watcher does not list while it
handles an `InitDone`, and the revision has not advanced more often than lists began and ended. -/
structure Consistent (listings : Nat) (system : System) : Prop where
  marked : system.listing ⊆ system.authorityWatches
  marking : system.pending = some .withdrawReady → .encryptionPolicies ∈ system.authorityWatches
  finishing : system.pending = some .advanceRevision ∨ system.pending = some .loadWatches ∨
    system.pending = some .storeReady → .encryptionPolicies ∉ system.listing
  counted : system.cutRevision.toNat + (if system.pending = some .advanceRevision then 1 else 0) ≤
    listings

theorem toNat_add_one_le (revision : UInt64) : (revision + 1).toNat ≤ revision.toNat + 1 := by
  exact Nat.mod_le _ _

theorem Consistent.watcherStep (consistent : Consistent listings system) :
    Consistent listings system.watcherStep := by
  obtain ⟨marked, marking, finishing, counted⟩ := consistent
  have advanced := toNat_add_one_le system.cutRevision
  rw [System.watcherStep]
  split
  next => exact ⟨marked, marking, finishing, counted⟩
  next => exact ⟨marked.trans (Finset.subset_insert _ _), by simp, by simp, by grind⟩
  next pending => exact ⟨Finset.insert_subset (marking pending) marked, by simp, by simp, by grind⟩
  next pending => exact ⟨marked, by simp, fun _ => finishing (.inl pending), by grind⟩
  next pending => exact ⟨marked, by simp, fun _ => finishing (.inr (.inl pending)), by grind⟩
  next => exact ⟨marked, by simp, by simp, by grind⟩

@[simp] theorem publishControllerReadiness_authorityWatches (state : ControllerState) :
    (publishControllerReadiness state).authorityWatches = state.authorityWatches := by
  rw [publishControllerReadiness]
  split <;> rfl

@[simp] theorem publishControllerReadiness_cutRevision (state : ControllerState) :
    (publishControllerReadiness state).cutRevision = state.cutRevision := by
  rw [publishControllerReadiness]
  split <;> rfl

theorem Consistent.step (consistent : Consistent listings system) (action : Action) :
    Consistent (listings + action.isListing.toNat) (system.step action) := by
  have advanced := toNat_add_one_le system.cutRevision
  have counted := consistent.counted
  have idle : Consistent (listings + action.isListing.toNat) system :=
    { consistent with counted := counted.trans (Nat.le_add_right _ _) }
  cases action with
  | lockedInit watch =>
    rw [System.step]
    split
    next => exact idle
    next guarded =>
      refine ⟨Finset.insert_subset_insert _ consistent.marked, fun pending => ?_,
        fun pending => ?_, ?_⟩
      · exact Finset.mem_insert_of_mem (consistent.marking pending)
      · simp [consistent.finishing pending, Ne.symm guarded]
      · simp only [beginInitialAgentAuthorityWatch, Action.isListing, Bool.toNat_true]
        omega
  | lockedInitDone watch =>
    rw [System.step]
    split
    next => exact idle
    next listed =>
      obtain ⟨guarded, -⟩ := not_or.mp listed
      simp only [finishInitialAgentAuthorityWatch]
      refine ⟨?_, fun pending => ?_, fun pending => ?_, ?_⟩
      · simpa using Finset.erase_subset_erase watch consistent.marked
      · simpa [Ne.symm guarded] using consistent.marking pending
      · simp [consistent.finishing pending]
      · simp only [publishControllerReadiness_cutRevision, Action.isListing, Bool.toNat_true]
        omega
  | init =>
    rw [System.step]
    split
    next => exact idle
    next =>
      refine ⟨consistent.marked, by simp, by simp, ?_⟩
      simp only [Action.isListing, Bool.toNat_true, Option.some.injEq, reduceCtorEq, if_false]
      omega
  | initDone =>
    rw [System.step]
    split
    next => exact idle
    next =>
      refine ⟨Finset.erase_subset_erase _ consistent.marked, by simp, by simp, ?_⟩
      simp only [Action.isListing, Bool.toNat_true, if_true]
      omega
  | watcher => exact consistent.watcherStep
  | main =>
    rw [System.step, mainStep]
    split
    · exact ⟨consistent.marked, consistent.marking, consistent.finishing, counted⟩
    · exact ⟨consistent.marked, consistent.marking, consistent.finishing, counted⟩
    · exact idle

theorem consistent_moment (run : Nat → Action) (time : Nat) :
    Consistent (listingsAt run time) (moment run time) := by
  induction time with
  | zero => exact ⟨Finset.empty_subset _, by simp [moment, start], by simp [moment, start], le_rfl⟩
  | succ time ih => exact ih.step (run time)

/-! ## Fresh stores -/

/-- Nothing lists while readiness is up. -/
theorem listing_step_of_ready {action : Action} (consistent : Consistent listings system)
    (fresh : system.StoresReady action → system.listing = ∅)
    (closed : system.ready = true → system.listing = ∅)
    (ready : (system.step action).ready = true) : (system.step action).listing = ∅ := by
  cases action with
  | lockedInitDone watch =>
    rw [System.step] at ready ⊢
    split at ready
    next idle => rw [if_pos idle, closed ready]
    next listed =>
      rw [if_neg listed]
      dsimp only [finishInitialAgentAuthorityWatch, publishControllerReadiness] at ready ⊢
      split at ready
      next unmarked =>
        -- the last bit is cleared, and a watcher without its bit does not list
        exact Finset.subset_empty.mp (unmarked ▸ Finset.erase_subset_erase _ consistent.marked)
      next => rw [closed ready, Finset.erase_empty]
  | watcher => grind [System.step, watcherStep, StoresReady]
  | main => grind [System.step, mainStep, StoresReady]
  | lockedInit watch => grind [System.step, beginInitialAgentAuthorityWatch]
  | init => grind [System.step]
  | initDone => grind [System.step, Finset.erase_empty]

theorem listing_eq_empty_of_ready (fresh : StoresFresh run) {time : Nat}
    (ready : (moment run time).ready = true) : (moment run time).listing = ∅ := by
  induction time with
  | zero => cases ready
  | succ time ih =>
    exact listing_step_of_ready (consistent_moment run time) (fresh time) ih ready

/-- The revision is past a cut, or it is about to be before readiness can come back. -/
def Overtaken (cut : Nat) (system : System) : Prop :=
  cut < system.cutRevision.toNat ∨ cut = system.cutRevision.toNat ∧ system.ready = false ∧
    (system.listing ≠ ∅ ∨ system.pending = some .advanceRevision)

theorem toNat_cutRevision_step {action : Action} (consistent : Consistent listings system)
    (room : listings + action.isListing.toNat < 2 ^ 64) :
    (system.step action).cutRevision = system.cutRevision ∨
      (system.step action).cutRevision.toNat = system.cutRevision.toNat + 1 := by
  have counted := consistent.counted
  have advanced : system.cutRevision.toNat + 1 < 2 ^ 64 →
      (system.cutRevision + 1).toNat = system.cutRevision.toNat + 1 := by
    intro fits
    exact Nat.mod_eq_of_lt fits
  cases action with
  | lockedInit watch => grind [System.step, beginInitialAgentAuthorityWatch, Action.isListing]
  | lockedInitDone watch =>
    grind [System.step, finishInitialAgentAuthorityWatch, publishControllerReadiness,
      Action.isListing]
  | init => grind [System.step, Action.isListing]
  | initDone => grind [System.step]
  | watcher => grind [System.step, watcherStep]
  | main => grind [System.step, mainStep]

theorem Overtaken.step {cut : Nat} {action : Action} (overtaken : Overtaken cut system)
    (consistent : Consistent listings system) (served : system.startup = none)
    (fresh : system.StoresReady action → system.listing = ∅)
    (room : listings + action.isListing.toNat < 2 ^ 64) : Overtaken cut (system.step action) := by
  obtain same | advanced := toNat_cutRevision_step consistent room
  · obtain past | ⟨rfl, down, waiting⟩ := overtaken
    · exact .inl (same ▸ past)
    · refine .inr ⟨by rw [same], ?_⟩
      cases action with
      | initDone =>
        -- the list has ended, and the revision advances before readiness is published
        grind [System.step]
      | watcher =>
        -- a store finds no list and no revision that is still to advance
        grind [System.step, watcherStep, StoresReady, Finset.insert_ne_empty]
      | main => exact ⟨by grind [System.step, mainStep], by grind [System.step, mainStep]⟩
      | lockedInit watch => grind [System.step, beginInitialAgentAuthorityWatch]
      | lockedInitDone watch =>
        grind [System.step, finishInitialAgentAuthorityWatch, publishControllerReadiness]
      | init => grind [System.step]
  · left
    obtain past | ⟨rfl, -⟩ := overtaken <;> omega

theorem startup_moment {first time : Nat} (served : (moment run first).startup = none)
    (after : first ≤ time) : (moment run time).startup = none := by
  induction time, after using Nat.le_induction with
  | base => exact served
  | succ time after ih =>
    rw [moment]
    cases run time <;>
      grind [System.step, watcherStep, mainStep]

theorem toNat_cutRevision_le (few : ∀ time, listingsAt run time < 2 ^ 64) {first time : Nat}
    (after : first ≤ time) :
    (moment run first).cutRevision.toNat ≤ (moment run time).cutRevision.toNat := by
  induction time, after using Nat.le_induction with
  | base => exact le_rfl
  | succ time after ih =>
    obtain same | advanced := toNat_cutRevision_step (consistent_moment run time) (few (time + 1))
    · exact ih.trans (congrArg UInt64.toNat same).ge
    · exact ih.trans (advanced ▸ Nat.le_succ _)

theorem overtaken_moment (few : ∀ time, listingsAt run time < 2 ^ 64) (fresh : StoresFresh run)
    {first time : Nat} (served : (moment run first).startup = none) (after : first ≤ time)
    (listing : (moment run first).listing ≠ ∅) :
    Overtaken (moment run first).cutRevision.toNat (moment run time) := by
  induction time, after using Nat.le_induction with
  | base =>
    refine .inr ⟨rfl, ?_, .inl listing⟩
    rw [← Bool.not_eq_true]
    exact fun ready => listing (listing_eq_empty_of_ready fresh ready)
  | succ time after ih =>
    exact ih.step (consistent_moment run time) (startup_moment served after) (fresh time)
      (few (time + 1))

theorem response_eq_ofHandler {request : Request} (answered : request.response run = .ofHandler) :
    (moment run request.returned).ready = true ∧
      (moment run request.rechecked).cutRevision = (moment run request.sampled).cutRevision := by
  simp only [Request.response, admitAgentAuthorityRequest] at answered
  cases admission : request.admission <;> grind

theorem fenced_of_storesFresh (few : ∀ time, listingsAt run time < 2 ^ 64)
    (fresh : StoresFresh run) : Fenced run where
  answered request served answered time admitted returned := by
    obtain ⟨ready, sameCut⟩ := response_eq_ofHandler answered
    obtain ⟨arrived, sampled, -, rechecked⟩ := request.ordered
    by_contra listing
    have before := toNat_cutRevision_le few (sampled.trans admitted)
    have after := toNat_cutRevision_le few rechecked
    rw [sameCut] at after
    obtain past | ⟨-, down, -⟩ := overtaken_moment few fresh
      (startup_moment served (arrived.trans (sampled.trans admitted))) returned listing
    · omega
    · rw [ready] at down
      cases down
  cleared time watch ready _ listing := by
    rw [listing_eq_empty_of_ready fresh ready] at listing
    cases listing

/-- A request whose loads all fall into one moment is answered when readiness is up. -/
theorem Fenced.listing_eq_empty (fenced : Fenced run) {time : Nat}
    (served : (moment run time).startup = none) (ready : (moment run time).ready = true) :
    (moment run time).listing = ∅ := by
  let request : Request := ⟨.unneeded, time, time, time, time, time, by simp⟩
  have answered : request.response run = .ofHandler := by
    simp [Request.response, admitAgentAuthorityRequest, request, ready]
  exact fenced.answered request served answered time le_rfl le_rfl

theorem storesFresh_of_fenced (fenced : Fenced run) : StoresFresh run := by
  intro time stores
  by_contra listing
  have next : moment run (time + 1) = (moment run time).step (run time) := rfl
  cases action : run time with
  | watcher =>
    rw [action] at stores next
    rw [System.step, watcherStep, stores] at next
    -- the watcher has ended its list, so that it is another one that lists
    obtain ⟨watch, listed⟩ := Finset.nonempty_iff_ne_empty.mpr listing
    have consistent := consistent_moment run time
    have cleared := fenced.cleared (time + 1) watch
    rw [next] at cleared
    have own := cleared rfl (consistent.marked listed) listed
    exact consistent.finishing (.inr (.inr stores)) (own ▸ listed)
  | main =>
    rw [action] at stores next
    rw [System.step, mainStep, stores] at next
    have empty : (moment run (time + 1)).listing = ∅ :=
      fenced.listing_eq_empty (by rw [next]) (by rw [next])
    rw [next] at empty
    exact listing empty
  | lockedInit | lockedInitDone | init | initDone =>
    rw [action] at stores
    cases stores

/-- As long as fewer than 2^64 lists begin and end, requests are fenced exactly when no watcher is
listing at any store of readiness without the lock. -/
theorem fenced_iff_storesFresh (run : Nat → Action) (few : ∀ time, listingsAt run time < 2 ^ 64) :
    Fenced run ↔ StoresFresh run :=
  ⟨storesFresh_of_fenced, fenced_of_storesFresh few⟩

end Runs

/-- Every watcher under the lock completes its first list, and then the EncryptionPolicies watcher.
Between its check of the bits and its store of the flag the Pods are listed again. -/
def relistBeforeStore : List Action :=
  [.main, .lockedInit .pods, .lockedInitDone .pods, .lockedInit .namespaces,
    .lockedInitDone .namespaces, .lockedInit .nodes, .lockedInitDone .nodes,
    .lockedInit .services, .lockedInitDone .services, .lockedInit .endpointSlices,
    .lockedInitDone .endpointSlices, .lockedInit .securityPolicies,
    .lockedInitDone .securityPolicies, .lockedInit .networkPolicies,
    .lockedInitDone .networkPolicies, .init, .watcher, .watcher, .initDone, .watcher, .watcher,
    .lockedInit .pods, .watcher]

/-- A run of some steps after which the watchers are idle. -/
def finiteRun (actions : List Action) (time : Nat) : Action :=
  actions.getD time .watcher

theorem listingsAt_finiteRun_le (actions : List Action) (time : Nat) :
    listingsAt (finiteRun actions) time ≤ min time actions.length := by
  induction time with
  | zero => exact Nat.zero_le _
  | succ time ih =>
    rw [listingsAt, finiteRun]
    obtain inside | outside := Nat.lt_or_ge time actions.length
    · have one := Bool.toNat_le (actions.getD time .watcher).isListing
      omega
    · rw [List.getD_eq_default _ _ outside, Action.isListing, Bool.toNat_false]
      omega

theorem fenced_iff_storesFresh_relistBeforeStore : ¬StoresFresh (finiteRun relistBeforeStore) ∧
    (Fenced (finiteRun relistBeforeStore) ↔ StoresFresh (finiteRun relistBeforeStore)) := by
  refine ⟨fun fresh => ?_, fenced_iff_storesFresh _ fun time => ?_⟩
  · exact absurd (fresh 22 rfl) (by decide +kernel)
  · have bound := listingsAt_finiteRun_le relistBeforeStore time
    have length : relistBeforeStore.length = 23 := rfl
    omega

/-- A request is answered while the Pods are listed again. -/
theorem relistBeforeStore_not_fenced : ¬Fenced (finiteRun relistBeforeStore) := by
  intro fenced
  have empty : (moment (finiteRun relistBeforeStore) 23).listing = ∅ :=
    fenced.listing_eq_empty (by decide +kernel) (by decide +kernel)
  exact absurd empty (by decide +kernel)

end System

end Unf.Controller
