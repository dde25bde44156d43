import Unf.Common
import Unf.Lib.Probe
import Unf.Lib.Sorted

/-!
# Maglev lookup tables

Construction of a lookup table of prime size by interleaved probing: in each
round every backend claims the next free slot of its own probe sequence, until
the table is full.  The loops carry a budget and the index arithmetic of `usize`
is checked, so a returned table also witnesses termination and the absence of
overflow.
-/

namespace Unf.Service

open Unf.Lib List Option Nat

def maxBackendsPerService : Nat := 4096

def maglevMinSlotsPerBackend : Nat := 16

def maglevMaxTableSize : Nat := 65537

def maglevTableSizes : List Nat :=
  [251, 509, 1021, 2039, 4093, 8191, 16381, 32749, 65537]

/-- The fixed table size for a number of backends in the operating range.  The
product cannot exceed `usize` there. -/
def maglevTableSize (backendCount : Nat) : Option Nat :=
  if !(decide (2 ≤ backendCount) && decide (backendCount ≤ maxBackendsPerService)) then
    none
  else
    let required := backendCount * maglevMinSlotsPerBackend
    maglevTableSizes.find? fun size => decide (size ≥ required)

/-- A mixing function on 64-bit words with wrapping arithmetic. -/
def maglevMix (value : UInt64) : UInt64 :=
  let value := value + 0x9e3779b97f4a7c15
  let value := (value ^^^ (value >>> 30)) * 0xbf58476d1ce4e5b9
  let value := (value ^^^ (value >>> 27)) * 0x94d049bb133111eb
  value ^^^ (value >>> 31)

/-! ## Construction -/

/-- Why a construction could not return: index arithmetic left `usize`, or a
loop used up its budget. -/
inductive BuildFault where
  | overflow
  | exhausted
  deriving DecidableEq, Repr

abbrev Build := Except BuildFault

/-- The result of an operation on `usize`. -/
def checkedUsize (value : Nat) : Build Nat :=
  if value < 2 ^ 64 then .ok value else .error .overflow

/-- A backend with its probe sequence. -/
structure MaglevLane where
  backend : BackendId
  offset : Nat
  skip : Nat

variable (serviceId : ServiceId) (frontendIndex : UInt32)

/-- The lane of a backend in a table of the given size. -/
def maglevLane (tableSize : Nat) (backend : BackendId) : MaglevLane :=
  let frontendSeed := (serviceId.get.toUInt64 <<< 32) ||| frontendIndex.toUInt64
  let backendSeed := frontendSeed ^^^ backend.get.toUInt64
  { backend
    offset := (maglevMix backendSeed).toNat % tableSize
    skip := (maglevMix (backendSeed ^^^ 0xd1b54a32d192ed03)).toNat % (tableSize - 1) + 1 }

structure FillState where
  next : List Nat
  table : List (Option BackendId)
  populated : Nat

/-- The slot that a lane probes after `next` steps. -/
def candidateSlot (tableSize : Nat) (lane : MaglevLane) (next : Nat) : Build Nat := do
  let advance ← checkedUsize (next * lane.skip)
  let position ← checkedUsize (lane.offset + advance)
  return position % tableSize

/-- Whether a slot of the table is taken. -/
def Occupied (table : List (Option BackendId)) (slot : Nat) : Prop :=
  (table.getD slot none).isSome = true

instance (table : List (Option BackendId)) (slot : Nat) : Decidable (Occupied table slot) :=
  inferInstanceAs (Decidable (_ = true))

/-- Advance a lane to its next free slot. -/
def findFree (tableSize : Nat) (lane : MaglevLane) (table : List (Option BackendId)) :
    Nat → Nat → Build (Nat × Nat)
  | 0, _ => .error .exhausted
  | budget + 1, next => do
      let candidate ← candidateSlot tableSize lane next
      if Occupied table candidate then do
        let next ← checkedUsize (next + 1)
        findFree tableSize lane table budget next
      else
        return (next, candidate)

/-- The state before the first round. -/
def FillState.empty (backendCount tableSize : Nat) : FillState where
  next := List.replicate backendCount 0
  table := List.replicate tableSize none
  populated := 0

/-- Give a slot, found after `step` steps, to a backend. -/
def FillState.claim (state : FillState) (backendIndex slot step : Nat)
    (backend : BackendId) : FillState where
  next := state.next.set backendIndex (step + 1)
  table := state.table.set slot (some backend)
  populated := state.populated + 1

/-- One backend claims a slot. -/
def claimSlot (budget tableSize : Nat) (lane : MaglevLane) (backendIndex : Nat)
    (state : FillState) : Build FillState := do
  let (next, candidate) ←
    findFree tableSize lane state.table budget (state.next.getD backendIndex 0)
  let _ ← checkedUsize (next + 1)
  let _ ← checkedUsize (state.populated + 1)
  return state.claim backendIndex candidate next lane.backend

/-- One round over the backends, left as soon as the table is full. -/
def fillRound (budget tableSize : Nat) :
    List (MaglevLane × Nat) → FillState → Build FillState
  | [], state => .ok state
  | (lane, backendIndex) :: rest, state => do
      let state ← claimSlot budget tableSize lane backendIndex state
      if state.populated == tableSize then
        return state
      else
        fillRound budget tableSize rest state

/-- Rounds until the table is full. -/
def fillTable (budget tableSize : Nat) (lanes : List MaglevLane) :
    Nat → FillState → Build FillState
  | rounds, state =>
    if state.populated < tableSize then
      match rounds with
      | 0 => .error .exhausted
      | rounds + 1 => do
          let state ← fillRound budget tableSize lanes.zipIdx state
          fillTable budget tableSize lanes rounds state
    else
      .ok state

/-- The lookup table of a frontend; `budget` bounds every loop. -/
def buildMaglevTable (budget : Nat) (serviceId : ServiceId) (frontendIndex : UInt32)
    (backendIds : List BackendId) : Build (Option (List BackendId)) :=
  match maglevTableSize backendIds.length with
  | none => .ok none
  | some tableSize =>
    let backends := sortDedup backendIds
    if backends.length != backendIds.length then
      .ok none
    else do
      let lanes := backends.map (maglevLane serviceId frontendIndex tableSize)
      let state ← fillTable budget tableSize lanes budget
        (.empty backends.length tableSize)
      return state.table.mapM id

/-! ## Table sizes -/

theorem maglevTableSizes_prime : ∀ size ∈ maglevTableSizes, size.Prime := by
  simp only [maglevTableSizes, mem_cons, forall_eq_or_imp]
  norm_num

/-- In the operating range the size is the least listed one that holds sixteen
slots for every backend. -/
theorem maglevTableSize_spec {backendCount : Nat} (atLeastTwo : 2 ≤ backendCount)
    (atMost : backendCount ≤ maxBackendsPerService) :
    ∃ size, maglevTableSize backendCount = some size ∧ size ∈ maglevTableSizes ∧
      backendCount * maglevMinSlotsPerBackend ≤ size ∧ ∀ other ∈ maglevTableSizes,
        backendCount * maglevMinSlotsPerBackend ≤ other → size ≤ other := by
  have largest : 65537 ∈ maglevTableSizes := by decide
  have enough : backendCount * maglevMinSlotsPerBackend ≤ 65537 := by
    simp only [maxBackendsPerService, maglevMinSlotsPerBackend] at atMost ⊢
    omega
  have found : (maglevTableSizes.find? fun size =>
      decide (size ≥ backendCount * maglevMinSlotsPerBackend)).isSome := by
    rw [find?_isSome]
    exact ⟨65537, largest, by simpa using enough⟩
  obtain ⟨size, sizeFound⟩ := isSome_iff_exists.mp found
  have sorted : sort maglevTableSizes = maglevTableSizes := sort_eq_self (by decide)
  have least := sizeFound
  rw [← sorted, find?_sort_eq_some_iff] at least
  simp only [decide_eq_true_eq] at least
  exact ⟨size, by simpa [maglevTableSize, atLeastTwo, atMost] using sizeFound, least⟩

/-! ## Probing -/

theorem checkedUsize_of_lt {value : Nat} (bound : value < 2 ^ 64) :
    checkedUsize value = .ok value := by
  rw [checkedUsize, if_pos bound]

/-- A lane whose probe sequence runs through a table of the given size. -/
structure MaglevLane.Fits (lane : MaglevLane) (tableSize : Nat) : Prop where
  offset_lt : lane.offset < tableSize
  skip_pos : 0 < lane.skip
  skip_lt : lane.skip < tableSize

def MaglevLane.slot (lane : MaglevLane) (tableSize step : Nat) : Nat :=
  probeSlot tableSize lane.offset lane.skip step

section Probing

variable {tableSize : Nat} {lane : MaglevLane} {next : Nat}

theorem candidateSlot_eq (fits : lane.Fits tableSize)
    (small : tableSize ≤ maglevMaxTableSize) (bound : next ≤ tableSize) :
    candidateSlot tableSize lane next = .ok (lane.slot tableSize next) := by
  have offset := fits.offset_lt
  have product : next * lane.skip ≤ 65537 * 65537 :=
    Nat.mul_le_mul (bound.trans small) (fits.skip_lt.le.trans small)
  simp only [maglevMaxTableSize] at small
  rw [candidateSlot, checkedUsize_of_lt (by omega), ok_bind, checkedUsize_of_lt (by omega)]
  rfl

/-- A lane that has only passed taken slots finds the first free slot of its
probe sequence, within one cycle. -/
theorem findFree_spec (prime : tableSize.Prime) (fits : lane.Fits tableSize)
    (small : tableSize ≤ maglevMaxTableSize) {table : List (Option BackendId)}
    {freeSlot : Nat} (freeBound : freeSlot < tableSize) (free : ¬Occupied table freeSlot)
    (passed : ∀ step < next, Occupied table (lane.slot tableSize step)) : ∃ step < tableSize,
      (∀ budget, tableSize < budget + next →
        findFree tableSize lane table budget next = .ok (step, lane.slot tableSize step)) ∧
      ¬Occupied table (lane.slot tableSize step) ∧
      ∀ earlier < step, Occupied table (lane.slot tableSize earlier) := by
  obtain ⟨freeStep, freeStepBound, reaches⟩ := exists_probeSlot_eq prime
    fits.skip_pos fits.skip_lt lane.offset freeBound
  have exists_free : ∃ step, ¬Occupied table (lane.slot tableSize step) := by
    refine ⟨freeStep, ?_⟩
    rw [MaglevLane.slot, reaches]
    exact free
  have firstFree := Nat.find_spec exists_free
  have earlier (step : Nat) (before : step < Nat.find exists_free) :
      Occupied table (lane.slot tableSize step) :=
    not_not.mp (Nat.find_min exists_free before)
  have bounded : Nat.find exists_free < tableSize :=
    (Nat.find_min' exists_free (by rwa [MaglevLane.slot, reaches])).trans_lt freeStepBound
  have notPassed : next ≤ Nat.find exists_free :=
    not_lt.mp fun before => firstFree (passed _ before)
  refine ⟨Nat.find exists_free, bounded, ?_, firstFree, earlier⟩
  clear passed
  intro budget
  induction budget generalizing next with
  | zero => omega
  | succ budget ih =>
    intro enough
    rw [findFree, candidateSlot_eq fits small (notPassed.trans bounded.le), ok_bind]
    rcases notPassed.eq_or_lt with rfl | ahead
    · rw [if_neg firstFree]
      rfl
    · simp only [maglevMaxTableSize] at small
      rw [if_pos (earlier next ahead), checkedUsize_of_lt (by omega)]
      exact ih ahead (by omega)

end Probing

/-! ## Filling -/

/-- The lanes of one table. -/
structure LanesFit (lanes : List MaglevLane) (tableSize : Nat) : Prop where
  prime : tableSize.Prime
  small : tableSize ≤ maglevMaxTableSize
  fits : ∀ lane ∈ lanes, lane.Fits tableSize
  distinct : (lanes.map MaglevLane.backend).Nodup

/-- The state after `round` whole rounds and the first `position` lanes of the
next one: every slot that a lane has passed is taken, and each backend holds one
slot for each of its turns. -/
structure FillInvariant (lanes : List MaglevLane) (tableSize round position : Nat)
    (state : FillState) : Prop where
  tableLength : state.table.length = tableSize
  nextLength : state.next.length = lanes.length
  populated : state.populated = round * lanes.length + position
  occupied : state.table.countP Option.isSome = state.populated
  known : ∀ backend, some backend ∈ state.table →
    backend ∈ lanes.map MaglevLane.backend
  turns : ∀ index lane, lanes[index]? = some lane →
    state.table.count (some lane.backend) = round + if index < position then 1 else 0
  passed : ∀ index lane, lanes[index]? = some lane →
    state.next.getD index 0 ≤ tableSize ∧
      ∀ step < state.next.getD index 0, Occupied state.table (lane.slot tableSize step)

section Filling

variable {lanes : List MaglevLane} {tableSize : Nat}
  {table : List (Option BackendId)} {state : FillState} {slot : Nat}

theorem exists_free (notFull : table.countP Option.isSome < table.length) :
    ∃ slot < table.length, ¬Occupied table slot := by
  by_contra full
  push Not at full
  apply notFull.ne
  rw [countP_eq_length]
  intro entry member
  obtain ⟨slot, bound, rfl⟩ := mem_iff_getElem.mp member
  have := full slot bound
  rwa [Occupied, getD_eq_getElem _ _ bound] at this

theorem Occupied.set {claimed : Nat} (occupied : Occupied table slot) (backend : BackendId) :
    Occupied (table.set claimed (some backend)) slot := by
  simp only [Occupied, getD_eq_getElem?_getD, getElem?_set] at occupied ⊢
  split
  · split
    · rfl
    · next same outside =>
        rw [getElem?_eq_none (by omega)] at occupied
        simp at occupied
  · exact occupied

theorem occupied_set_self (bound : slot < table.length) (backend : BackendId) :
    Occupied (table.set slot (some backend)) slot := by
  simp [Occupied, bound]

theorem backend_ne_of_index_ne (distinct : (lanes.map MaglevLane.backend).Nodup)
    {leftIndex rightIndex : Nat} {left right : MaglevLane}
    (leftMember : lanes[leftIndex]? = some left)
    (rightMember : lanes[rightIndex]? = some right) (different : leftIndex ≠ rightIndex) :
    left.backend ≠ right.backend := by
  intro same
  apply different
  obtain ⟨leftBound, -⟩ := List.getElem?_eq_some_iff.mp leftMember
  rw [← List.getElem?_inj (by simpa using leftBound) distinct, List.getElem?_map,
    List.getElem?_map, leftMember, rightMember, map_some, map_some, same]

variable {round budget : Nat} {position : Nat} {lane : MaglevLane}

variable (fit : LanesFit lanes tableSize)

include fit

/-- Claiming the first free slot of a lane's probe sequence keeps the invariant
and advances it by one position. -/
theorem FillInvariant.claim {step : Nat} (member : lanes[position]? = some lane)
    (invariant : FillInvariant lanes tableSize round position state) (stepBound : step < tableSize)
    (slotFree : ¬Occupied state.table (lane.slot tableSize step))
    (earlier : ∀ visited < step, Occupied state.table (lane.slot tableSize visited)) :
    FillInvariant lanes tableSize round (position + 1)
      (state.claim position (lane.slot tableSize step) step lane.backend) := by
  obtain ⟨positionBound, -⟩ := List.getElem?_eq_some_iff.mp member
  have slotBound : lane.slot tableSize step < state.table.length := by
    rw [invariant.tableLength]
    exact probeSlot_lt fit.prime.pos _ _ _
  have slotEmpty : state.table[lane.slot tableSize step] = none := by
    rw [Occupied, getD_eq_getElem _ _ slotBound] at slotFree
    simpa using slotFree
  refine ⟨?_, ?_, ?_, ?_, ?_, ?_, ?_⟩
  · rw [FillState.claim, length_set, invariant.tableLength]
  · rw [FillState.claim, length_set, invariant.nextLength]
  · rw [FillState.claim, invariant.populated, add_assoc]
  · rw [FillState.claim, countP_set slotBound, slotEmpty, invariant.occupied]
    simp
  · intro backend backendMember
    rcases mem_or_eq_of_mem_set backendMember with old | new
    · exact invariant.known backend old
    · cases new
      exact mem_map_of_mem (mem_of_getElem? member)
  · intro index other otherMember
    rw [FillState.claim, count_set slotBound, slotEmpty, invariant.turns index other otherMember]
    by_cases same : index = position
    · subst same
      obtain rfl : other = lane := Option.some.inj (otherMember.symm.trans member)
      simp
    · have different := backend_ne_of_index_ne fit.distinct member otherMember (Ne.symm same)
      have sameTurn : index < position + 1 ↔ index < position := by omega
      simp [different, sameTurn]
  · intro index other otherMember
    rw [FillState.claim]
    by_cases same : index = position
    · subst same
      obtain rfl : other = lane := Option.some.inj (otherMember.symm.trans member)
      rw [← invariant.nextLength] at positionBound
      rw [getD_eq_getElem?_getD, getElem?_set_self positionBound]
      refine ⟨stepBound, ?_⟩
      intro visited visitedBound
      rcases Nat.lt_succ_iff_lt_or_eq.mp visitedBound with before | rfl
      · exact (earlier visited before).set _
      · exact occupied_set_self slotBound _
    · rw [getD_eq_getElem?_getD, getElem?_set_ne (Ne.symm same)]
      obtain ⟨otherBound, otherPassed⟩ := invariant.passed index other otherMember
      exact ⟨otherBound, fun visited visitedBound => (otherPassed visited visitedBound).set _⟩

theorem claimSlot_spec (member : lanes[position]? = some lane)
    (invariant : FillInvariant lanes tableSize round position state)
    (notFull : state.populated < tableSize) :
    ∃ claimed, (∀ budget > tableSize,
        claimSlot budget tableSize lane position state = .ok claimed) ∧
      FillInvariant lanes tableSize round (position + 1) claimed := by
  have laneFits := fit.fits lane (mem_of_getElem? member)
  obtain ⟨nextBound, passed⟩ := invariant.passed position lane member
  have hasFree : state.table.countP Option.isSome < state.table.length := by
    rw [invariant.occupied, invariant.tableLength]
    exact notFull
  obtain ⟨freeSlot, freeBound, free⟩ := exists_free hasFree
  rw [invariant.tableLength] at freeBound
  obtain ⟨step, stepBound, found, slotFree, earlier⟩ := findFree_spec fit.prime
    laneFits fit.small freeBound free passed
  have small := fit.small
  simp only [maglevMaxTableSize] at small
  refine ⟨_, fun budget enough => ?_, invariant.claim fit member stepBound slotFree earlier⟩
  rw [claimSlot, found budget (by omega)]
  dsimp only
  rw [checkedUsize_of_lt (by omega), ok_bind, checkedUsize_of_lt (by omega)]
  rfl

omit fit in
/-- A whole round is the start of the next one. -/
theorem FillInvariant.nextRound
    (invariant : FillInvariant lanes tableSize round lanes.length state) :
    FillInvariant lanes tableSize (round + 1) 0 state where
  tableLength := invariant.tableLength
  nextLength := invariant.nextLength
  populated := by
    rw [invariant.populated]
    ring
  occupied := invariant.occupied
  known := invariant.known
  turns := by
    intro index lane member
    obtain ⟨bound, -⟩ := List.getElem?_eq_some_iff.mp member
    rw [invariant.turns index lane member, if_pos bound, if_neg (not_lt_zero index)]
  passed := invariant.passed

/-- A round over the remaining lanes ends with a full table or after the last
lane. -/
theorem fillRound_spec {done rest : List MaglevLane} (split : lanes = done ++ rest)
    (invariant : FillInvariant lanes tableSize round done.length state)
    (notFull : state.populated < tableSize) : ∃ position filled, (∀ budget > tableSize,
        fillRound budget tableSize (rest.zipIdx done.length) state = .ok filled) ∧
      position ≤ lanes.length ∧ FillInvariant lanes tableSize round position filled ∧
      filled.populated ≤ tableSize ∧ (filled.populated = tableSize ∨ position = lanes.length) := by
  induction rest generalizing done state with
  | nil =>
    rw [append_nil] at split
    subst split
    exact ⟨_, state, fun _ _ => rfl, le_refl _, invariant, notFull.le, Or.inr rfl⟩
  | cons lane rest ih =>
    have member : lanes[done.length]? = some lane := by
      simp [split]
    obtain ⟨claimed, claims, claimedInvariant⟩ := claimSlot_spec fit member invariant notFull
    have advanced : claimed.populated = state.populated + 1 := by
      rw [claimedInvariant.populated, invariant.populated, add_assoc]
    simp only [zipIdx_cons, fillRound, beq_iff_eq]
    by_cases full : claimed.populated = tableSize
    · refine ⟨_, claimed, fun budget enough => ?_, ?_, claimedInvariant, full.le, Or.inl full⟩
      · rw [claims budget enough, ok_bind, if_pos full]
        rfl
      · rw [split]
        simp
    · have appended : lanes = (done ++ [lane]) ++ rest := by
        rw [split, append_assoc, singleton_append]
      have position : done.length + 1 = (done ++ [lane]).length := by simp
      rw [position] at claimedInvariant ⊢
      obtain ⟨last, filled, fills, reached⟩ := ih appended claimedInvariant (by omega)
      refine ⟨last, filled, fun budget enough => ?_, reached⟩
      rw [claims budget enough, ok_bind, if_neg full, fills budget enough]

omit fit in
theorem fillTable_of_full (full : tableSize ≤ state.populated) (rounds : Nat) :
    fillTable budget tableSize lanes rounds state = .ok state := by
  cases rounds <;> rw [fillTable, if_neg full.not_gt]

/-- The rounds fill the table. -/
theorem fillTable_spec (nonempty : lanes ≠ []) {missing : Nat}
    (invariant : FillInvariant lanes tableSize round 0 state) (bound : state.populated ≤ tableSize)
    (most : tableSize ≤ missing + state.populated) : ∃ lastRound position filled,
      (∀ budget > tableSize, ∀ rounds ≥ missing,
        fillTable budget tableSize lanes rounds state = .ok filled) ∧
      position ≤ lanes.length ∧ FillInvariant lanes tableSize lastRound position filled ∧
      filled.populated = tableSize := by
  have positive : 0 < lanes.length := length_pos_of_ne_nil nonempty
  induction missing generalizing round state with
  | zero =>
    exact ⟨round, 0, state, fun _ _ rounds _ => fillTable_of_full (by omega) rounds,
      zero_le _, invariant, by omega⟩
  | succ missing ih =>
    by_cases notFull : state.populated < tableSize
    · obtain ⟨position, filled, fills, positionBound, filledInvariant, filledBound, outcome⟩ :=
        fillRound_spec fit (nil_append lanes).symm invariant notFull
      have continues {final : FillState} (rest : ∀ budget > tableSize, ∀ rounds ≥ missing,
          fillTable budget tableSize lanes rounds filled = .ok final) :
          ∀ budget > tableSize, ∀ rounds ≥ missing + 1,
            fillTable budget tableSize lanes rounds state = .ok final := by
        intro budget enough rounds many
        obtain ⟨rounds, rfl⟩ := Nat.exists_eq_add_of_le' (Nat.one_le_of_lt many)
        rw [fillTable, if_pos notFull]
        exact bind_eq_ok.mpr
          ⟨filled, fills budget enough, rest budget enough rounds (le_of_succ_le_succ many)⟩
      rcases outcome with full | whole
      · exact ⟨round, position, filled, continues fun _ _ rounds _ =>
          fillTable_of_full full.ge rounds, positionBound, filledInvariant, full⟩
      · subst whole
        have advanced : state.populated < filled.populated := by
          rw [filledInvariant.populated, invariant.populated]
          omega
        obtain ⟨lastRound, position, final, rest, reached⟩ :=
          ih filledInvariant.nextRound filledBound (by omega)
        exact ⟨lastRound, position, final, continues rest, reached⟩
    · exact ⟨round, 0, state, fun _ _ rounds _ => fillTable_of_full (not_lt.mp notFull) rounds,
        zero_le _, invariant, by omega⟩

end Filling

/-! ## The finished table -/

theorem maglevLane_fits {tableSize : Nat} (large : 2 ≤ tableSize) (backend : BackendId) :
    (maglevLane serviceId frontendIndex tableSize backend).Fits tableSize where
  offset_lt := mod_lt _ (by omega)
  skip_pos := succ_pos _
  skip_lt := by
    have bound := mod_lt (maglevMix ((((serviceId.get.toUInt64 <<< 32) |||
      frontendIndex.toUInt64) ^^^ backend.get.toUInt64) ^^^
        0xd1b54a32d192ed03)).toNat (show 0 < tableSize - 1 by omega)
    change _ % (tableSize - 1) + 1 < tableSize
    omega

/-- What a finished table owes to the backends it was built for. -/
structure Balanced (backendIds table : List BackendId) : Prop where
  size_mem : table.length ∈ maglevTableSizes
  size_prime : table.length.Prime
  size_ge : 16 * backendIds.length ≤ table.length
  size_least : ∀ size ∈ maglevTableSizes, 16 * backendIds.length ≤ size →
    table.length ≤ size
  mem_backends : ∀ backend ∈ table, backend ∈ backendIds
  backends_mem : ∀ backend ∈ backendIds, backend ∈ table
  balanced : ∀ left ∈ backendIds, ∀ right ∈ backendIds,
    table.count left ≤ table.count right + 1

section Table

variable (serviceId : ServiceId) (frontendIndex : UInt32) {backendIds : List BackendId}
variable {tableSize : Nat} {backends table : List BackendId}

theorem lanesFit_map_maglevLane (sizeMember : tableSize ∈ maglevTableSizes)
    (distinct : backends.Nodup) :
    LanesFit (backends.map (maglevLane serviceId frontendIndex tableSize)) tableSize := by
  have prime := maglevTableSizes_prime tableSize sizeMember
  have bounds : ∀ size ∈ maglevTableSizes, size ≤ maglevMaxTableSize := by decide
  refine ⟨prime, bounds tableSize sizeMember, ?_, ?_⟩
  · intro lane member
    obtain ⟨backend, -, rfl⟩ := mem_map.mp member
    exact maglevLane_fits serviceId frontendIndex prime.two_le backend
  · rw [List.map_map]
    exact (List.map_id backends).symm ▸ distinct

theorem fillInvariant_empty (lanes : List MaglevLane) :
    FillInvariant lanes tableSize 0 0 (.empty lanes.length tableSize) where
  tableLength := length_replicate
  nextLength := length_replicate
  populated := by simp [FillState.empty]
  occupied := by simp [FillState.empty]
  known := by simp [FillState.empty]
  turns := by
    simp [FillState.empty, count_replicate]
  passed := by
    intro index lane member
    have start : (List.replicate lanes.length 0).getD index 0 = 0 := by
      rw [getD_eq_getElem?_getD, getElem?_replicate]
      split <;> rfl
    rw [FillState.empty, start]
    exact ⟨zero_le _, fun step bound => absurd bound (not_lt_zero step)⟩

variable {state : FillState} {budget larger : Nat}

/-- A full table whose lanes are the given backends is balanced. -/
theorem FillInvariant.balanced {round position : Nat} (invariant : FillInvariant
      (backends.map (maglevLane serviceId frontendIndex tableSize)) tableSize round position state)
    (positionBound : position ≤ backends.length) (full : state.populated = tableSize)
    (tableEq : state.table = table.map some) (nonempty : 0 < backends.length)
    (sizeMember : tableSize ∈ maglevTableSizes)
    (sizeEnough : backends.length * maglevMinSlotsPerBackend ≤ tableSize)
    (sizeLeast : ∀ other ∈ maglevTableSizes,
      backends.length * maglevMinSlotsPerBackend ≤ other → tableSize ≤ other) :
    Balanced backends table := by
  have counts : ∀ backend ∈ backends, ∃ turn ≤ 1, table.count backend = round + turn := by
    intro backend member
    obtain ⟨index, found⟩ := mem_iff_getElem?.mp member
    have laneFound : (backends.map (maglevLane serviceId frontendIndex tableSize))[index]? =
        some (maglevLane serviceId frontendIndex tableSize backend) := by
      rw [List.getElem?_map, found]
      rfl
    have turns := invariant.turns index _ laneFound
    rw [tableEq, count_map_of_injective _ _ (some_injective _)] at turns
    refine ⟨_, ?_, turns⟩
    split <;> omega
  have someRound : 1 ≤ round := by
    have populated := invariant.populated
    simp only [maglevMinSlotsPerBackend] at sizeEnough
    by_contra noRound
    obtain rfl : round = 0 := by omega
    omega
  have tableLength : table.length = tableSize := by
    rw [← invariant.tableLength, tableEq, length_map]
  simp only [maglevMinSlotsPerBackend, mul_comm _ 16] at sizeEnough sizeLeast
  constructor
  · rwa [tableLength]
  · rw [tableLength]
    exact maglevTableSizes_prime tableSize sizeMember
  · rwa [tableLength]
  · rwa [tableLength]
  · intro backend member
    have known := invariant.known backend (by
      rw [tableEq]
      exact mem_map_of_mem member)
    rw [List.map_map] at known
    exact (List.map_id backends) ▸ known
  · intro backend member
    obtain ⟨turn, -, count⟩ := counts backend member
    rw [← count_pos_iff]
    omega
  · intro left leftMember right rightMember
    obtain ⟨leftTurn, leftBound, leftCount⟩ := counts left leftMember
    obtain ⟨rightTurn, -, rightCount⟩ := counts right rightMember
    omega

theorem Balanced.of_perm (balanced : Balanced backends table) (perm : backends.Perm backendIds) :
    Balanced backendIds table where
  size_mem := balanced.size_mem
  size_prime := balanced.size_prime
  size_ge := perm.length_eq ▸ balanced.size_ge
  size_least := perm.length_eq ▸ balanced.size_least
  mem_backends backend member := perm.mem_iff.mp (balanced.mem_backends backend member)
  backends_mem backend member := balanced.backends_mem backend (perm.mem_iff.mpr member)
  balanced left leftMember right rightMember :=
    balanced.balanced left (perm.mem_iff.mpr leftMember) right (perm.mem_iff.mpr rightMember)

theorem buildMaglevTable_of_nodup (atLeastTwo : 2 ≤ backendIds.length)
    (atMost : backendIds.length ≤ maxBackendsPerService) (distinct : backendIds.Nodup) :
    ∃ table, (∀ budget > maglevMaxTableSize,
        buildMaglevTable budget serviceId frontendIndex backendIds = .ok (some table)) ∧
      Balanced backendIds table := by
  obtain ⟨tableSize, sizeFound, sizeMember, sizeEnough, sizeLeast⟩ :=
    maglevTableSize_spec atLeastTwo atMost
  have sameLength := (length_sortDedup_eq_iff backendIds).mpr distinct
  have perm := sortDedup_perm_of_nodup distinct
  have fit := lanesFit_map_maglevLane serviceId frontendIndex sizeMember
    (perm.nodup_iff.mpr distinct)
  obtain ⟨round, position, filled, fills, positionBound, invariant, full⟩ :=
    fillTable_spec fit (by
      rw [← length_pos_iff, length_map]
      omega) (fillInvariant_empty _) (zero_le _) (le_add_right tableSize 0)
  rw [length_map] at fills positionBound
  have allSome : ∀ entry ∈ filled.table, entry.isSome = true := by
    rw [← countP_eq_length, invariant.occupied, invariant.tableLength, full]
  obtain ⟨table, tableEq⟩ : ∃ table : List BackendId, table.map some = filled.table :=
    ⟨filled.table.filterMap id, by
      rw [List.map_filterMap_some_eq_filter_map_isSome, List.map_id, filter_eq_self.mpr allSome]⟩
  refine ⟨table, fun budget enough => ?_, ?_⟩
  · have large := fit.small.trans_lt enough
    simp only [buildMaglevTable, sizeFound]
    rw [if_neg (by simpa using sameLength), fills budget large budget large.le, ok_bind,
      ← tableEq, mapM_map]
    exact congrArg Except.ok ((mapM_pure (m := Option)).trans (congrArg some (List.map_id table)))
  · rw [← perm.length_eq] at atLeastTwo sizeEnough sizeLeast
    exact (invariant.balanced serviceId frontendIndex positionBound full tableEq.symm
      (by omega) sizeMember sizeEnough sizeLeast).of_perm perm

theorem buildMaglevTable_of_repeated (repeated : ¬backendIds.Nodup) (budget : Nat) :
    buildMaglevTable budget serviceId frontendIndex backendIds = .ok none := by
  rw [← length_sortDedup_eq_iff] at repeated
  rw [buildMaglevTable]
  split
  · rfl
  · rw [if_pos (by simpa using repeated)]

/-- The table does not depend on the order of the backends. -/
theorem buildMaglevTable_perm {permuted : List BackendId}
    (perm : permuted.Perm backendIds) (budget : Nat) :
    buildMaglevTable budget serviceId frontendIndex permuted =
      buildMaglevTable budget serviceId frontendIndex backendIds := by
  rw [buildMaglevTable, buildMaglevTable, perm.length_eq, sortDedup_perm perm]

end Table

/-- Table construction is total, complete and balanced, and does not depend on
the order of the backends. -/
theorem buildMaglevTable_spec (backendIds : List BackendId) (atLeastTwo : 2 ≤ backendIds.length)
    (atMost : backendIds.length ≤ maxBackendsPerService) : ∃ result : Option (List BackendId),
      (∀ budget > maglevMaxTableSize, ∀ permuted : List BackendId, permuted.Perm backendIds →
          buildMaglevTable budget serviceId frontendIndex permuted = .ok result) ∧
      (result = none ↔ ¬backendIds.Nodup) ∧ ∀ table ∈ result, Balanced backendIds table := by
  by_cases distinct : backendIds.Nodup
  · obtain ⟨table, built, balanced⟩ := buildMaglevTable_of_nodup serviceId
      frontendIndex atLeastTwo atMost distinct
    refine ⟨some table, ?_, by simp [distinct], by simpa using balanced⟩
    intro budget enough permuted perm
    rw [buildMaglevTable_perm serviceId frontendIndex perm]
    exact built budget enough
  · refine ⟨none, ?_, by simpa using distinct, by simp⟩
    intro budget _ permuted perm
    rw [buildMaglevTable_perm serviceId frontendIndex perm,
      buildMaglevTable_of_repeated serviceId frontendIndex distinct]

theorem buildMaglevTable_spec_two : ∃ result : Option (List BackendId),
      (∀ budget > maglevMaxTableSize, ∀ permuted : List BackendId, permuted.Perm [⟨7⟩, ⟨9⟩] →
          buildMaglevTable budget ⟨1⟩ 0 permuted = .ok result) ∧
      (result = none ↔ ¬([⟨7⟩, ⟨9⟩] : List BackendId).Nodup) ∧
      ∀ table ∈ result, Balanced [⟨7⟩, ⟨9⟩] table :=
  buildMaglevTable_spec ⟨1⟩ 0 [⟨7⟩, ⟨9⟩] (by decide) (by decide)

end Unf.Service
