import Unf.Lib.OrderedMap

/-!
# Owners of leased items

Every owner has at most one lease, a lease has a list of items, and a second table finds
the owner of an item. The module says when the two tables agree, and which changes keep
them so.
-/

namespace Unf.Lib

open Std.ExtTreeMap

open Std (ExtTreeMap)

universe u v

variable {κ α : Type u} {ν : Type v} [LinearOrder κ] [LinearOrder α]
variable {items : ν → List α} {leases : ExtTreeMap κ ν} {owners : ExtTreeMap α κ}

/-- The owners of items are exactly the holders of the leases they are in. -/
def OwnersExact (items : ν → List α) (leases : ExtTreeMap κ ν) (owners : ExtTreeMap α κ) :
    Prop :=
  ∀ (item : α) (owner : κ), owners[item]? = some owner ↔
    ∃ lease, leases[owner]? = some lease ∧ item ∈ items lease

theorem ownersExact_empty : OwnersExact items (∅ : ExtTreeMap κ ν) (∅ : ExtTreeMap α κ) := by
  intro item owner
  simp

variable (exact : OwnersExact items leases owners)

include exact

theorem OwnersExact.unique {owners' : ExtTreeMap α κ} (exact' : OwnersExact items leases owners') :
    owners = owners' := by
  apply ext_getElem?
  intro item
  apply Option.ext
  intro owner
  rw [exact item owner, exact' item owner]

/-- An item in two leases is in the leases of one owner. -/
theorem OwnersExact.owner_eq {left right : κ} {leftLease rightLease : ν}
    (leftFound : leases[left]? = some leftLease) (rightFound : leases[right]? = some rightLease)
    {item : α} (inLeft : item ∈ items leftLease) (inRight : item ∈ items rightLease) :
    left = right := by
  have leftOwner := (exact item left).mpr ⟨leftLease, leftFound, inLeft⟩
  have rightOwner := (exact item right).mpr ⟨rightLease, rightFound, inRight⟩
  exact Option.some.inj (leftOwner.symm.trans rightOwner)

/-- All leases together hold no item twice. -/
theorem OwnersExact.nodup_items
    (distinct : ∀ (owner : κ) lease, leases[owner]? = some lease → (items lease).Nodup) :
    ((tableValues leases).flatMap items).Nodup := by
  rw [List.nodup_flatMap]
  constructor
  · intro lease member
    obtain ⟨owner, found⟩ := mem_tableValues.mp member
    exact distinct owner lease found
  · rw [tableValues, List.pairwise_map]
    refine (distinct_keys_toList (t := leases)).imp_of_mem ?_
    intro left right leftMember rightMember different item inLeft inRight
    refine different (compare_eq_iff_eq.mpr ?_)
    exact exact.owner_eq (mem_toList_iff_getElem?_eq_some.mp leftMember)
      (mem_toList_iff_getElem?_eq_some.mp rightMember) inLeft inRight

omit exact

variable {owner : κ} {lease : ν}

include exact

/-- A first lease of free items. -/
theorem OwnersExact.grant (vacant : leases[owner]? = none)
    (free : ∀ item ∈ items lease, item ∉ owners) : OwnersExact items (leases.insert owner lease)
      ((items lease).foldl (fun owners item => owners.insert item owner) owners) := by
  intro item holder
  have loop := getElem?_foldl_insert (fun item : α => item) owner (items lease) owners item
  rw [loop, List.map_id', getElem?_map_insert]
  by_cases granted : item ∈ items lease
  · have unowned : owners[item]? = none := getElem?_eq_none (free item granted)
    rw [if_pos granted, Option.some.injEq]
    constructor
    · rintro rfl
      exact ⟨lease, if_pos rfl, granted⟩
    · rintro ⟨other, found, member⟩
      by_contra different
      rw [if_neg different] at found
      have owned := (exact item holder).mpr ⟨other, found, member⟩
      rw [unowned] at owned
      cases owned
  · rw [if_neg granted, exact item holder]
    by_cases same : owner = holder
    · subst same
      simp [vacant, granted]
    · simp [same]

/-- Two leases share no item, so a lease that has not been granted again yet finds all its
items free. -/
theorem OwnersExact.free_of_pending {granted : ExtTreeMap κ ν} {claimed : ExtTreeMap α κ}
    (part : ∀ (owner : κ) lease, granted[owner]? = some lease → leases[owner]? = some lease)
    (exactPart : OwnersExact items granted claimed) (listed : leases[owner]? = some lease)
    (pending : owner ∉ granted) : ∀ item ∈ items lease, item ∉ claimed := by
  intro item member taken
  obtain ⟨holder, held⟩ := Option.isSome_iff_exists.mp (isSome_getElem?_iff_mem.mpr taken)
  obtain ⟨other, found, shared⟩ := (exactPart item holder).mp held
  have same := exact.owner_eq (part holder other found) listed shared member
  rw [same, getElem?_eq_none pending] at found
  cases found

/-- Leases that are entered one by one, each of them pending and with free items, rebuild
both tables. -/
theorem OwnersExact.foldlM_tableValues {σ ε : Type*} {key : ν → κ}
    (keyed : ∀ (owner : κ) lease, leases[owner]? = some lease → key lease = owner)
    {enter : σ → ν → Except ε σ} (state : ExtTreeMap κ ν → ExtTreeMap α κ → σ)
    (step : ∀ granted claimed lease, leases[key lease]? = some lease → key lease ∉ granted →
      (∀ item ∈ items lease, item ∉ claimed) →
        enter (state granted claimed) lease = .ok (state (granted.insert (key lease) lease)
          ((items lease).foldl (fun owners item => owners.insert item (key lease)) claimed))) :
    (tableValues leases).foldlM enter (state ∅ ∅) = .ok (state leases owners) := by
  have rebuild {rest : List ν} (distinct : (rest.map key).Nodup)
      (listed : ∀ lease ∈ rest, leases[key lease]? = some lease) {granted : ExtTreeMap κ ν}
      {claimed : ExtTreeMap α κ}
      (part : ∀ (owner : κ) lease, granted[owner]? = some lease → leases[owner]? = some lease)
      (exactPart : OwnersExact items granted claimed)
      (pending : ∀ lease ∈ rest, key lease ∉ granted) :
      ∃ claimed', rest.foldlM enter (state granted claimed) = .ok (state (rest.foldl
        (fun leases lease => leases.insert (key lease) lease) granted) claimed') ∧
        OwnersExact items (rest.foldl
          (fun leases lease => leases.insert (key lease) lease) granted) claimed' := by
    induction rest generalizing granted claimed with
    | nil => exact ⟨claimed, rfl, exactPart⟩
    | cons lease rest ih =>
      rw [List.map_cons, List.nodup_cons] at distinct
      rw [List.forall_mem_cons] at listed pending
      have free := exact.free_of_pending part exactPart listed.1 pending.1
      rw [List.foldlM_cons, step granted claimed lease listed.1 pending.1 free]
      refine ih distinct.2 listed.2 (forall_getElem?_insert listed.1 part)
        (exactPart.grant (getElem?_eq_none pending.1) free) ?_
      intro other member
      rw [mem_map_insert, not_or]
      refine ⟨fun same => distinct.1 ?_, pending.2 other member⟩
      exact List.mem_map.mpr ⟨other, member, same.symm⟩
  obtain ⟨claimed, ran, rebuilt⟩ := rebuild (nodup_key_tableValues keyed) (fun lease member => by
      obtain ⟨owner, found⟩ := mem_tableValues.mp member
      rw [keyed owner lease found]
      exact found)
    (fun owner lease found => by simp at found) ownersExact_empty
    (fun lease _ => not_mem_empty)
  rw [foldl_insert_tableValues keyed] at ran rebuilt
  rw [ran, rebuilt.unique exact]

/-- A lease replaced by one of the same items. -/
theorem OwnersExact.renew {renewed : ν} (found : leases[owner]? = some lease)
    (same : items renewed = items lease) :
    OwnersExact items (leases.insert owner renewed) owners := by
  intro item holder
  rw [exact item holder, getElem?_map_insert]
  by_cases equal : owner = holder
  · subst equal
    simp [found, same]
  · simp [equal]

/-- A lease given back with its items. -/
theorem OwnersExact.revoke (found : leases[owner]? = some lease) :
    OwnersExact items (leases.erase owner)
      ((items lease).foldl (fun owners item => owners.erase item) owners) := by
  intro item holder
  rw [getElem?_foldl_erase, getElem?_map_erase]
  by_cases revoked : item ∈ items lease
  · rw [if_pos revoked]
    constructor
    · intro owned
      cases owned
    · rintro ⟨other, held, member⟩
      by_cases same : owner = holder
      · rw [if_pos same] at held
        cases held
      · rw [if_neg same] at held
        exact absurd (exact.owner_eq found held revoked member) same
  · rw [if_neg revoked, exact item holder]
    by_cases same : owner = holder
    · subst same
      simp [found, revoked]
    · simp [same]

omit exact

omit [LinearOrder κ] in
/-- A loop that claims items for one owner, and stops at an item somebody has. -/
theorem foldlM_claim_eq_ok {ε : Type u} {body : ExtTreeMap α κ → α → Except ε (ExtTreeMap α κ)}
    (step : ∀ owners item after, body owners item = .ok after ↔
      item ∉ owners ∧ after = owners.insert item owner)
    {claimed : List α} {after : ExtTreeMap α κ} :
    (claimed.foldlM body owners : Except ε (ExtTreeMap α κ)) = .ok after ↔
      ((∀ item ∈ claimed, item ∉ owners) ∧ claimed.Nodup) ∧
        after = claimed.foldl (fun owners item => owners.insert item owner) owners := by
  rw [foldlM_eq_ok_iff step]
  refine and_congr_left fun _ => ?_
  have split : (∀ before item rest, claimed = before ++ item :: rest →
      item ∉ owners ∧ ∀ earlier ∈ before, earlier ≠ item) ↔ _ := forall_split_iff
  rw [List.nodup_iff_pairwise_ne, ← split]
  refine forall₃_congr fun before item rest => imp_congr_right fun _ => ?_
  have loop := mem_foldl_insert_values (fun item : α => item) (fun _ => owner) before owners item
  rw [loop, not_or, not_exists]
  simp only [not_and, ne_eq]

end Unf.Lib
