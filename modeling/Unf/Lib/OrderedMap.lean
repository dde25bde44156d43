import Std.Data.ExtTreeMap.Lemmas
import Std.Data.ExtTreeSet.Lemmas
import Unf.Lib.Except
import Unf.Lib.Order

/-!
# Ordered maps and sets

What ordered maps and sets contain after a loop has filled them, for keys with a
linear order.
-/

namespace Unf.Lib

open List

open Std (ExtTreeMap ExtTreeSet)

universe u v w

variable {α : Type u} {κ : Type v} {ν : Type w} [LinearOrder κ]
  {value inserted : κ} {owner : ν} {items : List α} {table : ExtTreeMap κ ν} {key : ν → κ}
  {seen : ExtTreeSet κ}

theorem contains_eq_false_iff :
    seen.contains value = false ↔ value ∉ seen := by
  rw [← ExtTreeSet.contains_iff_mem, Bool.not_eq_true]

variable {owners : ExtTreeMap κ ν} {erased : κ}

theorem map_contains_eq_false_iff : owners.contains value = false ↔ value ∉ owners := by
  rw [← ExtTreeMap.contains_iff_mem, Bool.not_eq_true]

theorem mem_set_insert :
    value ∈ seen.insert inserted ↔ inserted = value ∨ value ∈ seen := by
  rw [ExtTreeSet.mem_insert, compare_eq_iff_eq]

theorem mem_map_insert :
    value ∈ owners.insert inserted owner ↔ inserted = value ∨ value ∈ owners := by
  rw [ExtTreeMap.mem_insert, compare_eq_iff_eq]

theorem getElem?_map_insert (owners : ExtTreeMap κ ν) (inserted value : κ) (owner : ν) :
    (owners.insert inserted owner)[value]? =
      if inserted = value then some owner else owners[value]? := by
  rw [ExtTreeMap.getElem?_insert]
  simp only [compare_eq_iff_eq]

/-- What holds of a new entry and of those before it holds of all. -/
theorem forall_getElem?_insert {holds : κ → ν → Prop} (entered : holds inserted owner)
    (kept : ∀ (value : κ) other, owners[value]? = some other → holds value other) :
    ∀ (value : κ) other, (owners.insert inserted owner)[value]? = some other →
      holds value other := by
  intro value other found
  rw [getElem?_map_insert] at found
  split at found
  next same => exact Option.some.inj found ▸ same ▸ entered
  next => exact kept value other found

theorem toList_map_injective :
    Function.Injective (ExtTreeMap.toList : ExtTreeMap κ ν → List (κ × ν)) := by
  intro left right equal
  apply ExtTreeMap.ext_getElem?
  intro key
  apply Option.ext
  intro value
  rw [← ExtTreeMap.mem_toList_iff_getElem?_eq_some, equal,
    ExtTreeMap.mem_toList_iff_getElem?_eq_some]

instance decidableEqMap [DecidableEq ν] : DecidableEq (ExtTreeMap κ ν) := fun left right =>
  decidable_of_iff (left.toList = right.toList) toList_map_injective.eq_iff

theorem toList_set_injective : Function.Injective (ExtTreeSet.toList : ExtTreeSet κ → List κ) := by
  intro left right equal
  apply ExtTreeSet.ext_mem
  intro value
  rw [← ExtTreeSet.mem_toList, equal, ExtTreeSet.mem_toList]

instance decidableEqSet : DecidableEq (ExtTreeSet κ) := fun left right =>
  decidable_of_iff (left.toList = right.toList) toList_set_injective.eq_iff

theorem mem_set_ofList {items : List κ} : value ∈ ExtTreeSet.ofList items ↔ value ∈ items := by
  rw [ExtTreeSet.mem_ofList, contains_iff_mem]

/-- A set has as many elements as the list it was made from when none of them repeats. -/
theorem size_ofList_eq_length_iff {items : List κ} :
    (ExtTreeSet.ofList items).size = items.length ↔ items.Nodup := by
  have distinct : (ExtTreeSet.ofList items).toList.Nodup :=
    ExtTreeSet.distinct_toList.imp fun different same =>
      different (compare_eq_iff_eq.mpr same)
  have sameElements : (ExtTreeSet.ofList items).toList.toFinset = items.toFinset := by
    ext value
    rw [mem_toFinset, mem_toFinset, ExtTreeSet.mem_toList, mem_set_ofList]
  rw [← ExtTreeSet.length_toList, ← toFinset_card_of_nodup distinct, sameElements, card_toFinset]
  constructor
  · intro sameLength
    exact dedup_eq_self.mp ((dedup_sublist items).eq_of_length sameLength)
  · intro nodup
    rw [dedup_eq_self.mpr nodup]

/-- The keys collected by a loop. -/
theorem mem_foldl_insert (key : α → κ) (items : List α) (seen : ExtTreeSet κ) (value : κ) :
    value ∈ items.foldl (fun seen item => seen.insert (key item)) seen ↔
      value ∈ seen ∨ ∃ item ∈ items, key item = value := by
  induction items generalizing seen with
  | nil => simp
  | cons item items ih =>
    rw [foldl_cons, ih, mem_set_insert, exists_mem_cons_iff,
      or_comm (a := key item = value), or_assoc]

/-- What a key is given by a loop that gives the same to all its keys. -/
theorem getElem?_foldl_change {key : α → κ} {entry : Option ν}
    {change : ExtTreeMap κ ν → α → ExtTreeMap κ ν}
    (step : ∀ owners item value, (change owners item)[value]? =
      if key item = value then entry else owners[value]?) :
    (items.foldl change owners)[value]? =
      if value ∈ items.map key then entry else owners[value]? := by
  induction items generalizing owners with
  | nil => simp
  | cons item items ih =>
    rw [foldl_cons, ih, step]
    by_cases later : value ∈ items.map key
    · simp [later]
    · by_cases here : key item = value
      · simp [here]
      · rw [if_neg later, if_neg here, if_neg (by simpa [later] using Ne.symm here)]

/-- The owner of a key after a loop that claims keys for one owner. -/
theorem getElem?_foldl_insert (key : α → κ) (owner : ν) (items : List α)
    (owners : ExtTreeMap κ ν) (value : κ) :
    (items.foldl (fun owners item => owners.insert (key item) owner) owners)[value]? =
      if value ∈ items.map key then some owner else owners[value]? :=
  getElem?_foldl_change fun _ _ _ => getElem?_map_insert ..

/-- The keys of a table that a loop fills. -/
theorem mem_foldl_insert_values (key : α → κ) (owner : α → ν) (items : List α)
    (owners : ExtTreeMap κ ν) (value : κ) :
    value ∈ items.foldl (fun owners item => owners.insert (key item) (owner item)) owners ↔
      value ∈ owners ∨ ∃ item ∈ items, key item = value := by
  induction items generalizing owners with
  | nil => simp
  | cons item items ih =>
    rw [foldl_cons, ih, mem_map_insert, exists_mem_cons_iff,
      or_comm (a := key item = value), or_assoc]

theorem getElem?_map_erase (owners : ExtTreeMap κ ν) (erased value : κ) :
    (owners.erase erased)[value]? = if erased = value then none else owners[value]? := by
  rw [ExtTreeMap.getElem?_erase]
  simp only [compare_eq_iff_eq]

theorem getElem?_of_erase (found : (owners.erase erased)[value]? = some owner) :
    owners[value]? = some owner := by
  rw [getElem?_map_erase] at found
  split at found
  next => cases found
  next => exact found

theorem erase_eq_self (absent : owners[erased]? = none) :
    owners.erase erased = owners := by
  apply ExtTreeMap.ext_getElem?
  intro value
  rw [getElem?_map_erase]
  split
  next same => rw [← same, absent]
  next => rfl

/-- A loop over two states that do not look at each other is two loops. -/
theorem foldl_pair {σ τ : Type*} (first : σ → α → σ) (second : τ → α → τ) (items : List α)
    (left : σ) (right : τ) :
    items.foldl (fun state item => (first state.1 item, second state.2 item)) (left, right) =
      (items.foldl first left, items.foldl second right) :=
  foldl_hom₂ items Prod.mk first second _ left right fun _ _ _ => rfl

/-- The owner of a key after a loop that gives up keys. -/
theorem getElem?_foldl_erase (items : List κ) (owners : ExtTreeMap κ ν) (value : κ) :
    (items.foldl (fun owners item => owners.erase item) owners)[value]? =
      if value ∈ items then none else owners[value]? := by
  have erased (owners : ExtTreeMap κ ν) (item value : κ) := getElem?_map_erase owners item value
  rw [getElem?_foldl_change erased, map_id']

/-- The values of a table, in the order of their keys. -/
def tableValues (table : ExtTreeMap κ ν) : List ν :=
  table.toList.map Prod.snd

theorem mem_tableValues {value : ν} :
    value ∈ tableValues table ↔ ∃ key : κ, table[key]? = some value := by
  simp only [tableValues, mem_map, Prod.exists, exists_eq_right,
    ExtTreeMap.mem_toList_iff_getElem?_eq_some]

theorem length_tableValues (table : ExtTreeMap κ ν) : (tableValues table).length = table.size := by
  rw [tableValues, length_map, ExtTreeMap.length_toList]

/-- A search by a key that no two items share. -/
theorem find?_key_eq_some_iff {δ : Type*} [BEq δ] [LawfulBEq δ] {key : α → δ}
    (distinct : (items.map key).Nodup) (value : δ) (found : α) :
    items.find? (fun item => key item == value) = some found ↔
      found ∈ items ∧ key found = value := by
  constructor
  · intro search
    exact ⟨mem_of_find?_eq_some search, by simpa using find?_some search⟩
  · rintro ⟨member, rfl⟩
    cases search : items.find? fun item => key item == key found with
    | none => exact absurd (find?_eq_none.mp search found member) (by simp)
    | some other =>
      have same : key other = key found := by simpa using find?_some search
      rw [inj_on_of_nodup_map distinct (mem_of_find?_eq_some search) member same]

/-- A loop that enters items under their keys: the last one of a key counts. -/
theorem getElem?_foldl_insert_find? {items : List ν} (sought : κ) :
    (items.foldl (fun table item => table.insert (key item) item) table)[sought]? =
      (items.reverse.find? fun item => key item == sought).or table[sought]? := by
  induction items using reverseRecOn with
  | nil => simp
  | append_singleton items last ih =>
    rw [foldl_append, foldl_cons, foldl_nil, getElem?_map_insert, ih]
    by_cases here : key last = sought
    · simp [here]
    · simp [here]

/-- A loop that enters items under distinct keys. -/
theorem getElem?_foldl_insert_items {items : List ν} (distinct : (items.map key).Nodup) (sought : κ)
    (found : ν) : (items.foldl (fun table item => table.insert (key item) item) table)[sought]? =
        some found ↔ found ∈ items ∧ key found = sought ∨
        (∀ item ∈ items, key item ≠ sought) ∧ table[sought]? = some found := by
  have reversed : (items.reverse.map key).Nodup := by rwa [map_reverse, nodup_reverse]
  rw [getElem?_foldl_insert_find?, Option.or_eq_some_iff, find?_key_eq_some_iff reversed]
  simp

theorem keys_ascending (table : ExtTreeMap κ ν) : (table.toList.map Prod.fst).Pairwise (· < ·) :=
  pairwise_map.mpr (ExtTreeMap.ordered_keys_toList.imp compare_lt_iff_lt.mp)

section Values

variable (keyed : ∀ sought value, table[sought]? = some value → key value = sought)
include keyed

theorem map_key_tableValues : (tableValues table).map key = table.toList.map Prod.fst := by
  rw [tableValues, map_map]
  refine map_congr_left fun entry member => ?_
  exact keyed entry.1 entry.2 (ExtTreeMap.mem_toList_iff_getElem?_eq_some.mp member)

theorem tableValues_ascending : ((tableValues table).map key).Pairwise (· < ·) := by
  rw [map_key_tableValues keyed]
  exact keys_ascending table

theorem nodup_key_tableValues : ((tableValues table).map key).Nodup :=
  (tableValues_ascending keyed).imp fun ordered => ordered.ne

/-- A table whose values know their keys is filled again from its values. -/
theorem foldl_insert_tableValues :
    (tableValues table).foldl (fun table item => table.insert (key item) item) ∅ = table := by
  apply ExtTreeMap.ext_getElem?
  intro sought
  apply Option.ext
  intro found
  rw [getElem?_foldl_insert_items (nodup_key_tableValues keyed), mem_tableValues]
  constructor
  · rintro (⟨⟨_, stored⟩, rfl⟩ | ⟨-, stored⟩)
    · rwa [keyed _ found stored]
    · simp at stored
  · intro stored
    exact .inl ⟨⟨sought, stored⟩, keyed sought found stored⟩

end Values

theorem getElem?_foldl_insert_empty {items : List ν} (distinct : (items.map key).Nodup) (sought : κ)
    (found : ν) : (items.foldl (fun table item => table.insert (key item) item) ∅ :
        ExtTreeMap κ ν)[sought]? = some found ↔ found ∈ items ∧ key found = sought := by
  rw [getElem?_foldl_insert_items distinct]
  simp

/-- A table of items under distinct keys holds every item. -/
theorem getElem?_ofList_map {key : α → κ} (distinct : (items.map key).Nodup) (value : κ)
    (found : α) :
    (ExtTreeMap.ofList (items.map fun item => (key item, item)))[value]? = some found ↔
      found ∈ items ∧ key found = value := by
  rw [ExtTreeMap.ofList_eq_foldl, foldl_map]
  exact getElem?_foldl_insert_empty distinct value found

/-- A table filled from items under distinct keys has exactly these values. -/
theorem tableValues_foldl_insert_perm {items : List ν} (distinct : (items.map key).Nodup) :
    (tableValues (items.foldl (fun table item => table.insert (key item) item) ∅)).Perm items := by
  have keyed (sought : κ) (value : ν) (found : (items.foldl (fun table item =>
      table.insert (key item) item) ∅ : ExtTreeMap κ ν)[sought]? = some value) :
      key value = sought :=
    ((getElem?_foldl_insert_empty distinct sought value).mp found).2
  rw [perm_ext_iff_of_nodup (List.Nodup.of_map key (nodup_key_tableValues keyed))
    (List.Nodup.of_map key distinct)]
  intro value
  simp only [mem_tableValues, getElem?_foldl_insert_empty distinct, exists_and_left, exists_eq',
    and_true]

/-- Whoever claims keys one after the other is never stopped by its own claims, only
by those of others. -/
theorem forall_split_owner_iff {key : α → κ} :
    (∀ before item rest, items = before ++ item :: rest → ∀ existing,
        (before.foldl (fun owners item => owners.insert (key item) owner) owners)[key item]? =
          some existing → existing = owner) ↔
      ∀ item ∈ items, ∀ existing, owners[key item]? = some existing → existing = owner := by
  constructor
  · intro unstopped
    induction items using reverseRecOn with
    | nil => simp
    | append_singleton items last ih =>
      have earlier := ih fun before item rest split =>
        unstopped before item (rest ++ [last]) (by simp [split])
      intro item member existing found
      rcases mem_append.mp member with member | member
      · exact earlier item member existing found
      · obtain rfl := mem_singleton.mp member
        by_cases claimed : key item ∈ items.map key
        · obtain ⟨other, otherMember, same⟩ := mem_map.mp claimed
          exact earlier other otherMember existing (by rw [same, found])
        · refine unstopped items item [] rfl existing ?_
          rw [getElem?_foldl_insert, if_neg claimed, found]
  · intro free before item rest split existing found
    rw [getElem?_foldl_insert] at found
    split at found
    · exact (Option.some.inj found).symm
    · exact free item (by simp [split]) existing found

/-- A loop that refuses repeated keys and keys that others own, in terms of its items. -/
theorem forall_split_claims_iff {δ : Type*} {accepts : α → Prop} {key : α → δ} {ownerKey : α → κ} :
    (∀ before item rest, items = before ++ item :: rest → accepts item ∧
        (∀ earlier ∈ before, ¬key earlier = key item) ∧ ∀ existing,
          (before.foldl (fun owners item => owners.insert (ownerKey item) owner)
            owners)[ownerKey item]? = some existing → existing = owner) ↔
      (∀ item ∈ items, accepts item ∧
        ∀ existing, owners[ownerKey item]? = some existing → existing = owner) ∧
      (items.map key).Nodup := by
  constructor
  · intro accepted
    have distinct := forall_split_iff.mp fun before item rest split =>
      ⟨(accepted before item rest split).1, (accepted before item rest split).2.1⟩
    have unowned := forall_split_owner_iff.mp fun before item rest split =>
      (accepted before item rest split).2.2
    exact ⟨fun item member => ⟨distinct.1 item member, unowned item member⟩,
      pairwise_map.mpr distinct.2⟩
  · rintro ⟨valid, distinct⟩ before item rest split
    have separate := forall_split_iff.mpr ⟨fun item member => (valid item member).1,
      pairwise_map.mp distinct⟩ before item rest split
    exact ⟨separate.1, separate.2, forall_split_owner_iff.mpr
      (fun item member => (valid item member).2) before item rest split⟩

/-! ## Repeated sightings -/

section Agreement

variable {σ : Type*} {δ : Type v} (look : σ → δ → Option ν)
  (advance : σ → α → σ) (key : α → δ) (value : α → ν)

/-- Whatever a loop meets again has the value it is known with. -/
def Agrees (state : σ) (items : List α) : Prop :=
  ∀ before item rest, items = before ++ item :: rest → ∀ existing,
    look (before.foldl advance state) (key item) = some existing → existing = value item

variable {look advance key value} {state : σ}

@[simp] theorem agrees_nil : Agrees look advance key value state [] := by
  intro before item rest split
  simp at split

theorem agrees_cons {first : α} {items : List α} :
    Agrees look advance key value state (first :: items) ↔
      (∀ existing, look state (key first) = some existing → existing = value first) ∧
        Agrees look advance key value (advance state first) items :=
  forall_split_cons

theorem agrees_append {left right : List α} : Agrees look advance key value state (left ++ right) ↔
      Agrees look advance key value state left ∧
        Agrees look advance key value (left.foldl advance state) right := by
  induction left generalizing state with
  | nil => simp
  | cons first left ih =>
    rw [cons_append, agrees_cons, ih, agrees_cons, and_assoc, foldl_cons]

/-- Without the loop: what is known from before agrees, and so do any two items. -/
theorem agrees_iff [DecidableEq δ] {items : List α}
    (step : ∀ state item,
      (∀ existing, look state (key item) = some existing → existing = value item) →
        ∀ sought, look (advance state item) sought =
          if key item = sought then some (value item) else look state sought) :
    Agrees look advance key value state items ↔
      (∀ item ∈ items, ∀ existing, look state (key item) = some existing → existing = value item) ∧
      items.Pairwise fun left right => key left = key right → value left = value right := by
  induction items generalizing state with
  | nil => simp
  | cons first items ih =>
    rw [agrees_cons, ih, forall_mem_cons, pairwise_cons, and_assoc]
    apply and_congr_right
    intro firstAgrees
    simp only [step state first firstAgrees]
    constructor
    · rintro ⟨agree, pairwise⟩
      have withFirst : ∀ item ∈ items, key first = key item → value first = value item :=
        fun item member same => agree item member (value first) (if_pos same)
      refine ⟨fun item member existing found => ?_, withFirst, pairwise⟩
      by_cases same : key first = key item
      · rw [← withFirst item member same]
        exact firstAgrees existing (by rw [same, found])
      · exact agree item member existing (by rw [if_neg same, found])
    · rintro ⟨agree, withFirst, pairwise⟩
      refine ⟨fun item member existing found => ?_, pairwise⟩
      split at found
      next same => rw [← Option.some.inj found, withFirst item member same]
      next => exact agree item member existing found

end Agreement

section Registry

/-- Enter keys with their values. -/
def register (registry : ExtTreeMap κ ν) (entries : List (κ × ν)) : ExtTreeMap κ ν :=
  entries.foldl (fun registry entry => registry.insert entry.1 entry.2) registry

/-- No key is ever entered with another value than it has. -/
def Registrable : ExtTreeMap κ ν → List (κ × ν) → Prop :=
  Agrees (fun registry key => registry[key]?)
    (fun registry entry => registry.insert entry.1 entry.2) Prod.fst Prod.snd

theorem register_append (registry : ExtTreeMap κ ν) (left right : List (κ × ν)) :
    register registry (left ++ right) = register (register registry left) right :=
  foldl_append

variable {registry : ExtTreeMap κ ν} {left right entries : List (κ × ν)}

theorem registrable_append : Registrable registry (left ++ right) ↔
      Registrable registry left ∧ Registrable (register registry left) right :=
  agrees_append

theorem registrable_iff : Registrable registry entries ↔
      (∀ entry ∈ entries, ∀ existing, registry[entry.1]? = some existing → existing = entry.2) ∧
      entries.Pairwise fun left right => left.1 = right.1 → left.2 = right.2 := by
  have step (registry : ExtTreeMap κ ν) (entry : κ × ν)
      (_ : ∀ existing, registry[entry.1]? = some existing → existing = entry.2) (sought : κ) :
      (registry.insert entry.1 entry.2)[sought]? =
        if entry.1 = sought then some entry.2 else registry[sought]? :=
    getElem?_map_insert registry entry.1 sought entry.2
  rw [Registrable, agrees_iff step]

theorem registrable_empty_iff : Registrable ∅ entries ↔
      entries.Pairwise fun left right => left.1 = right.1 → left.2 = right.2 := by
  rw [registrable_iff]
  simp

theorem Registrable.perm (registrable : Registrable registry left) (perm : left.Perm right) :
    Registrable registry right := by
  rw [registrable_iff] at registrable ⊢
  refine ⟨fun entry member => registrable.1 entry (perm.mem_iff.mpr member), ?_⟩
  refine registrable.2.perm perm ?_
  intro first second agree same
  exact (agree same.symm).symm

/-- A registry has what was entered and what it had before. -/
theorem getElem?_register (registrable : Registrable registry entries) (key : κ) (value : ν) :
    (register registry entries)[key]? = some value ↔
      (key, value) ∈ entries ∨ registry[key]? = some value := by
  induction entries generalizing registry with
  | nil => simp [register]
  | cons first entries ih =>
    obtain ⟨firstAgrees, restAgrees⟩ := agrees_cons.mp registrable
    rw [register, foldl_cons, ← register, ih restAgrees, mem_cons, getElem?_map_insert]
    by_cases here : first.1 = key
    · subst here
      rw [if_pos rfl, Option.some.injEq]
      constructor
      · rintro (member | rfl)
        · exact .inl (.inr member)
        · exact .inl (.inl rfl)
      · rintro ((same | member) | stored)
        · exact .inr (congrArg Prod.snd same).symm
        · exact .inl member
        · exact .inr (firstAgrees value stored).symm
    · have differs : (key, value) ≠ first := fun same => here (congrArg Prod.fst same).symm
      rw [if_neg here]
      simp only [differs, false_or]

/-- The order of the entries does not matter. -/
theorem register_eq_of_perm (registrable : Registrable registry left) (perm : left.Perm right) :
    register registry left = register registry right := by
  apply ExtTreeMap.ext_getElem?
  intro key
  apply Option.ext
  intro value
  rw [getElem?_register registrable, getElem?_register (registrable.perm perm), perm.mem_iff]

end Registry

/-- Tables with related values under the same keys list them side by side. -/
theorem forall₂_toList {μ : Type*} {left : ExtTreeMap κ ν} {right : ExtTreeMap κ μ}
    {relates : ν → μ → Prop} (sameKeys : ∀ key : κ, key ∈ left ↔ key ∈ right)
    (related : ∀ (key : κ) first second, left[key]? = some first →
      right[key]? = some second → relates first second) :
    List.Forall₂ (fun first second => first.1 = second.1 ∧ relates first.2 second.2)
      left.toList right.toList := by
  have keys : left.toList.map Prod.fst = right.toList.map Prod.fst := by
    apply List.Perm.eq_of_pairwise' ((keys_ascending left).imp le_of_lt)
      ((keys_ascending right).imp le_of_lt)
    rw [perm_ext_iff_of_nodup ((keys_ascending left).imp ne_of_lt)
      ((keys_ascending right).imp ne_of_lt)]
    intro key
    simpa using sameKeys key
  rw [forall₂_iff_get]
  have lengths : left.toList.length = right.toList.length := by
    simpa using congrArg length keys
  refine ⟨lengths, fun index leftBound rightBound => ?_⟩
  have sameKey : (left.toList.get ⟨index, leftBound⟩).1 =
      (right.toList.get ⟨index, rightBound⟩).1 := by
    have listed := congrArg (fun keys : List κ => keys[index]?) keys
    simp only [getElem?_map, getElem?_eq_getElem leftBound,
      getElem?_eq_getElem rightBound, Option.map_some, Option.some.injEq] at listed
    exact listed
  refine ⟨sameKey, related _ _ _
    (ExtTreeMap.mem_toList_iff_getElem?_eq_some.mp (get_mem _ ⟨index, leftBound⟩)) ?_⟩
  rw [sameKey]
  exact ExtTreeMap.mem_toList_iff_getElem?_eq_some.mp (get_mem _ ⟨index, rightBound⟩)

end Unf.Lib
