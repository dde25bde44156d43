import Unf.Policy.Lookup

/-!
# Entries of one pair

The entries that a pair compiler appends are the three tiers of the pair's
decisions: all tiers that carry provenance, or those of them that differ from
what they inherit.  Once the entries of many pairs are installed under separate
keys, a lookup for a tuple of one pair searches the tiers of that pair.
-/

namespace Unf.Policy

open Std (ExtTreeMap)
open Unf.Lib

/-- A value that some policy decided. -/
def PolicyValue.managed (value : PolicyValue) : Bool :=
  value != .unmanaged

/-! ## Keys -/

/-- The protocol and port numbers under which a tier is stored. -/
def tupleKey : TierKey Protocol UInt16 → UInt8 × UInt16
  | .global => (0, 0)
  | .wide protocol => (protocol.number, 0)
  | .exact protocol port => (protocol.number, port)

/-- Port zero stands for all ports, so that no exact tier is stored under it. -/
def TierKeyProper : TierKey Protocol UInt16 → Prop
  | .exact _ port => port ≠ 0
  | _ => True

theorem tupleKey_injective {left right : TierKey Protocol UInt16}
    (leftProper : TierKeyProper left) (rightProper : TierKeyProper right)
    (equal : tupleKey left = tupleKey right) : left = right := by
  have numbered : ∀ protocol : Protocol, protocol.number ≠ 0 := by
    intro protocol
    cases protocol <;> decide
  have separated : ∀ first second : Protocol, first.number = second.number →
      first = second := by
    intro first second
    cases first <;> cases second <;> decide
  cases left <;> cases right <;>
    simp_all [tupleKey, TierKeyProper, eq_comm] <;> grind

def tierEntry {κ : Type} (keyFor : UInt8 → UInt16 → κ) (key : TierKey Protocol UInt16)
    (value : PolicyValue) : MapEntry κ :=
  ⟨keyFor (tupleKey key).1 (tupleKey key).2, value.decision, value.shadow⟩

/-- The entries of a table of tiers. -/
def StoredUnder {κ : Type} (keyFor : UInt8 → UInt16 → κ)
    (table : TierKey Protocol UInt16 → Option PolicyValue) (entry : MapEntry κ) : Prop :=
  ∃ key value, table key = some value ∧ entry = tierEntry keyFor key value

/-! ## Pushing the entries of a pair -/

theorem appends_pushWhen {κ : Type} {condition : Bool} {entry : MapEntry κ} :
    Appends (fun before => pushWhen condition before entry)
      fun element => condition = true ∧ element = entry := by
  intro before after pushed element
  cases condition with
  | false =>
    obtain rfl := Except.ok.inj pushed
    simp
  | true =>
    obtain ⟨-, returned⟩ := failIf_bind_eq_ok.mp pushed
    rw [← Except.ok.inj returned]
    simp

theorem entryDiffers_mapEntry {κ : Type} (left right : κ) (decision inherited : PolicyDecision) :
    entryDiffers (mapEntry left decision) (mapEntry right inherited) =
      (inherited.value != decision.value) := by
  rw [Bool.eq_iff_iff]
  simp only [entryDiffers, mapEntry, PolicyDecision.value, Bool.or_eq_true, bne_iff_ne,
    ne_eq, PolicyValue.mk.injEq, not_and_or, @eq_comm _ (policyDecisionRecord decision),
    @eq_comm _ (shadowPolicyDecisionRecord decision)]

namespace PairDecisions

variable {κ : Type} {pair : PairDecisions} {keyFor : UInt8 → UInt16 → κ}

/-- Provenance of the pair's decisions can be read off their values. -/
structure Recorded (pair : PairDecisions) : Prop where
  globalFallback : hasPolicyProvenance pair.globalFallback =
    pair.globalFallback.value.managed
  decide : ∀ protocol port, hasPolicyProvenance (pair.decide protocol port) =
    (pair.decide protocol port).value.managed

/-- The values of the pair.  A tuple with port zero is stored under the key of its
whole protocol. -/
def tiers (pair : PairDecisions) : Tiers Protocol UInt16 PolicyValue where
  global := pair.globalFallback.value
  wide protocol :=
    if protocol ∈ pair.wildcardProtocols ∨ (protocol, 0) ∈ pair.exactTuples then
      some (pair.decide protocol 0).value
    else
      none
  exact protocol port :=
    if port ≠ 0 ∧ (protocol, port) ∈ pair.exactTuples then
      some (pair.decide protocol port).value
    else
      none

@[simp] theorem tiers_global (pair : PairDecisions) :
    pair.tiers.global = pair.globalFallback.value := rfl

theorem value_proper {key : TierKey Protocol UInt16} {value : PolicyValue}
    (found : pair.tiers.value key = some value) : TierKeyProper key := by
  cases key with
  | global => trivial
  | wide protocol => trivial
  | exact protocol port =>
    simp only [Tiers.value, tiers] at found
    split at found
    · rename_i named
      exact named.1
    · simp at found

/-- Lowering all tuples stores every tier that carries provenance. -/
theorem appends_pushAll (recorded : pair.Recorded) :
    Appends (pair.pushAll fun protocol port => mapEntry (keyFor protocol port))
      (StoredUnder keyFor (pair.tiers.kept PolicyValue.managed)) := by
  intro before after pushed entry
  obtain ⟨first, globalPushed, rest⟩ := bind_eq_ok.mp pushed
  obtain ⟨second, protocolsPushed, exactPushed⟩ := bind_eq_ok.mp rest
  rw [Appends.foldlM (fun tuple _ => appends_pushWhen) _ _ exactPushed,
    Appends.foldlM (fun protocol _ => appends_pushWhen) _ _ protocolsPushed,
    appends_pushWhen _ _ globalPushed, or_assoc, or_assoc]
  apply or_congr_right
  rw [recorded.globalFallback]
  simp only [recorded.decide]
  constructor
  · rintro (⟨managed, rfl⟩ | ⟨protocol, wildcard, managed, rfl⟩ |
      ⟨⟨protocol, port⟩, named, managed, rfl⟩)
    · exact ⟨.global, pair.globalFallback.value, Option.filter_eq_some_iff.mpr ⟨rfl, managed⟩, rfl⟩
    · exact ⟨.wide protocol, (pair.decide protocol 0).value,
        Option.filter_eq_some_iff.mpr ⟨if_pos (.inl wildcard), managed⟩, rfl⟩
    · by_cases zero : port = 0
      · subst zero
        exact ⟨.wide protocol, (pair.decide protocol 0).value,
          Option.filter_eq_some_iff.mpr ⟨if_pos (.inr named), managed⟩, rfl⟩
      · exact ⟨.exact protocol port, (pair.decide protocol port).value,
          Option.filter_eq_some_iff.mpr ⟨if_pos ⟨zero, named⟩, managed⟩, rfl⟩
  · rintro ⟨key, value, found, rfl⟩
    obtain ⟨found, managed⟩ := Option.filter_eq_some_iff.mp found
    cases key with
    | global =>
      obtain rfl := Option.some.inj found
      exact .inl ⟨managed, rfl⟩
    | wide protocol =>
      simp only [Tiers.value, tiers, Option.ite_none_right_eq_some, Option.some.injEq] at found
      obtain ⟨wildcard | named, rfl⟩ := found
      · exact .inr (.inl ⟨protocol, wildcard, managed, rfl⟩)
      · exact .inr (.inr ⟨(protocol, 0), named, managed, rfl⟩)
    | exact protocol port =>
      simp only [Tiers.value, tiers, Option.ite_none_right_eq_some, Option.some.injEq] at found
      obtain ⟨⟨-, named⟩, rfl⟩ := found
      exact .inr (.inr ⟨(protocol, port), named, managed, rfl⟩)

/-- The protocol-wide loop stores the changed entries and remembers all of them. -/
private theorem foldlM_pushProtocol_ok {protocols : List Protocol}
    {before after : List (MapEntry κ)} {known remembered : ExtTreeMap Protocol (MapEntry κ)}
    (pushed : protocols.foldlM (pair.pushProtocol fun protocol port =>
      mapEntry (keyFor protocol port)) (before, known) = .ok (after, remembered)) :
    (∀ entry, entry ∈ after ↔ entry ∈ before ∨ ∃ protocol ∈ protocols,
      (hasPolicyProvenance (pair.decide protocol 0) = true ∧
        pair.globalFallback.value ≠ (pair.decide protocol 0).value) ∧
      entry = mapEntry (keyFor protocol.number 0) (pair.decide protocol 0)) ∧
    ∀ protocol, remembered[protocol]? = if protocol ∈ protocols then
        some (mapEntry (keyFor protocol.number 0) (pair.decide protocol 0))
      else known[protocol]? := by
  induction protocols generalizing before known with
  | nil =>
    obtain ⟨rfl, rfl⟩ := Prod.mk.inj (Except.ok.inj pushed)
    simp
  | cons first rest ih =>
    rw [List.foldlM_cons, bind_eq_ok] at pushed
    obtain ⟨⟨middle, table⟩, firstPushed, others⟩ := pushed
    obtain ⟨appended, entryPushed, returned⟩ := bind_eq_ok.mp firstPushed
    obtain ⟨rfl, rfl⟩ := Prod.mk.inj (Except.ok.inj returned)
    obtain ⟨stored, kept⟩ := ih others
    constructor
    · intro entry
      rw [stored, appends_pushWhen _ _ entryPushed, entryDiffers_mapEntry, or_assoc,
        List.exists_mem_cons_iff, Bool.and_eq_true, bne_iff_ne]
    · intro protocol
      rw [kept, ExtTreeMap.getElem?_insert]
      by_cases inRest : protocol ∈ rest
      · simp [inRest]
      · by_cases same : first = protocol
        · simp [same]
        · simp [same, Ne.symm same]

/-- Lowering changes stores every tier that carries provenance and differs from
the one it inherits, when no tuple has port zero. -/
theorem appends_pushChanged (recorded : pair.Recorded)
    (nonzero : ∀ tuple ∈ pair.exactTuples, tuple.2 ≠ 0) :
    Appends (pair.pushChanged fun protocol port => mapEntry (keyFor protocol port))
      (StoredUnder keyFor (pair.tiers.changed PolicyValue.managed)) := by
  intro before after pushed entry
  obtain ⟨first, globalPushed, rest⟩ := bind_eq_ok.mp pushed
  obtain ⟨⟨second, remembered⟩, protocolsPushed, exactPushed⟩ := bind_eq_ok.mp rest
  obtain ⟨stored, remembers⟩ := foldlM_pushProtocol_ok protocolsPushed
  rw [Appends.foldlM (fun tuple _ => appends_pushWhen) _ _ exactPushed,
    stored, appends_pushWhen _ _ globalPushed, or_assoc, or_assoc]
  apply or_congr_right
  have wide_eq : ∀ protocol, pair.tiers.wide protocol =
      if protocol ∈ pair.wildcardProtocols then some (pair.decide protocol 0).value
      else none := by
    intro protocol
    have unnamed : (protocol, (0 : UInt16)) ∉ pair.exactTuples := fun named => nonzero _ named rfl
    simp only [tiers, unnamed, or_false]
  have differs : ∀ (protocol : Protocol) (key : κ) (decision : PolicyDecision),
      entryDiffers (mapEntry key decision)
        (remembered[protocol]?.getD (mapEntry (keyFor 0 0) pair.globalFallback)) =
      ((pair.tiers.wide protocol).getD pair.tiers.global != decision.value) := by
    intro protocol key decision
    rw [remembers, wide_eq]
    split
    · exact entryDiffers_mapEntry _ _ _ _
    · rw [ExtTreeMap.getElem?_empty]
      exact entryDiffers_mapEntry _ _ _ _
  rw [recorded.globalFallback]
  simp only [recorded.decide, differs, Bool.and_eq_true]
  constructor
  · rintro (⟨managed, rfl⟩ | ⟨protocol, wildcard, ⟨managed, different⟩, rfl⟩ |
      ⟨⟨protocol, port⟩, named, ⟨managed, different⟩, rfl⟩)
    · exact ⟨.global, pair.globalFallback.value, Option.filter_eq_some_iff.mpr
        ⟨rfl, by simp [managed, Tiers.inherited]⟩, rfl⟩
    · refine ⟨.wide protocol, (pair.decide protocol 0).value,
        Option.filter_eq_some_iff.mpr ⟨if_pos (.inl wildcard), ?_⟩, rfl⟩
      simpa [managed, Tiers.inherited] using different
    · refine ⟨.exact protocol port, (pair.decide protocol port).value,
        Option.filter_eq_some_iff.mpr ⟨if_pos ⟨nonzero _ named, named⟩, ?_⟩, rfl⟩
      simpa [managed, Tiers.inherited] using different
  · rintro ⟨key, value, found, rfl⟩
    obtain ⟨found, kept⟩ := Option.filter_eq_some_iff.mp found
    obtain ⟨managed, different⟩ := Bool.and_eq_true_iff.mp kept
    cases key with
    | global =>
      obtain rfl := Option.some.inj found
      exact .inl ⟨managed, rfl⟩
    | wide protocol =>
      rw [Tiers.value, wide_eq, Option.ite_none_right_eq_some, Option.some.injEq] at found
      obtain ⟨wildcard, rfl⟩ := found
      refine .inr (.inl ⟨protocol, wildcard, ⟨managed, ?_⟩, rfl⟩)
      simpa [Tiers.inherited] using different
    | exact protocol port =>
      simp only [Tiers.value, tiers, Option.ite_none_right_eq_some, Option.some.injEq] at found
      obtain ⟨⟨-, named⟩, rfl⟩ := found
      refine .inr (.inr ⟨(protocol, port), named, ⟨managed, ?_⟩, rfl⟩)
      simpa [Tiers.inherited] using different

end PairDecisions

/-! ## Installed pairs -/

/-- A search of the three tiers, answered tier by tier. -/
theorem lookupTiers_eq_search {lookup : UInt8 → UInt16 → Option PolicyValue}
    {answer : TierKey Protocol UInt16 → Option PolicyValue}
    (tier : ∀ key, TierKeyProper key → lookup (tupleKey key).1 (tupleKey key).2 = answer key)
    (protocol : Protocol) {port : UInt16} (nonzero : port ≠ 0) :
    lookupTiers lookup protocol.number port = Tiers.search answer protocol port :=
  congrArg₂ Option.or (tier (.exact protocol port) nonzero)
    (congrArg₂ Option.or (tier (.wide protocol) trivial) (tier .global trivial))

/-- The search of the entries under the keys of one pair. -/
def installedTiers {κ : Type} [LinearOrder κ] (entries : List (MapEntry κ))
    (keyFor : UInt8 → UInt16 → κ) (protocol : Protocol) (port : UInt16) : Option PolicyValue :=
  lookupTiers (fun number port => (installEntries entries)[keyFor number port]?) protocol.number
    port

section Installed

variable {κ ι : Type} [LinearOrder κ] {valid : ι → Prop}
  {keyFor : ι → UInt8 → UInt16 → κ}
  {table : ι → TierKey Protocol UInt16 → Option PolicyValue}
  {entries : List (MapEntry κ)}

/-- The entries are the tables of the valid pairs, stored under separate keys. -/
structure StoresTables (valid : ι → Prop) (keyFor : ι → UInt8 → UInt16 → κ)
    (table : ι → TierKey Protocol UInt16 → Option PolicyValue)
    (entries : List (MapEntry κ)) : Prop where
  mem_iff : ∀ entry, entry ∈ entries ↔
    ∃ index, valid index ∧ StoredUnder (keyFor index) (table index) entry
  separate : ∀ {first second}, valid first → valid second → ∀ {protocol port number other},
    keyFor first protocol port = keyFor second number other →
      first = second ∧ protocol = number ∧ port = other
  proper : ∀ {index key value}, table index key = some value → TierKeyProper key

variable (stores : StoresTables valid keyFor table entries)

include stores

theorem StoresTables.getElem?_installEntries (index : ι) (isValid : valid index)
    {key : TierKey Protocol UInt16} (proper : TierKeyProper key) :
    (installEntries entries)[keyFor index (tupleKey key).1 (tupleKey key).2]? =
      table index key := by
  apply Policy.getElem?_installEntries
  · intro entry member sameKey
    obtain ⟨other, otherValid, otherKey, value, found, rfl⟩ := (stores.mem_iff entry).mp member
    obtain ⟨rfl, protocol, port⟩ := stores.separate otherValid isValid sameKey
    obtain rfl := tupleKey_injective (stores.proper found) proper (Prod.ext protocol port)
    exact found
  · intro present
    obtain ⟨value, found⟩ := Option.ne_none_iff_exists'.mp present
    exact ⟨_, (stores.mem_iff _).mpr ⟨index, isValid, key, value, found, rfl⟩, rfl⟩

/-- A lookup for a tuple of a pair searches the table of the pair. -/
theorem StoresTables.installedTiers_eq (index : ι) (isValid : valid index) (protocol : Protocol)
    {port : UInt16} (nonzero : port ≠ 0) : installedTiers entries (keyFor index) protocol port =
      Tiers.search (table index) protocol port :=
  lookupTiers_eq_search (fun _ => stores.getElem?_installEntries index isValid) protocol nonzero

/-- No entry is stored under a key that belongs to no pair. -/
theorem StoresTables.getElem?_eq_none {key : κ}
    (foreign : ∀ index, valid index → ∀ protocol port, keyFor index protocol port ≠ key) :
    (installEntries entries)[key]? = none := by
  apply Policy.getElem?_installEntries
  · intro entry member sameKey
    obtain ⟨index, isValid, tierKey, value, -, rfl⟩ := (stores.mem_iff entry).mp member
    exact absurd sameKey (foreign index isValid _ _)
  · intro present
    exact absurd rfl present

end Installed

end Unf.Policy
