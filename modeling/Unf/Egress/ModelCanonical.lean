import Unf.Egress.FqdnCanonical
import Unf.Egress.Model

/-!
# Canonical intents and pools

Normalization accepts its own results and changes nothing in them. Pools that have been
normalized are valid one by one, and no two of them share a name, a UID or an address.
-/

namespace Unf.Egress

open Std (ExtTreeSet)
open Unf.Lib List

/-! ## Internet specifications -/

theorem canonicalizePrefixes_eq_ok {prefixes result : List IpPrefix} {limit : Nat} :
    canonicalizePrefixes prefixes limit = .ok result ↔
      (prefixes.length ≤ limit ∧ (∀ range ∈ prefixes, range.isCanonical = true) ∧
        prefixes.Nodup) ∧ result = sort prefixes := by
  simp only [canonicalizePrefixes, eq_ok_iffs, eq_false_iffs, any_eq_false, Bool.not_eq_true',
    Bool.not_eq_false, hasAdjacentRepeat_eq_false_iff (sort_sorted _), nodup_sort,
    eq_comm (a := result), and_assoc]

variable {spec : EgressInternetDestinationSpec} {intent : String} {selector : LabelSelector}
  {request : EgressAddressRequest} {pool : EgressAddressPool} {raw : List EgressAddressPool}
  {name : String}

theorem normalizeEgressInternetDestinationSpec_eq_ok {result : EgressInternetDestinationSpec} :
    normalizeEgressInternetDestinationSpec spec = .ok result ↔
      (validProvider spec.classifier = true ∧
        (spec.exceptions.length ≤ maxEgressInternetExceptions ∧
          (∀ range ∈ spec.exceptions, range.isCanonical = true) ∧ spec.exceptions.Nodup) ∧
        spec.fallback.invalid = false) ∧
      result = { spec with exceptions := sort spec.exceptions } := by
  simp only [normalizeEgressInternetDestinationSpec, eq_ok_iffs, canonicalizePrefixes_eq_ok,
    eq_false_iffs]
  constructor
  · rintro ⟨provider, _, ⟨prefixes, rfl⟩, fallback, rfl⟩
    exact ⟨⟨provider, prefixes, fallback⟩, rfl⟩
  · rintro ⟨⟨provider, prefixes, fallback⟩, rfl⟩
    exact ⟨provider, _, ⟨prefixes, rfl⟩, fallback, rfl⟩

theorem normalizeEgressInternetDestinationSpec_again {canonical : EgressInternetDestinationSpec}
    (normalized : normalizeEgressInternetDestinationSpec spec = .ok canonical) :
    normalizeEgressInternetDestinationSpec canonical = .ok canonical := by
  obtain ⟨⟨provider, ⟨bounded, canonical, distinct⟩, fallback⟩, rfl⟩ :=
    normalizeEgressInternetDestinationSpec_eq_ok.mp normalized
  rw [normalizeEgressInternetDestinationSpec_eq_ok]
  refine ⟨⟨provider, ⟨?_, fun range member => ?_, nodup_sort.mpr distinct⟩, fallback⟩, ?_⟩
  · rw [length_sort]
    exact bounded
  · exact canonical range (mem_sort.mp member)
  · rw [sort_sort]

/-! ## Intents -/

theorem validateSelector_eq_ok {result : LabelSelector} :
    validateSelector intent name selector = .ok result ↔
      ((selector.matchLabels.size ≤ maxEgressLabels ∧ (∀ label ∈ selector.matchLabels.toList,
            validLabelKey label.1 = true ∧ validLabelValue label.2 = true)) ∧
        selector.matchExpressions.length ≤ maxEgressExpressions ∧
        (∀ expression ∈ selector.matchExpressions,
          validateExpression (.invalidSelector intent name) expression = .ok ⟨⟩) ∧
        selector.matchExpressions.Nodup) ∧
      result = { selector with matchExpressions := sort selector.matchExpressions } := by
  simp only [validateSelector, eq_ok_iffs, forM_eq_ok_iff, eq_false_iffs, any_eq_false,
    Bool.or_eq_true, Bool.not_eq_true', not_or, Bool.not_eq_false,
    hasAdjacentRepeat_eq_false_iff (sort_sorted _), nodup_sort, eq_comm (a := result), and_assoc]

theorem validateSelector_again {canonical : LabelSelector}
    (normalized : validateSelector intent name selector = .ok canonical) :
    validateSelector intent name canonical = .ok canonical := by
  obtain ⟨⟨labels, bounded, valid, distinct⟩, rfl⟩ := validateSelector_eq_ok.mp normalized
  rw [validateSelector_eq_ok]
  refine ⟨⟨labels, ?_, fun expression member => ?_, nodup_sort.mpr distinct⟩, ?_⟩
  · rw [length_sort]
    exact bounded
  · exact valid expression (mem_sort.mp member)
  · rw [sort_sort]

/-- The addresses that an intent may ask for. -/
inductive EgressAddressRequest.Normal : EgressAddressRequest → Prop
  | pool {name : String} {families : List AddressFamily} {addressesPerFamily : UInt16}
      (named : validName name = true) (present : families ≠ [])
      (ascending : families.Pairwise (· < ·)) (positive : addressesPerFamily ≠ 0)
      (bounded : addressesPerFamily.toNat ≤ maxEgressAddressesPerIntent) :
      Normal (.pool name families addressesPerFamily)
  | explicit {addresses : List IpAddr} (present : addresses ≠ [])
      (bounded : addresses.length ≤ maxEgressAddressesPerIntent)
      (ascending : addresses.Pairwise (· < ·))
      (specified : ∀ address ∈ addresses, address.isUnspecified = false) :
      Normal (.explicit addresses)

theorem normal_of_normalizeAddressRequest {raw : EgressAddressRequest}
    (normalized : normalizeAddressRequest intent raw = .ok request) : request.Normal := by
  cases raw with
  | pool name families addressesPerFamily =>
    simp only [normalizeAddressRequest, eq_ok_iffs, eq_false_iffs] at normalized
    obtain ⟨named, present, ⟨positive, bounded⟩, rfl⟩ := normalized
    exact .pool named present (sortDedup_sorted families) positive bounded
  | explicit addresses =>
    simp only [normalizeAddressRequest, eq_ok_iffs, eq_false_iffs,
      hasAdjacentRepeat_eq_false_iff (sort_sorted _), nodup_sort, any_eq_false,
      Bool.not_eq_true] at normalized
    obtain ⟨⟨present, bounded⟩, distinct, specified, rfl⟩ := normalized
    refine .explicit ?_ ?_ (sort_ascending distinct) specified
    · rw [← length_pos_iff, length_sort, length_pos_iff]
      exact present
    · rw [length_sort]
      exact bounded

theorem EgressAddressRequest.Normal.normalizeAddressRequest_eq (normal : request.Normal) :
    normalizeAddressRequest intent request = .ok request := by
  cases normal with
  | @pool name families addressesPerFamily named present ascending positive bounded =>
    have same : sortDedup families = families := sortDedup_eq_self ascending
    simp only [normalizeAddressRequest, same, bind_eq_ok, failIf_eq_ok, exists_const, eq_false_iffs]
    exact ⟨named, present, ⟨positive, bounded⟩, rfl⟩
  | @explicit addresses present bounded ascending specified =>
    have same : sort addresses = addresses := sort_eq_self ascending
    have distinct : addresses.Nodup := ascending.imp ne_of_lt
    simp only [normalizeAddressRequest, same, bind_eq_ok, failIf_eq_ok, exists_const, eq_false_iffs,
      hasAdjacentRepeat_eq_false_iff (ascending.imp le_of_lt), any_eq_false, Bool.not_eq_true]
    exact ⟨⟨present, bounded⟩, distinct, specified, rfl⟩

section Digest

variable {Digest : Type} [DecidableEq Digest] {destinations : EgressDestinations Digest}

omit [DecidableEq Digest] in
theorem normalizeDestinations_again {intent : String} {canonical : EgressDestinations Digest}
    (normalized : normalizeDestinations intent destinations = .ok canonical) :
    normalizeDestinations intent canonical = .ok canonical := by
  cases destinations with
  | networks networks =>
    simp only [normalizeDestinations, bind_eq_ok, failIf_eq_ok, exists_const, eq_false_iffs,
      any_eq_false, Bool.not_eq_true', Bool.not_eq_false,
      hasAdjacentRepeat_eq_false_iff (sort_sorted _), nodup_sort, pure_eq_ok] at normalized
    obtain ⟨⟨present, bounded⟩, canonical, distinct, rfl⟩ := normalized
    simp only [normalizeDestinations, sort_sort, bind_eq_ok, failIf_eq_ok, exists_const,
      eq_false_iffs, any_eq_false, Bool.not_eq_true', Bool.not_eq_false, mem_sort, length_sort,
      hasAdjacentRepeat_eq_false_iff (sort_sorted _), nodup_sort]
    refine ⟨⟨?_, bounded⟩, canonical, distinct, rfl⟩
    rw [← length_pos_iff, length_sort, length_pos_iff]
    exact present
  | denyAll | any | fqdn | internet =>
    obtain rfl := Except.ok.inj normalized
    rfl

variable {digests : EgressDigests Digest} {owner : EgressIntentOwner}

theorem normalizeFqdnIntent_again {fqdn canonical : EgressFqdnDestinationSpec}
    (normalized : normalizeFqdnIntent digests owner destinations fqdn = .ok canonical) :
    normalizeFqdnIntent digests owner destinations canonical = .ok canonical := by
  simp only [normalizeFqdnIntent, eq_ok_iffs] at normalized ⊢
  obtain ⟨spec, computed, decided⟩ := normalized
  have kept : canonical = spec := by
    cases destinations <;>
      simp only [eq_ok_iffs, reduceCtorEq] at decided
    · exact decided.symm
    · obtain ⟨-, -, -, same⟩ := decided
      exact same.symm
  subst kept
  exact ⟨canonical, normalizeEgressFqdnDestinationSpec_again computed, decided⟩

theorem normalizeInternetIntent_again {internet canonical : EgressInternetDestinationSpec}
    (normalized : normalizeInternetIntent digests owner destinations internet = .ok canonical) :
    normalizeInternetIntent digests owner destinations canonical = .ok canonical := by
  simp only [normalizeInternetIntent, eq_ok_iffs] at normalized ⊢
  obtain ⟨spec, computed, decided⟩ := normalized
  have kept : canonical = spec := by
    cases destinations <;>
      simp only [eq_ok_iffs, reduceCtorEq] at decided
    · exact decided.symm
    · obtain ⟨-, -, -, same⟩ := decided
      exact same.symm
  subst kept
  exact ⟨canonical, normalizeEgressInternetDestinationSpec_again computed, decided⟩

theorem normalizeDynamic_again {fqdn : Option EgressFqdnDestinationSpec}
    {internet : Option EgressInternetDestinationSpec}
    {canonical : Option EgressFqdnDestinationSpec × Option EgressInternetDestinationSpec}
    (normalized : normalizeDynamic digests owner destinations fqdn internet = .ok canonical) :
    normalizeDynamic digests owner destinations canonical.1 canonical.2 = .ok canonical := by
  cases fqdn with
  | some fqdn =>
    cases internet with
    | some internet => cases normalized
    | none =>
      simp only [normalizeDynamic, bind_eq_ok, pure_eq_ok]
        at normalized
      obtain ⟨spec, computed, rfl⟩ := normalized
      rw [normalizeDynamic, normalizeFqdnIntent_again computed]
      rfl
  | none =>
    cases internet with
    | some internet =>
      simp only [normalizeDynamic, bind_eq_ok, pure_eq_ok]
        at normalized
      obtain ⟨spec, computed, rfl⟩ := normalized
      rw [normalizeDynamic, normalizeInternetIntent_again computed]
      rfl
    | none =>
      simp only [normalizeDynamic, bind_eq_ok, failIf_eq_ok, exists_const, pure_eq_ok] at normalized
      obtain ⟨dynamic, rfl⟩ := normalized
      simp only [normalizeDynamic, bind_eq_ok, failIf_eq_ok, exists_const]
      exact ⟨dynamic, rfl⟩

/-- A normalized intent has the owner it came with, asks for addresses in canonical form,
and is accepted as it is. -/
theorem normalizeIntent_again {raw intent : EgressIntent Digest}
    (normalized : normalizeIntent digests raw = .ok intent) :
    intent.owner = raw.owner ∧ intent.addresses.Normal ∧
      normalizeIntent digests intent = .ok intent := by
  simp only [normalizeIntent, eq_ok_iffs] at normalized
  obtain ⟨owner, priority, namespaces, namespaced, workload, selected, accounts, destinations,
    reached, dynamic, specified, addresses, addressed, rfl⟩ := normalized
  have normal := normal_of_normalizeAddressRequest addressed
  refine ⟨rfl, normal, ?_⟩
  simp only [normalizeIntent, eq_ok_iffs]
  exact ⟨owner, priority, namespaces, validateSelector_again namespaced, workload,
    validateSelector_again selected, accounts, destinations, normalizeDestinations_again reached,
    dynamic, normalizeDynamic_again specified, addresses, normal.normalizeAddressRequest_eq, rfl⟩

end Digest

/-! ## Pools -/

/-- The pools share no address. -/
def EgressAddressPool.Apart (left right : EgressAddressPool) : Prop :=
  ∀ first ∈ left.prefixes, ∀ second ∈ right.prefixes, first.overlaps second = false

theorem EgressAddressPool.Apart.symm {left right : EgressAddressPool} (apart : left.Apart right) :
    right.Apart left := by
  intro first inRight second inLeft
  rw [IpPrefix.overlaps_comm]
  exact apart second inLeft first inRight

instance : Std.Symm EgressAddressPool.Apart :=
  ⟨fun _ _ apart => apart.symm⟩

/-- A pool that is valid, with its prefixes in order. -/
structure EgressAddressPool.Canonical (pool : EgressAddressPool) : Prop where
  valid : validatePool pool = .ok ⟨⟩
  ordered : sort pool.prefixes = pool.prefixes

theorem validatePool_eq_ok : validatePool pool = .ok ⟨⟩ ↔
      ((validName pool.name = true ∧ validUid pool.uid = true) ∧
        (validName pool.provider.name = true ∧ validUid pool.provider.«instance» = true)) ∧
      (pool.prefixes ≠ [] ∧ pool.prefixes.length ≤ maxEgressPoolPrefixes) ∧
      (∀ range ∈ pool.prefixes, range.isCanonical = true) ∧ pool.prefixes.Nodup ∧
      pool.prefixes.Pairwise fun left right => left.overlaps right = false := by
  have pairs : ((orderedPairs pool.prefixes).any fun pair => pair.1.overlaps pair.2) = false ↔
      pool.prefixes.Pairwise fun left right => left.overlaps right = false := by
    rw [← forall_mem_orderedPairs_iff]
    simp only [any_eq_false, Bool.not_eq_true]
  simp only [validatePool, eq_ok_iffs, eq_false_iffs, any_eq_false, Bool.not_eq_true',
    Bool.not_eq_false, size_ofList_eq_length_iff, pairs, and_assoc]

theorem canonical_of_normalizePool {raw : EgressAddressPool}
    (normalized : normalizePool raw = .ok pool) : pool.Canonical := by
  simp only [normalizePool, eq_ok_iffs] at normalized
  obtain ⟨valid, rfl⟩ := normalized
  obtain ⟨identity, ⟨present, bounded⟩, canonical, distinct, apart⟩ := validatePool_eq_ok.mp valid
  refine ⟨validatePool_eq_ok.mpr ⟨identity, ⟨?_, ?_⟩, fun range member => ?_,
    nodup_sort.mpr distinct, ?_⟩, sort_sort _⟩
  · rw [← length_pos_iff, length_sort, length_pos_iff]
    exact present
  · rw [length_sort]
    exact bounded
  · exact canonical range (mem_sort.mp member)
  · refine ((sort_perm raw.prefixes).pairwise_iff fun {left right} separate => ?_).mpr apart
    rw [IpPrefix.overlaps_comm]
    exact separate

theorem EgressAddressPool.Canonical.normalizePool_eq (canonical : pool.Canonical) :
    normalizePool pool = .ok pool := by
  simp only [normalizePool, bind_eq_ok, Unique.exists_iff]
  refine ⟨canonical.valid, ?_⟩
  rw [canonical.ordered]
  rfl

theorem addPoolIdentity_eq_ok (seen : ExtTreeSet String × ExtTreeSet String)
    (pool : EgressAddressPool) (after : ExtTreeSet String × ExtTreeSet String) :
    addPoolIdentity seen pool = .ok after ↔ (pool.name ∉ seen.1 ∧ pool.uid ∉ seen.2) ∧
        after = (seen.1.insert pool.name, seen.2.insert pool.uid) := by
  simp only [addPoolIdentity, eq_ok_iffs, contains_eq_false_iff, eq_comm (a := after), and_assoc]

variable {pools : List EgressAddressPool} {result : Unit}

theorem exists_foldlM_addPoolIdentity_iff :
    (∃ seen, pools.foldlM addPoolIdentity (∅, ∅) = .ok seen) ↔
      (pools.map EgressAddressPool.name).Nodup ∧ (pools.map EgressAddressPool.uid).Nodup := by
  have pair (pools : List EgressAddressPool) :=
    foldl_pair (fun (names : ExtTreeSet String) (pool : EgressAddressPool) =>
        names.insert pool.name)
      (fun (uids : ExtTreeSet String) pool => uids.insert pool.uid) pools ∅ ∅
  simp only [foldlM_eq_ok_iff addPoolIdentity_eq_ok, exists_and_left, exists_eq, and_true, pair,
    mem_foldl_insert EgressAddressPool.name, mem_foldl_insert EgressAddressPool.uid,
    ExtTreeSet.not_mem_empty, false_or, not_exists, not_and]
  have split : (∀ before pool rest, pools = before ++ pool :: rest →
      True ∧ ∀ earlier ∈ before, ¬earlier.name = pool.name ∧ ¬earlier.uid = pool.uid) ↔ _ :=
    forall_split_iff
  rw [nodup_iff_pairwise_ne, pairwise_map, nodup_iff_pairwise_ne, pairwise_map, ← pairwise_and_iff]
  simp only [true_and, implies_true] at split
  rw [← split]
  refine forall₃_congr fun before pool rest => imp_congr_right fun _ => ?_
  exact ⟨fun apart earlier member => ⟨apart.1 earlier member, apart.2 earlier member⟩,
    fun apart => ⟨fun earlier member => (apart earlier member).1,
      fun earlier member => (apart earlier member).2⟩⟩

theorem checkPoolPair_eq_ok {pair : EgressAddressPool × EgressAddressPool} :
    checkPoolPair pair = .ok result ↔ pair.1.Apart pair.2 := by
  simp only [checkPoolPair, forM_eq_ok_iff]
  refine forall₂_congr fun left _ => ?_
  cases found : pair.2.prefixes.find? fun candidate => left.overlaps candidate with
  | none =>
    simp only [find?_eq_none, Bool.not_eq_true] at found
    simp only [true_iff]
    exact found
  | some right =>
    simp only [reduceCtorEq, false_iff, not_forall]
    exact ⟨right, mem_of_find?_eq_some found, by simp [find?_some found]⟩

theorem forM_checkPoolPair_eq_ok :
    (orderedPairs pools).forM checkPoolPair = .ok result ↔
      pools.Pairwise EgressAddressPool.Apart := by
  rw [← forall_mem_orderedPairs_iff]
  simp only [forM_eq_ok_iff, checkPoolPair_eq_ok]

/-- What a set of pools has to satisfy as a whole. -/
structure PoolSet (pools : List EgressAddressPool) : Prop where
  bounded : pools.length ≤ maxEgressPools
  names : (pools.map EgressAddressPool.name).Nodup
  uids : (pools.map EgressAddressPool.uid).Nodup
  apart : pools.Pairwise EgressAddressPool.Apart

theorem normalizePools_eq_ok : normalizePools raw = .ok pools ↔
      raw.length ≤ maxEgressPools ∧ ∃ canonical, raw.mapM normalizePool = .ok canonical ∧
        PoolSet pools ∧ pools = sortByKey EgressAddressPool.name canonical := by
  simp only [normalizePools, eq_ok_iffs, eq_false_iffs, forM_checkPoolPair_eq_ok]
  refine and_congr_right fun bounded => exists_congr fun canonical =>
    and_congr_right fun computed => ?_
  have identities := @exists_foldlM_addPoolIdentity_iff (sortByKey EgressAddressPool.name canonical)
  constructor
  · rintro ⟨seen, ran, apart, rfl⟩
    obtain ⟨names, uids⟩ := identities.mp ⟨seen, ran⟩
    refine ⟨⟨?_, names, uids, apart⟩, rfl⟩
    rw [(sortByKey_perm _ _).length_eq, ← (mapM_eq_ok_iff.mp computed).length_eq]
    exact bounded
  · rintro ⟨set, rfl⟩
    obtain ⟨seen, ran⟩ := identities.mpr ⟨set.names, set.uids⟩
    exact ⟨seen, ran, set.apart, rfl⟩

theorem canonical_of_normalizePools (normalized : normalizePools raw = .ok pools) :
    PoolSet pools ∧ ∀ pool ∈ pools, pool.Canonical := by
  obtain ⟨-, canonical, computed, set, rfl⟩ := normalizePools_eq_ok.mp normalized
  refine ⟨set, fun pool member => ?_⟩
  obtain ⟨raw, -, result⟩ :=
    exists_mem_of_mem_mapM computed ((mem_sortByKey EgressAddressPool.name).mp member)
  exact canonical_of_normalizePool result

/-- Canonical pools in the order of their names are accepted as they are if they form a
set of pools, and are refused otherwise. -/
theorem normalizePools_canonical_iff (canonical : ∀ pool ∈ pools, pool.Canonical)
    (ordered : (pools.map EgressAddressPool.name).Pairwise (· < ·))
    {result : List EgressAddressPool} :
    normalizePools pools = .ok result ↔ PoolSet pools ∧ result = pools := by
  have same : pools.mapM normalizePool = .ok pools :=
    mapM_eq_ok_iff.mpr (forall₂_same.mpr fun pool member =>
      (canonical pool member).normalizePool_eq)
  have sorted : sortByKey EgressAddressPool.name pools = pools := by
    refine List.Pairwise.insertionSort_eq ?_
    exact (pairwise_map.mp ordered).imp le_of_lt
  rw [normalizePools_eq_ok]
  constructor
  · rintro ⟨-, listed, computed, set, rfl⟩
    obtain rfl := Except.ok.inj (same.symm.trans computed)
    rw [sorted] at set ⊢
    exact ⟨set, rfl⟩
  · rintro ⟨set, rfl⟩
    exact ⟨set.bounded, result, same, set, sorted.symm⟩

end Unf.Egress
