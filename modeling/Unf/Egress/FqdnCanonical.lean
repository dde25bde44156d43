import Unf.Egress.FqdnReplay

/-!
# Canonical names, patterns and policies

Normalizing what has been normalized changes nothing.
-/

namespace Unf.Egress

open Unf.Lib List EgressFqdnPattern

/-! ## Characters -/

/-- What letters have in common does not depend on their case. -/
theorem apply_toLower {β : Type} (property : Char → β) (common : β)
    (letters : ∀ character, character.isAlpha = true → property character = common)
    (character : Char) : property character.toLower = property character := by
  by_cases upper : character.isUpper = true
  · have letter : character.isAlpha = true := by simp [Char.isAlpha, upper]
    rw [letters _ letter, letters _ ((Char.isAlpha_toLower_eq_isAlpha character).trans letter)]
  · rw [Char.toLower_eq_of_not_isUpper upper]

variable {character : Char}

theorem toNat_lt_of_isLabelChar (allowed : isLabelChar character = true) :
    character.toNat < 128 := by
  simp only [isLabelChar, Char.isAlphanum, Char.isAlpha, Char.isUpper, Char.isLower, Char.isDigit,
    Bool.or_eq_true, Bool.and_eq_true, decide_eq_true_eq, beq_iff_eq] at allowed
  change (((65 ≤ character.toNat ∧ character.toNat ≤ 90) ∨
    (97 ≤ character.toNat ∧ character.toNat ≤ 122)) ∨
      (48 ≤ character.toNat ∧ character.toNat ≤ 57)) ∨ character = '-' at allowed
  rcases allowed with letterOrDigit | rfl
  · omega
  · decide

/-- Every character is a separator or stands in one of the parts. -/
theorem exists_mem_splitOn {separator : Char} {characters : List Char}
    (member : character ∈ characters) (different : character ≠ separator) :
    ∃ part ∈ characters.splitOn separator, character ∈ part := by
  induction characters with
  | nil => cases member
  | cons first characters ih =>
    rw [splitOn_cons_eq_if_modifyHead]
    obtain ⟨head, tail, parts⟩ := exists_cons_of_ne_nil (splitOn_ne_nil separator characters)
    rcases mem_cons.mp member with rfl | later
    · rw [if_neg (by simpa using different), parts]
      simp
    · obtain ⟨part, listed, inside⟩ := ih later
      split
      next => exact ⟨part, mem_cons_of_mem _ listed, inside⟩
      next =>
        rw [parts] at listed ⊢
        rcases mem_cons.mp listed with rfl | listed
        · exact ⟨first :: part, by simp, mem_cons_of_mem _ inside⟩
        · exact ⟨part, by simp [listed], inside⟩

/-! ## Names -/

/-- Letters, digits and hyphens, with no hyphen at either end. -/
@[mk_iff]
structure HostLabel (label : List Char) : Prop where
  bounded : label.length ≤ 63
  characters : ∀ character ∈ label, character.isAlphanum = true ∨ character = '-'
  first : ∃ character ∈ label.head?, character.isAlphanum = true
  last : ∃ character ∈ label.getLast?, character.isAlphanum = true

/-- Labels with dots between them. -/
structure HostName (name : List Char) : Prop where
  bounded : name.length ≤ 253
  labels : ∀ label ∈ name.splitOn '.', HostLabel label

/-- A name in the form that normalization gives. -/
structure CanonicalName (name : String) : Prop where
  present : name ≠ ""
  bounded : name.utf8ByteSize ≤ 253
  ascii : isAscii name = true
  lowercase : toAsciiLowercase name = name
  valid : ∀ label ∈ labels name, validLabel label = true

variable {name : String} {characters : List Char}

theorem validLabel_iff {label : List Char} : validLabel label = true ↔ HostLabel label := by
  simp only [validLabel, isLabelChar, hostLabel_iff, Bool.and_eq_true, decide_eq_true_eq,
    all_eq_true, Bool.or_eq_true, beq_iff_eq, Option.any_eq_true, and_assoc, Option.mem_def]

/-- A final dot would leave an empty label behind it. -/
theorem HostName.getLast?_ne (host : HostName characters) : characters.getLast? ≠ some '.' := by
  intro final
  obtain ⟨init, rfl⟩ := getLast?_eq_some_iff.mp final
  have empty : [] ∈ (init ++ ['.']).splitOn '.' := by
    rw [splitOn_append_cons_self]
    simp
  obtain ⟨_, member, -⟩ := (host.labels [] empty).first
  cases member

theorem HostName.ne_nil (host : HostName characters) : characters ≠ [] := by
  rintro rfl
  obtain ⟨_, member, -⟩ := (host.labels [] (by simp)).first
  cases member

theorem HostName.getLast?_wildcard_ne (host : HostName characters) :
    ('*' :: '.' :: characters).getLast? ≠ some '.' := by
  rw [getLast?_cons_of_ne_nil (cons_ne_nil _ _), getLast?_cons_of_ne_nil host.ne_nil]
  exact host.getLast?_ne

/-- Every character of a name is a dot or stands in a label. -/
theorem HostName.isLabelChar_of_mem (host : HostName characters)
    (member : character ∈ characters) : character = '.' ∨ isLabelChar character = true := by
  by_cases dot : character = '.'
  · exact .inl dot
  · obtain ⟨label, listed, inside⟩ := exists_mem_splitOn member dot
    refine .inr ?_
    simpa [isLabelChar] using (host.labels label listed).characters character inside

theorem HostName.star_not_mem (host : HostName characters) : '*' ∉ characters := by
  intro member
  rcases host.isLabelChar_of_mem member with dot | allowed
  · exact absurd dot (by decide)
  · exact absurd allowed (by decide)

/-- Each character of such a text takes one byte. -/
theorem utf8ByteSize_of_isAscii (ascii : isAscii name = true) :
    name.utf8ByteSize = name.toList.length := by
  have counted (characters : List Char) (small : ∀ character ∈ characters,
      character.toNat < 128) : String.utf8Len characters = characters.length := by
    induction characters with
    | nil => rfl
    | cons first characters ih =>
      obtain ⟨firstSmall, rest⟩ := forall_mem_cons.mp small
      have single : first.utf8Size = 1 := by
        rw [Char.utf8Size_eq_one_iff]
        exact Nat.le_of_lt_succ firstSmall
      rw [String.utf8Len_cons, ih rest, single, length_cons]
  have sized := String.utf8ByteSize_ofList name.toList
  rw [String.ofList_toList] at sized
  rw [sized]
  exact counted name.toList (by simpa [isAscii] using ascii)

theorem isAscii_toAsciiLowercase (name : String) :
    isAscii (toAsciiLowercase name) = isAscii name := by
  have small (character : Char) :
      decide (character.toLower.toNat < 128) = decide (character.toNat < 128) := by
    apply apply_toLower (fun character => decide (character.toNat < 128)) true
    intro character letter
    apply decide_eq_true
    apply toNat_lt_of_isLabelChar
    rw [isLabelChar, Char.isAlphanum, letter, Bool.true_or, Bool.true_or]
  simp only [isAscii, toAsciiLowercase, String.toList_ofList, all_map, Function.comp_def, small]

theorem toAsciiLowercase_toAsciiLowercase (name : String) :
    toAsciiLowercase (toAsciiLowercase name) = toAsciiLowercase name := by
  simp only [toAsciiLowercase, String.toList_ofList, map_map, Function.comp_def,
    Char.toLower_toLower_eq_toLower]

variable {value : String} {pattern : EgressFqdnPattern} {observation : EgressDnsObservation}

theorem normalizeDnsName_eq_ok : normalizeDnsName value = .ok name ↔
      (stripFinalDot value ≠ "" ∧ (stripFinalDot value).utf8ByteSize ≤ 253 ∧
        isAscii (stripFinalDot value) = true) ∧ (∀ label ∈ labels name, validLabel label = true) ∧
      name = toAsciiLowercase (stripFinalDot value) := by
  simp only [normalizeDnsName, eq_ok_iffs, eq_false_iffs, any_eq_false, Bool.not_eq_true,
    and_assoc, String.isEmpty_eq_false_iff]
  refine and_congr_right fun _ => and_congr_right fun _ => and_congr_right fun _ => ?_
  constructor
  · rintro ⟨valid, rfl⟩
    exact ⟨valid, rfl⟩
  · rintro ⟨valid, rfl⟩
    exact ⟨valid, rfl⟩

theorem canonicalName_of_normalizeDnsName (normalized : normalizeDnsName value = .ok name) :
    CanonicalName name := by
  obtain ⟨⟨present, bounded, ascii⟩, valid, rfl⟩ := normalizeDnsName_eq_ok.mp normalized
  refine ⟨?_, ?_, (isAscii_toAsciiLowercase _).trans ascii, toAsciiLowercase_toAsciiLowercase _,
    valid⟩
  · intro empty
    apply present
    have characters := congrArg String.toList empty
    rw [toAsciiLowercase, String.toList_ofList] at characters
    rw [← String.toList_inj]
    exact map_eq_nil_iff.mp characters
  · rw [utf8ByteSize_of_isAscii ((isAscii_toAsciiLowercase _).trans ascii), toAsciiLowercase,
      String.toList_ofList, length_map, ← utf8ByteSize_of_isAscii ascii]
    exact bounded

variable (canonical : CanonicalName name)

include canonical

theorem CanonicalName.host : HostName name.toList where
  bounded := utf8ByteSize_of_isAscii canonical.ascii ▸ canonical.bounded
  labels := fun label listed => validLabel_iff.mp (canonical.valid label listed)

theorem CanonicalName.stripFinalDot_eq :
    stripFinalDot name = name := by
  rw [stripFinalDot, if_neg canonical.host.getLast?_ne]

theorem CanonicalName.normalizeDnsName_eq :
    normalizeDnsName name = .ok name := by
  rw [normalizeDnsName_eq_ok, canonical.stripFinalDot_eq]
  exact ⟨⟨canonical.present, canonical.bounded, canonical.ascii⟩, canonical.valid,
    canonical.lowercase.symm⟩

omit canonical

theorem normalizeDnsName_normalizeDnsName (normalized : normalizeDnsName value = .ok name) :
    normalizeDnsName name = .ok name :=
  (canonicalName_of_normalizeDnsName normalized).normalizeDnsName_eq

/-- Converting items that are already converted. -/
theorem mapM_eq_self {α : Type} {convert : α → FqdnResult α} {items : List α}
    (fixed : ∀ item ∈ items, convert item = .ok item) : items.mapM convert = .ok items :=
  mapM_eq_ok_iff.mpr (forall₂_same.mpr fixed)

theorem normalizeDnsName_of_mem {values names : List String}
    (normalized : values.mapM normalizeDnsName = .ok names) (name : String)
    (member : name ∈ names) : normalizeDnsName name = .ok name := by
  obtain ⟨value, -, computed⟩ := exists_mem_of_mem_mapM normalized member
  exact normalizeDnsName_normalizeDnsName computed

/-! ## Patterns -/

/-- The forms that parsing gives. -/
inductive CanonicalPattern : EgressFqdnPattern → Prop
  | exact {name : String} (canonical : CanonicalName name) : CanonicalPattern (.exact name)
  | wildcardSuffix {suffix : String} (canonical : CanonicalName suffix)
      (bounded : 2 ≤ (labels suffix).length) : CanonicalPattern (.wildcardSuffix suffix)

theorem canonicalPattern_of_parse (parsed : parse value = .ok pattern) :
    CanonicalPattern pattern := by
  rw [parse] at parsed
  split at parsed
  next suffix split =>
    simp only [eq_ok_iffs, eq_false_iffs] at parsed
    obtain ⟨-, suffix, normalized, bounded, rfl⟩ := parsed
    exact .wildcardSuffix (canonicalName_of_normalizeDnsName normalized) bounded
  next =>
    simp only [eq_ok_iffs] at parsed
    obtain ⟨-, name, normalized, rfl⟩ := parsed
    exact .exact (canonicalName_of_normalizeDnsName normalized)

theorem CanonicalPattern.parse_text (canonical : CanonicalPattern pattern) :
    parse pattern.text = .ok pattern := by
  cases canonical with
  | @exact name canonical =>
    have plain : name.toList.contains '*' = false := by
      simpa using canonical.host.star_not_mem
    rw [text, parse, canonical.stripFinalDot_eq]
    split
    next suffix split =>
      rw [split] at plain
      simp at plain
    next =>
      simp only [plain, canonical.normalizeDnsName_eq]
      rfl
  | @wildcardSuffix suffix canonical bounded =>
    have characters : ("*." ++ suffix).toList = '*' :: '.' :: suffix.toList := by
      rw [String.toList_append]
      rfl
    have plain : suffix.toList.contains '*' = false := by
      simpa using canonical.host.star_not_mem
    have unchanged : stripFinalDot ("*." ++ suffix) = "*." ++ suffix := by
      rw [stripFinalDot, characters, if_neg canonical.host.getLast?_wildcard_ne]
    rw [text, parse, unchanged, characters]
    simp only [bind_eq_ok, failIf_eq_ok, exists_const, String.ofList_toList,
      canonical.normalizeDnsName_eq, Except.ok.injEq, exists_eq_left', eq_false_iffs]
    exact ⟨plain, bounded, rfl⟩

/-! ## Policies -/

theorem normalizeEgressFqdnDestinationSpec_again {spec canonical : EgressFqdnDestinationSpec}
    (normalized : normalizeEgressFqdnDestinationSpec spec = .ok canonical) :
    normalizeEgressFqdnDestinationSpec canonical = .ok canonical := by
  obtain ⟨patterns, names, parsed, named, wellformed, rfl⟩ :=
    normalizeEgressFqdnDestinationSpec_eq_ok.mp normalized
  have patternCount : patterns.length = spec.patterns.length :=
    (mapM_eq_ok_iff.mp parsed).length_eq.symm
  have nameCount : names.length = spec.discoveryNames.length :=
    (mapM_eq_ok_iff.mp named).length_eq.symm
  have sortPresent {α : Type} [LinearOrder α] {items : List α} (present : items ≠ []) :
      sort items ≠ [] := by
    rwa [← length_pos_iff, length_sort, length_pos_iff]
  rw [normalizeEgressFqdnDestinationSpec_eq_ok]
  refine ⟨sort patterns, sort names, mapM_eq_self fun pattern member => ?_,
    mapM_eq_self fun name member => normalizeDnsName_of_mem named name (mem_sort.mp member),
    ?_, by simp⟩
  · obtain ⟨_, -, result⟩ := exists_mem_of_mem_mapM parsed (mem_sort.mp member)
    exact (canonicalPattern_of_parse result).parse_text
  · exact {
      patternsPresent := by
        apply sortPresent
        rw [← length_pos_iff, patternCount, length_pos_iff]
        exact wellformed.patternsPresent
      patternsBounded := by simpa [patternCount] using wellformed.patternsBounded
      patternsDistinct := nodup_sort.mpr wellformed.patternsDistinct
      view := wellformed.view
      namesBounded := by simpa [nameCount] using wellformed.namesBounded
      namesDistinct := nodup_sort.mpr wellformed.namesDistinct
      members := by simpa using wellformed.members
      resolversBounded := by simpa using wellformed.resolversBounded
      resolversSpecified := by simpa using wellformed.resolversSpecified
      resolversDistinct := nodup_sort.mpr wellformed.resolversDistinct
      explicit := wellformed.explicit.imp_right sortPresent
      observers := wellformed.observers
      addresses := wellformed.addresses
      ttl := wellformed.ttl
      grace := wellformed.grace }

theorem normalizePolicy_again {policy canonical : EgressFqdnPolicy}
    (normalized : normalizePolicy policy = .ok canonical) :
    normalizePolicy canonical = .ok canonical := by
  obtain ⟨revision, owner, spec, computed, rfl⟩ := normalizePolicy_eq_ok.mp normalized
  exact normalizePolicy_eq_ok.mpr ⟨revision, owner, spec,
    normalizeEgressFqdnDestinationSpec_again computed, rfl⟩

/-! ## Observations -/

/-- An observation that normalization with the largest lifetime does not change. -/
structure EgressDnsObservation.Canonical (observation : EgressDnsObservation) : Prop where
  source : observation.sourceInvalid = false
  named : CanonicalName observation.queryName
  bounded : observation.answers.length ≤ maxEgressFqdnAnswersPerObservation
  chain : ∀ name ∈ observation.canonicalChain, CanonicalName name
  chainBounded : observation.canonicalChain.length ≤ maxEgressFqdnCnameDepth
  first : observation.canonicalChain.head? = some observation.queryName
  loopFree : loopFree observation.canonicalChain = true
  sorted : observation.answers.Pairwise (· ≤ ·)
  distinct : observation.answers.Nodup
  answers : ∀ answer ∈ observation.answers, answer.address.isUnspecified = false ∧
    answer.ttlSeconds ≤ maxEgressFqdnTtlSeconds

/-- The observation with the lifetimes of its answers cut. -/
def EgressDnsObservation.capped (maxTtlSeconds : UInt32) (observation : EgressDnsObservation) :
    EgressDnsObservation :=
  { observation with
    answers := observation.answers.map (EgressDnsAnswer.capped maxTtlSeconds) }

theorem canonical_of_normalizeObservation {raw : EgressDnsObservation} {nowUnixSeconds : UInt64}
    (normalized : normalizeObservation raw maxEgressFqdnTtlSeconds nowUnixSeconds =
      .ok observation) : observation.Canonical := by
  obtain ⟨wellformed, queryName, chain, named, chained, first, looped, rfl⟩ :=
    normalizeObservation_eq_ok.mp normalized
  have unchanged : (sort raw.answers).map (EgressDnsAnswer.capped maxEgressFqdnTtlSeconds) =
      sort raw.answers := by
    have fixed (answer : EgressDnsAnswer) (member : answer ∈ sort raw.answers) :
        answer.capped maxEgressFqdnTtlSeconds = id answer := by
      have bounded := (wellformed.answers answer (mem_sort.mp member)).2
      simp [EgressDnsAnswer.capped, bounded]
    rw [map_congr_left fixed, map_id]
  have chainCount := (mapM_eq_ok_iff.mp chained).length_eq
  rw [EgressDnsObservation.normalized, unchanged]
  exact {
    source := wellformed.source
    named := canonicalName_of_normalizeDnsName named
    bounded := by simpa using wellformed.bounded
    chain := fun name member => by
      obtain ⟨value, -, computed⟩ := exists_mem_of_mem_mapM chained member
      exact canonicalName_of_normalizeDnsName computed
    chainBounded := chainCount ▸ wellformed.chainBounded
    first := first
    loopFree := looped
    sorted := sort_sorted _
    distinct := nodup_sort.mpr wellformed.distinct
    answers := by simpa using wellformed.answers }

/-- A canonical observation is only cut, unless it comes from the future. -/
theorem EgressDnsObservation.Canonical.normalizeObservation_eq (canonical : observation.Canonical)
    (maxTtlSeconds : UInt32) (nowUnixSeconds : UInt64) :
    normalizeObservation observation maxTtlSeconds nowUnixSeconds =
      if observation.observedAtUnixSeconds ≤
          saturatingAdd nowUnixSeconds maxEgressFqdnFutureSkewSeconds then
        .ok (observation.capped maxTtlSeconds) else
        .error (.invalidObservation observation.source.observerUid
          "observation timestamp is too far in the future") := by
  have sorted : sort observation.answers = observation.answers := canonical.sorted.insertionSort_eq
  split
  next present =>
    have chainPresent : observation.canonicalChain ≠ [] := by
      intro empty
      have first := canonical.first
      rw [empty] at first
      cases first
    refine normalizeObservation_eq_ok.mpr ⟨⟨canonical.source, present, canonical.bounded,
      chainPresent, canonical.chainBounded, canonical.distinct, canonical.answers⟩,
      observation.queryName, observation.canonicalChain, canonical.named.normalizeDnsName_eq,
      mapM_eq_self fun name member => (canonical.chain name member).normalizeDnsName_eq,
      canonical.first, canonical.loopFree, ?_⟩
    rw [EgressDnsObservation.normalized, sorted, EgressDnsObservation.capped]
  next future =>
    rw [normalizeObservation, canonical.source, decide_eq_true (not_le.mp future)]
    rfl

end Unf.Egress
