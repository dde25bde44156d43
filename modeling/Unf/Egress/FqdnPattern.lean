import Unf.Egress.FqdnCanonical

/-!
# Patterns as texts and labels

Which texts are parsed as patterns, and which names a pattern matches. A final dot is left
out of the pattern and again of the name in it, so that a text with two of them is parsed
as well.
-/

namespace Unf.Egress

open Unf.Lib List

/-! ## The grammar -/

/-- A name, or a wildcard and a name of at least two labels, and some dots behind it. -/
def Written (dots : Nat) (text : String) : Prop :=
  ∃ name, HostName name ∧ (text.toList = name ++ replicate dots '.' ∨
    2 ≤ (name.splitOn '.').length ∧ text.toList = '*' :: '.' :: (name ++ replicate dots '.'))

/-- The pattern is the name, or its suffix makes up the labels of the name after one or
more others. -/
def EgressFqdnPattern.Covers (pattern : EgressFqdnPattern) (name : String) : Prop :=
  match pattern with
  | exact other => other = name
  | wildcardSuffix suffix => ∃ front, front ≠ [] ∧ labels name = front ++ labels suffix

/-- The texts of the grammar are parsed and no others, a parsed pattern is parsed again as
itself, and it matches the names that it covers. -/
def ParsedAsWritten (text : String) : Prop :=
  ((∃ pattern, EgressFqdnPattern.parse text = .ok pattern) ↔ ∃ dots ≤ 1, Written dots text) ∧
    ∀ pattern, EgressFqdnPattern.parse text = .ok pattern →
      EgressFqdnPattern.parse pattern.text = .ok pattern ∧
      ∀ name, normalizeDnsName name = .ok name →
        (pattern.matches name = true ↔ pattern.Covers name)

/-! ## Names -/

variable {name : List Char} {text value : String} {pattern : EgressFqdnPattern}
  {dots otherDots : Nat}

theorem validLabel_toLower (label : List Char) :
    validLabel (label.map Char.toLower) = validLabel label := by
  have alphanum (character : Char) : character.toLower.isAlphanum = character.isAlphanum := by
    apply apply_toLower Char.isAlphanum true
    intro _ letter
    rw [Char.isAlphanum, letter, Bool.true_or]
  have labelChar (character : Char) : isLabelChar character.toLower = isLabelChar character := by
    apply apply_toLower isLabelChar true
    intro _ letter
    rw [isLabelChar, Char.isAlphanum, letter, Bool.true_or, Bool.true_or]
  simp only [validLabel, length_map, all_map, head?_map, getLast?_map, Option.any_map,
    Function.comp_def, alphanum, labelChar]

theorem splitOn_toLower (characters : List Char) :
    (characters.map Char.toLower).splitOn '.' =
      (characters.splitOn '.').map (map Char.toLower) := by
  have dot (character : Char) : (character.toLower == '.') = (character == '.') := by
    apply apply_toLower (· == '.') false
    intro character letter
    rw [beq_eq_false_iff_ne]
    rintro rfl
    exact absurd letter (by decide)
  induction characters with
  | nil => rfl
  | cons first characters ih =>
    rw [map_cons, splitOn_cons_eq_if_modifyHead, splitOn_cons_eq_if_modifyHead, dot, ih]
    split
    · rfl
    · cases characters.splitOn '.' <;> rfl

theorem exists_normalizeDnsName_iff :
    (∃ name, normalizeDnsName value = .ok name) ↔ HostName (stripFinalDot value).toList := by
  have valid : (∀ label ∈ labels (toAsciiLowercase (stripFinalDot value)),
      validLabel label = true) ↔
        ∀ label ∈ (stripFinalDot value).toList.splitOn '.', HostLabel label := by
    rw [labels, toAsciiLowercase, String.toList_ofList, splitOn_toLower, forall_mem_map]
    simp only [validLabel_toLower, validLabel_iff]
  constructor
  · rintro ⟨name, normalized⟩
    obtain ⟨⟨-, bounded, ascii⟩, labelled, rfl⟩ := normalizeDnsName_eq_ok.mp normalized
    rw [utf8ByteSize_of_isAscii ascii] at bounded
    exact ⟨bounded, valid.mp labelled⟩
  · intro host
    have ascii : isAscii (stripFinalDot value) = true := by
      simp only [isAscii, all_eq_true, decide_eq_true_eq]
      intro character member
      rcases host.isLabelChar_of_mem member with rfl | allowed
      · decide
      · exact toNat_lt_of_isLabelChar allowed
    refine ⟨_, normalizeDnsName_eq_ok.mpr ⟨⟨?_, ?_, ascii⟩, valid.mpr host.labels, rfl⟩⟩
    · intro empty
      exact host.ne_nil (congrArg String.toList empty)
    · rw [utf8ByteSize_of_isAscii ascii]
      exact host.bounded

/-! ## Final dots -/

theorem toList_eq_stripFinalDot (text : String) :
    ∃ dots ≤ 1, text.toList = (stripFinalDot text).toList ++ replicate dots '.' := by
  rw [stripFinalDot]
  split
  next final =>
    refine ⟨1, le_rfl, ?_⟩
    rw [String.toList_ofList]
    exact (dropLast_append_getLast? '.' final).symm
  next => exact ⟨0, Nat.zero_le 1, (append_nil _).symm⟩

theorem toList_stripFinalDot {characters : List Char} (plain : characters.getLast? ≠ some '.')
    (written : text.toList = characters ++ replicate dots '.') :
    (stripFinalDot text).toList = characters ++ replicate (dots - 1) '.' := by
  rw [stripFinalDot, written]
  cases dots with
  | zero => simpa [plain] using written
  | succ dots => simp [replicate_succ']

/-! ## Texts -/

theorem exists_parse_of_written (bounded : dots ≤ 2) (written : Written dots text) :
    ∃ pattern, EgressFqdnPattern.parse text = .ok pattern := by
  have none : dots - 1 - 1 = 0 := by omega
  obtain ⟨name, host, written | ⟨many, written⟩⟩ := written
  · have stripped := toList_stripFinalDot host.getLast?_ne written
    have again := toList_stripFinalDot host.getLast?_ne stripped
    rw [none, replicate_zero, append_nil] at again
    obtain ⟨normalized, computed⟩ := exists_normalizeDnsName_iff.mpr (again ▸ host)
    have noStar : '*' ∉ name ++ replicate (dots - 1) '.' := by simp [host.star_not_mem]
    rw [EgressFqdnPattern.parse]
    split
    next suffix split =>
      rw [← stripped, split] at noStar
      exact absurd mem_cons_self noStar
    next =>
      refine ⟨.exact normalized, ?_⟩
      simp only [eq_ok_iffs]
      exact ⟨by simpa [stripped] using noStar, normalized, computed, rfl⟩
  · have stripped := toList_stripFinalDot host.getLast?_wildcard_ne written
    have again := toList_stripFinalDot host.getLast?_ne
      (String.toList_ofList (l := name ++ replicate (dots - 1) '.'))
    rw [none, replicate_zero, append_nil] at again
    obtain ⟨normalized, computed⟩ := exists_normalizeDnsName_iff.mpr (again ▸ host)
    refine ⟨.wildcardSuffix normalized, ?_⟩
    rw [EgressFqdnPattern.parse, stripped]
    simp only [cons_append, eq_ok_iffs, eq_false_iffs]
    refine ⟨by simp [host.star_not_mem], normalized, computed, ?_, rfl⟩
    obtain ⟨-, -, rfl⟩ := normalizeDnsName_eq_ok.mp computed
    rw [labels, toAsciiLowercase, again, String.toList_ofList, splitOn_toLower, length_map]
    exact many

theorem exists_written_of_parse (parsed : EgressFqdnPattern.parse text = .ok pattern) :
    ∃ dots ≤ 2, Written dots text := by
  rw [EgressFqdnPattern.parse] at parsed
  split at parsed
  next suffix split =>
    simp only [eq_ok_iffs, eq_false_iffs] at parsed
    obtain ⟨-, normalized, computed, many, rfl⟩ := parsed
    obtain ⟨inner, innerBounded, suffixEq⟩ := toList_eq_stripFinalDot (String.ofList suffix)
    obtain ⟨outer, outerBounded, textEq⟩ := toList_eq_stripFinalDot text
    refine ⟨inner + outer, by omega, _, exists_normalizeDnsName_iff.mp ⟨_, computed⟩, .inr ⟨?_, ?_⟩⟩
    · obtain ⟨-, -, rfl⟩ := normalizeDnsName_eq_ok.mp computed
      rwa [labels, toAsciiLowercase, String.toList_ofList, splitOn_toLower, length_map] at many
    · rw [String.toList_ofList] at suffixEq
      rw [textEq, split, replicate_add, ← append_assoc, ← suffixEq]
      rfl
  next =>
    simp only [eq_ok_iffs] at parsed
    obtain ⟨-, normalized, computed, rfl⟩ := parsed
    obtain ⟨inner, innerBounded, valueEq⟩ := toList_eq_stripFinalDot (stripFinalDot text)
    obtain ⟨outer, outerBounded, textEq⟩ := toList_eq_stripFinalDot text
    refine ⟨inner + outer, by omega, _, exists_normalizeDnsName_iff.mp ⟨_, computed⟩, .inl ?_⟩
    rw [textEq, replicate_add, ← append_assoc, ← valueEq]

/-- A text ends in one number of dots only. -/
theorem dots_eq {front otherFront : List Char}
    (plain : front.getLast? ≠ some '.') (otherPlain : otherFront.getLast? ≠ some '.')
    (same : front ++ replicate dots '.' = otherFront ++ replicate otherDots '.') :
    dots = otherDots := by
  induction dots generalizing otherDots with
  | zero =>
    cases otherDots with
    | zero => rfl
    | succ =>
      rw [replicate_zero, append_nil, replicate_succ', ← append_assoc] at same
      exact absurd (by rw [same, getLast?_concat]) plain
  | succ dots ih =>
    cases otherDots with
    | zero =>
      rw [replicate_zero, append_nil, replicate_succ', ← append_assoc] at same
      exact absurd (by rw [← same, getLast?_concat]) otherPlain
    | succ =>
      rw [replicate_succ', replicate_succ', ← append_assoc, ← append_assoc] at same
      rw [ih (append_cancel_right same)]

theorem Written.dots_eq (written : Written dots text)
    (other : Written otherDots text) : dots = otherDots := by
  have plain {dots : Nat} (written : Written dots text) :
      ∃ front, front.getLast? ≠ some '.' ∧ text.toList = front ++ replicate dots '.' := by
    obtain ⟨name, host, written | ⟨-, written⟩⟩ := written
    · exact ⟨name, host.getLast?_ne, written⟩
    · exact ⟨_, host.getLast?_wildcard_ne, written⟩
  obtain ⟨front, frontPlain, split⟩ := plain written
  obtain ⟨otherFront, otherPlain, otherSplit⟩ := plain other
  exact Egress.dots_eq frontPlain otherPlain (split.symm.trans otherSplit)

/-! ## Matching -/

theorem intercalate_append {front back : List (List Char)} (frontPresent : front ≠ [])
    (backPresent : back ≠ []) : ['.'].intercalate (front ++ back) =
      ['.'].intercalate front ++ '.' :: ['.'].intercalate back := by
  induction front with
  | nil => exact absurd rfl frontPresent
  | cons first front ih =>
    cases front with
    | nil => rw [singleton_append, intercalate_cons_of_ne_nil backPresent]; simp
    | cons second front =>
      rw [cons_append, intercalate_cons_of_ne_nil (by simp), ih (cons_ne_nil _ _),
        intercalate_cons_of_ne_nil (cons_ne_nil _ _)]
      simp only [append_assoc]

theorem matches_iff (pattern : EgressFqdnPattern) (name : String) :
    pattern.matches name = true ↔ pattern.Covers name := by
  cases pattern with
  | exact other => exact beq_iff_eq
  | wildcardSuffix suffix =>
    simp only [EgressFqdnPattern.matches, Bool.and_eq_true, decide_eq_true_eq,
      isSuffixOf_iff_suffix]
    constructor
    · rintro ⟨⟨longer, front, split⟩, dot⟩
      rcases eq_nil_or_concat front with rfl | ⟨init, last, rfl⟩
      · rw [← split] at longer
        exact absurd longer (lt_irrefl _)
      · have index : name.toList.length - suffix.toList.length - 1 = init.length := by
          rw [← split, length_append, length_concat]
          omega
        rw [index, ← split] at dot
        obtain rfl : last = '.' := by simpa using dot
        refine ⟨init.splitOn '.', splitOn_ne_nil _ _, ?_⟩
        rw [labels, ← split, concat_eq_append, append_assoc, singleton_append,
          splitOn_append_cons_self, labels]
    · rintro ⟨front, present, split⟩
      have characters : name.toList = ['.'].intercalate front ++ '.' :: suffix.toList := by
        have joined : ['.'].intercalate (labels name) = name.toList := intercalate_splitOn '.'
        rw [← joined, split, labels, intercalate_append present (splitOn_ne_nil _ _),
          intercalate_splitOn]
      have index : name.toList.length - suffix.toList.length - 1 =
          (['.'].intercalate front).length := by
        rw [characters, length_append, length_cons]
        omega
      rw [index, characters]
      refine ⟨⟨?_, ⟨_, append_assoc _ ['.'] _⟩⟩, ?_⟩
      · rw [length_append, length_cons]
        omega
      · simp

/-! ## The patterns that are parsed -/

theorem parsed_exactly_iff_not_two_dots (text : String) :
    ParsedAsWritten text ↔ ¬Written 2 text := by
  constructor
  · rintro ⟨accepted, -⟩ twice
    obtain ⟨dots, bounded, written⟩ := accepted.mp (exists_parse_of_written le_rfl twice)
    have := twice.dots_eq written
    omega
  · intro once
    refine ⟨⟨?_, ?_⟩, ?_⟩
    · rintro ⟨pattern, parsed⟩
      obtain ⟨dots, bounded, written⟩ := exists_written_of_parse parsed
      rcases eq_or_lt_of_le bounded with rfl | fewer
      · exact absurd written once
      · exact ⟨dots, Nat.le_of_lt_succ fewer, written⟩
    · rintro ⟨dots, bounded, written⟩
      exact exists_parse_of_written (bounded.trans one_le_two) written
    · intro pattern parsed
      exact ⟨(canonicalPattern_of_parse parsed).parse_text,
        fun name _ => matches_iff pattern name⟩

theorem two_final_dots_parsed : EgressFqdnPattern.parse "a.." = .ok (.exact "a") ∧
    ¬∃ dots ≤ 1, Written dots "a.." := by
  refine ⟨by decide +kernel, ?_⟩
  rintro ⟨dots, bounded, written⟩
  have label : HostLabel ['a'] := validLabel_iff.mp (by decide)
  have twice : Written 2 "a.." :=
    ⟨['a'], ⟨by decide, forall_mem_singleton.mpr label⟩, .inl (by decide +kernel)⟩
  have := twice.dots_eq written
  omega

end Unf.Egress
