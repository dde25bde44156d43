import Unf.Egress.DnsMessage

/-!
# Whose records a DNS answer counts

The records of a message with the labels of their names, and what an accepted response says
about the query. The parser compares names as joined texts, so that it takes a label with
a dot in it for two labels; the answer is attributed to the labels of the query exactly
when no name on the way has such a label.
-/

namespace Unf.Egress

open Unf.Lib List

/-! ## The wire format -/

/-- The labels of the name at an offset, and where the message goes on after it. -/
inductive NameAt (message : List UInt8) : Nat → List Label → Nat → Prop
  | root {offset : Nat} (ends : message[offset]? = some 0) :
      NameAt message offset [] (offset + 1)
  | label {offset next : Nat} {length : UInt8} {labels : List Label}
      (starts : message[offset]? = some length) (plain : length &&& 0xc0 = 0)
      (present : length ≠ 0) (inside : offset + 1 + length.toNat ≤ message.length)
      (rest : NameAt message (offset + 1 + length.toNat) labels next) :
      NameAt message offset (labelOf (slice message (offset + 1) length.toNat) :: labels) next
  | pointer {offset next : Nat} {length low : UInt8} {labels : List Label}
      (starts : message[offset]? = some length) (jumps : length &&& 0xc0 = 0xc0)
      (continues : message[offset + 1]? = some low)
      (rest : NameAt message (pointerTarget length low) labels next) :
      NameAt message offset labels (offset + 2)

/-- The labels that are read at an offset, and where the message goes on after them. -/
def labelsAt (message : List UInt8) (offset : Nat) : Option (List Label × Nat) :=
  (readLabels message offset none 0 []).toOption

/-- One resource record, with the place of its data. -/
structure DnsRecord where
  owner : List Label
  kind : Nat
  «class» : Nat
  ttl : UInt32
  rdata : Nat
  length : Nat
  deriving DecidableEq

/-- The record of an owner whose fields start at an offset. -/
def recordFrom (message : List UInt8) (owner : List Label) (fields : Nat) : DnsRecord where
  owner := owner
  kind := number message fields 2
  «class» := number message (fields + 2) 2
  ttl := .ofNat (number message (fields + 4) 4)
  rdata := fields + 10
  length := number message (fields + 8) 2

/-- The records that follow each other from an offset on. -/
def recordsAt (message : List UInt8) : Nat → Nat → Option (List DnsRecord)
  | 0, _ => some []
  | count + 1, offset => do
      let (owner, fields) ← labelsAt message offset
      let record := recordFrom message owner fields
      return record :: (← recordsAt message count (record.rdata + record.length))

/-- A CNAME record of class IN. -/
structure CnameRecord where
  owner : List Label
  target : List Label
  ttl : UInt32

def DnsRecord.cname? (message : List UInt8) (record : DnsRecord) : Option CnameRecord := do
  guard (record.class = 1 ∧ record.kind = 5)
  let (target, _) ← labelsAt message record.rdata
  return ⟨record.owner, target, record.ttl⟩

/-- The owner and the address of a record of class IN and of the type of the query. -/
def DnsRecord.address? (message : List UInt8) (queryType : UInt16) (record : DnsRecord) :
    Option (List Label × EgressDnsAnswer) :=
  if record.class = 1 ∧ record.kind = queryType.toNat ∧ record.kind = 1 ∧ record.length = 4 then
    some (record.owner, ⟨.v4 (.ofNat 32 (number message record.rdata 4)), record.ttl⟩)
  else if record.class = 1 ∧ record.kind = queryType.toNat ∧ record.kind = 28 ∧
      record.length = 16 then
    some (record.owner, ⟨.v6 (.ofNat 128 (number message record.rdata 16)), record.ttl⟩)
  else
    none

/-! ## Reading names and records -/

variable {message : List UInt8} {offset stop : Nat} {queryType : UInt16}

theorem nameAt_of_readLabels {consumed : Option Nat} {jumps : Nat} {labels all : List Label}
    (read : readLabels message offset consumed jumps labels = .ok (all, stop)) :
    ∃ rest next, NameAt message offset rest next ∧ all = labels ++ rest ∧
      stop = consumed.getD next := by
  fun_induction readLabels message offset consumed jumps labels with
  | case4 offset consumed jumps labels length starts pointer low continues _ ih =>
    obtain ⟨rest, next, name, rfl, rfl⟩ := ih read
    refine ⟨rest, offset + 2, .pointer starts pointer continues name, rfl, ?_⟩
    cases consumed <;> rfl
  | case6 offset consumed jumps labels starts =>
    cases read
    exact ⟨[], offset + 1, .root starts, by simp, rfl⟩
  | case9 offset consumed jumps labels length starts _ plain present inside bytes _
      ih =>
    obtain ⟨rest, next, name, rfl, rfl⟩ := ih read
    exact ⟨_, next, .label starts (not_not.mp plain) present (by omega) name, append_assoc .., rfl⟩
  | _ => cases read

theorem nameAt_of_labelsAt {labels : List Label}
    (found : labelsAt message offset = some (labels, stop)) :
    NameAt message offset labels stop := by
  rw [labelsAt] at found
  cases read : readLabels message offset none 0 [] with
  | error => cases read ▸ found
  | ok result =>
    obtain rfl := Option.some.inj (read ▸ found)
    obtain ⟨_, _, name, rfl, rfl⟩ := nameAt_of_readLabels read
    exact name

theorem labelsAt_of_readName {name : String} (read : readName message offset = .ok (name, stop)) :
    ∃ wire, labelsAt message offset = some (wire, stop) ∧ name = nameText wire := by
  simp only [readName, eq_ok_iffs, Prod.mk.injEq, Prod.exists] at read
  obtain ⟨wire, stop, labels, -, rfl, rfl⟩ := read
  exact ⟨wire, by rw [labelsAt, labels]; rfl, rfl⟩

theorem numberAt_eq_ok {width value : Nat} : numberAt message offset width = .ok value ↔
      offset + width ≤ message.length ∧ number message offset width = value := by
  simp only [numberAt, failIf_bind_eq_ok, eq_false_iffs, pure_eq_ok]

/-- A CNAME record as the parser keeps it. -/
def CnameRecord.text (record : CnameRecord) : String × String × UInt32 :=
  (nameText record.owner, nameText record.target, record.ttl)

variable {before after : DnsRecords}

/-- What the parser keeps of some more records. -/
structure Collected (message : List UInt8) (queryType : UInt16) (before after : DnsRecords)
    (records : List DnsRecord) : Prop where
  cnames : after.cnames =
    before.cnames ++ (records.filterMap (DnsRecord.cname? message)).map CnameRecord.text
  addresses : after.addresses = before.addresses ++
    (records.filterMap (DnsRecord.address? message queryType)).map (Prod.map nameText id)
  distinct : (before.cnames.map Prod.fst).Nodup → (after.cnames.map Prod.fst).Nodup

theorem collected_of_readRecord (read : readRecord message queryType before = .ok after) :
    ∃ owner fields, labelsAt message before.offset = some (owner, fields) ∧
      after.offset = fields + 10 + number message (fields + 8) 2 ∧
      Collected message queryType before after [recordFrom message owner fields] := by
  simp only [readRecord, eq_ok_iffs, Prod.exists, numberAt_eq_ok, and_assoc] at read
  obtain ⟨_, fields, owned, -, _, -, rfl, _, -, rfl, _, -, rfl, _, -, rfl, -, read⟩ := read
  obtain ⟨owner, name, rfl⟩ := labelsAt_of_readName owned
  refine ⟨owner, fields, name, ?_⟩
  split at read
  next cname =>
    simp only [eq_ok_iffs, Prod.exists] at read
    obtain ⟨_, _, aimed, fresh, rfl⟩ := read
    obtain ⟨target, targetName, rfl⟩ := labelsAt_of_readName aimed
    refine ⟨rfl, ?_, ?_, fun distinct => ?_⟩
    · simp [DnsRecord.cname?, recordFrom, cname, targetName, CnameRecord.text]
    · simp [DnsRecord.address?, recordFrom, cname]
    · rw [map_append, nodup_append_comm]
      refine nodup_cons.mpr ⟨fun listed => ?_, distinct⟩
      obtain ⟨entry, member, same⟩ := mem_map.mp listed
      rw [Option.isSome_eq_false_iff, Option.isNone_iff_eq_none, lookup_eq_none_iff] at fresh
      exact absurd (fresh entry member) (by simp [same])
  next other =>
    have plain : (recordFrom message owner fields).cname? message = none := by
      simp [DnsRecord.cname?, recordFrom, other]
    split_ifs at read with ipv4 ipv6 <;>
      simp only [eq_ok_iffs, numberAt_eq_ok, and_assoc] at read
    · obtain ⟨_, -, rfl, rfl⟩ := read
      have address : (recordFrom message owner fields).address? message queryType = some _ :=
        if_pos ipv4
      exact ⟨rfl, by simp [plain], by rw [filterMap_cons_some address]; rfl, id⟩
    · obtain ⟨_, -, rfl, rfl⟩ := read
      have address : (recordFrom message owner fields).address? message queryType = some _ :=
        (if_neg ipv4).trans (if_pos ipv6)
      exact ⟨rfl, by simp [plain], by rw [filterMap_cons_some address]; rfl, id⟩
    · obtain rfl := read
      have address : (recordFrom message owner fields).address? message queryType = none :=
        (if_neg ipv4).trans (if_neg ipv6)
      exact ⟨rfl, by simp [plain], by simp [address], id⟩

theorem collected_of_readRecords {count : Nat}
    (read : readRecords message queryType count before = .ok after) :
    ∃ records, recordsAt message count before.offset = some records ∧
      Collected message queryType before after records := by
  induction count generalizing before with
  | zero =>
    cases read
    exact ⟨[], rfl, by simp, by simp, id⟩
  | succ count ih =>
    obtain ⟨middle, first, rest⟩ := bind_eq_ok.mp read
    obtain ⟨owner, fields, name, moved, one⟩ := collected_of_readRecord first
    obtain ⟨records, found, more⟩ := ih rest
    rw [moved] at found
    refine ⟨recordFrom message owner fields :: records, ?_, ?_, ?_, more.distinct ∘ one.distinct⟩
    · simp [recordsAt, name, recordFrom, found]
    · rw [more.cnames, one.cnames, append_assoc, ← map_append, ← filterMap_append, singleton_append]
    · rw [more.addresses, one.addresses, append_assoc, ← map_append,
        ← filterMap_append, singleton_append]

/-! ## The chain of CNAMEs -/

/-- The chain of CNAME records from a name on, with the least of their lifetimes. The
argument tells which labels a name stands for. -/
inductive CnameChain (names : String → List Label → Bool) (cnames : List CnameRecord) :
    String → List String → UInt32 → Prop
  | last {name : String} (ends : ∀ cname ∈ cnames, names name cname.owner = false) :
      CnameChain names cnames name [name] 0xffffffff
  | step {name next : String} {cname : CnameRecord} {chain : List String} {ttl : UInt32}
      (member : cname ∈ cnames) (owned : names name cname.owner = true)
      (aimed : names next cname.target = true) (rest : CnameChain names cnames next chain ttl) :
      CnameChain names cnames name (name :: chain) (min cname.ttl ttl)

/-- The name is the text of the labels. -/
def spelled (name : String) (wire : List Label) : Bool :=
  name == nameText wire

variable {cnames : List CnameRecord} {name : String} {chain : List String} {ttl : UInt32}

theorem chain_of_lookup_eq_none (absent : (cnames.map CnameRecord.text).lookup name = none) :
    CnameChain spelled cnames name [name] 0xffffffff := by
  refine .last fun cname member => ?_
  simpa [spelled, CnameRecord.text] using
    lookup_eq_none_iff.mp absent cname.text (mem_map_of_mem member)

theorem le_longest (ttl : UInt32) : ttl ≤ 0xffffffff :=
  UInt32.le_iff_toNat_le.mpr (Nat.le_of_lt_succ ttl.toNat_lt)

theorem chain_of_followCnames {steps : Nat} (earlier : List String) {canonical : String}
    {chainTtl : UInt32}
    (followed : followCnames (cnames.map CnameRecord.text) steps (earlier ++ [name]) name ttl =
      .ok (chain, canonical, chainTtl))
    (complete : (cnames.map CnameRecord.text).lookup canonical = none) :
    ∃ rest restTtl, CnameChain spelled cnames name rest restTtl ∧ chain = earlier ++ rest ∧
      rest.getLast? = some canonical ∧ chainTtl = min ttl restTtl ∧
      ((earlier ++ [name]).Nodup → chain.Nodup) := by
  have longest (ttl : UInt32) : ttl = min ttl 0xffffffff := (min_eq_left (le_longest ttl)).symm
  induction steps generalizing earlier name ttl with
  | zero =>
    cases followed
    exact ⟨[_], _, chain_of_lookup_eq_none complete, rfl, rfl, longest _, id⟩
  | succ steps ih =>
    rw [followCnames] at followed
    cases found : (cnames.map CnameRecord.text).lookup name with
    | none =>
      rw [found] at followed
      cases followed
      exact ⟨[_], _, chain_of_lookup_eq_none found, rfl, rfl, longest _, id⟩
    | some entry =>
      obtain ⟨_, _, listed, -⟩ := lookup_eq_some_iff.mp found
      obtain ⟨cname, member, same⟩ := mem_map.mp (listed ▸ mem_append_right _ mem_cons_self)
      obtain ⟨rfl, rfl⟩ := Prod.mk.inj same
      simp only [found, failIf_bind_eq_ok] at followed
      obtain ⟨fresh, followed⟩ := followed
      obtain ⟨rest, restTtl, linked, rfl, final, rfl, distinct⟩ := ih (earlier ++ [_]) followed
      refine ⟨_ :: rest, _, .step member (beq_self_eq_true _) (beq_self_eq_true _) linked,
        append_assoc .., ?_, min_assoc .., fun nodup => distinct ?_⟩
      · rw [getLast?_cons, final]
        rfl
      · rw [nodup_append_comm]
        exact nodup_cons.mpr ⟨by simpa using fresh, nodup⟩

theorem CnameChain.head?_eq {names : String → List Label → Bool}
    (linked : CnameChain names cnames name chain ttl) : chain.head? = some name := by
  cases linked <;> rfl

/-! ## Names as labels -/

/-- The labels are those of the name, up to the case of letters. -/
def exactly (name : String) (wire : List Label) : Bool :=
  labels name == wire.map (List.map Char.toLower)

/-- There is a label, and none holds a dot. -/
def Plain (wire : List Label) : Prop :=
  wire ≠ [] ∧ ∀ label ∈ wire, '.' ∉ label

theorem not_mem_of_mem_splitOn {separator : Char} {characters part : List Char}
    (listed : part ∈ characters.splitOn separator) : separator ∉ part := by
  induction characters generalizing part with
  | nil => simp_all
  | cons first characters ih =>
    obtain ⟨head, tail, parts⟩ := exists_cons_of_ne_nil (splitOn_ne_nil separator characters)
    rw [splitOn_cons_eq_if_modifyHead] at listed
    split at listed
    next =>
      rcases mem_cons.mp listed with rfl | listed
      · exact not_mem_nil
      · exact ih listed
    next other =>
      rw [parts] at listed ih
      rcases mem_cons.mp listed with rfl | listed
      · rw [mem_cons, not_or]
        exact ⟨fun same => other (by simp [same]), ih mem_cons_self⟩
      · exact ih (mem_cons_of_mem _ listed)

theorem dot_mem_toLower {label : Label} : '.' ∈ label.map Char.toLower ↔ '.' ∈ label := by
  rw [mem_map]
  constructor
  · rintro ⟨character, member, lower⟩
    by_cases upper : character.isUpper = true
    · have letter := Char.isAlpha_toLower_eq_isAlpha character
      rw [lower, Char.isAlpha.eq_1 character, upper] at letter
      cases letter
    · rw [Char.toLower_eq_of_not_isUpper upper] at lower
      exact lower ▸ member
  · intro member
    exact ⟨'.', member, rfl⟩

theorem map_intersperse {α β : Type} (convert : α → β) (separator : α) (items : List α) :
    (items.intersperse separator).map convert =
      (items.map convert).intersperse (convert separator) := by
  apply ext_getElem?
  intro index
  simp only [getElem?_map, getElem?_intersperse, length_map]
  split_ifs <;> rfl

theorem toList_nameText (wire : List Label) :
    (nameText wire).toList = ['.'].intercalate (wire.map (List.map Char.toLower)) := by
  simp [nameText, toAsciiLowercase, List.intercalate, map_intersperse]

theorem exactly_iff {wire : List Label} :
    exactly name wire = true ↔ spelled name wire = true ∧ Plain wire := by
  simp only [exactly, spelled, beq_iff_eq]
  constructor
  · intro same
    refine ⟨?_, ?_, fun label member => ?_⟩
    · rw [← String.toList_inj, toList_nameText, ← same, labels, intercalate_splitOn]
    · rintro rfl
      exact splitOn_ne_nil _ _ same
    · rw [← dot_mem_toLower]
      apply not_mem_of_mem_splitOn
      rw [← labels, same]
      exact mem_map_of_mem member
  · rintro ⟨rfl, present, undotted⟩
    rw [labels, toList_nameText]
    refine splitOn_intercalate '.' (fun label member => ?_) (by simpa using present)
    obtain ⟨own, listed, rfl⟩ := mem_map.mp member
    rw [dot_mem_toLower]
    exact undotted own listed

/-- The CNAMEs of some names have no dot in a label. -/
def PlainAlong (cnames : List CnameRecord) (chain : List String) : Prop :=
  ∀ cname ∈ cnames, nameText cname.owner ∈ chain → Plain cname.owner ∧ Plain cname.target

theorem CnameChain.exactly (linked : CnameChain spelled cnames name chain ttl)
    (plain : PlainAlong cnames chain) : CnameChain exactly cnames name chain ttl := by
  induction linked with
  | last ends =>
    refine .last fun cname member => Bool.eq_false_iff.mpr fun owned => ?_
    exact absurd (exactly_iff.mp owned).1 (by simp [ends cname member])
  | step member owned aimed rest ih =>
    obtain ⟨plainOwner, plainTarget⟩ := plain _ member
      (by rw [← beq_iff_eq.mp owned]; exact mem_cons_self)
    exact .step member (exactly_iff.mpr ⟨owned, plainOwner⟩)
      (exactly_iff.mpr ⟨aimed, plainTarget⟩) (ih fun cname listed later =>
        plain cname listed (mem_cons_of_mem _ later))

variable (distinct : ((cnames.map CnameRecord.text).map Prod.fst).Nodup)
include distinct

theorem eq_of_nameText_owner {left right : CnameRecord} (leftMember : left ∈ cnames)
    (rightMember : right ∈ cnames) (same : nameText left.owner = nameText right.owner) :
    left = right := by
  rw [map_map] at distinct
  exact inj_on_of_nodup_map distinct leftMember rightMember same

theorem CnameChain.unique {otherChain : List String} {otherTtl : UInt32}
    (left : CnameChain spelled cnames name chain ttl)
    (right : CnameChain spelled cnames name otherChain otherTtl) : chain = otherChain := by
  induction left generalizing otherChain otherTtl with
  | last ends =>
    cases right with
    | last => rfl
    | step member owned => exact absurd (ends _ member) (by simp [owned])
  | step member owned aimed rest ih =>
    cases right with
    | last ends => exact absurd (ends _ member) (by simp [owned])
    | step again otherOwned otherAimed otherRest =>
      simp only [spelled, beq_iff_eq] at owned aimed otherOwned otherAimed
      obtain rfl := eq_of_nameText_owner distinct again member (otherOwned.symm.trans owned)
      obtain rfl := aimed.trans otherAimed.symm
      rw [ih otherRest]

theorem CnameChain.plainAlong {exactTtl : UInt32}
    (linked : CnameChain spelled cnames name chain ttl)
    (exact : CnameChain Egress.exactly cnames name chain exactTtl) : PlainAlong cnames chain := by
  intro cname member onChain
  induction linked generalizing exactTtl with
  | last ends =>
    obtain rfl := mem_singleton.mp onChain
    exact absurd (ends cname member) (by simp [spelled])
  | step listed owned aimed rest ih =>
    cases exact with
    | last => exact absurd rest.head?_eq (by simp)
    | step again exactOwned exactAimed exactRest =>
      obtain ⟨ownedText, plainOwner⟩ := exactly_iff.mp exactOwned
      obtain ⟨aimedText, plainTarget⟩ := exactly_iff.mp exactAimed
      simp only [spelled, beq_iff_eq] at owned aimed ownedText aimedText
      obtain rfl := eq_of_nameText_owner distinct again listed (ownedText.symm.trans owned)
      obtain rfl := aimed.trans aimedText.symm
      rcases mem_cons.mp onChain with here | later
      · obtain rfl := eq_of_nameText_owner distinct again member (ownedText.symm.trans here.symm)
        exact ⟨plainOwner, plainTarget⟩
      · exact ih exactRest later

omit distinct

/-! ## Accepted responses -/

/-- The question of a message, where its fields start, and the records of its answer. -/
def layout (message : List UInt8) : Option (List Label × Nat × List DnsRecord) := do
  let (question, fields) ← labelsAt message 12
  return (question, fields, ← recordsAt message (number message 6 2) (fields + 4))

/-- The result is what a response to the query says, where the argument tells which labels
a name stands for. -/
structure Attributed (message : List UInt8) (queryName : String) (queryType id : UInt16)
    (names : String → List Label → Bool) (parsed : ParsedDns) (question : List Label)
    (fields : Nat) (records : List DnsRecord) : Prop where
  laidOut : layout message = some (question, fields, records)
  id : number message 0 2 = id.toNat
  response : UInt16.ofNat (number message 2 2) &&& 0x8000 ≠ 0
  questions : number message 4 2 = 1
  asked : names queryName question = true
  sameType : number message fields 2 = queryType.toNat
  sameClass : number message (fields + 2) 2 = 1
  loopFree : parsed.canonicalChain.Nodup
  answered : ∃ ttl last, CnameChain names (records.filterMap (DnsRecord.cname? message)) queryName
      parsed.canonicalChain ttl ∧ parsed.canonicalChain.getLast? = some last ∧
    parsed.answers = ((records.filterMap (DnsRecord.address? message queryType)).filter
      fun record => names last record.1).map fun record => record.2.capped ttl

variable {queryName : String} {id : UInt16} {parsed : ParsedDns}

theorem attributed_of_parseResponse
    (computed : parseResponse message queryName queryType id = .ok parsed) :
    ∃ question fields records,
      (((records.filterMap (DnsRecord.cname? message)).map CnameRecord.text).map Prod.fst).Nodup ∧
      Attributed message queryName queryType id spelled parsed question fields records := by
  simp only [parseResponse, eq_ok_iffs, Prod.exists, numberAt_eq_ok, and_assoc] at computed
  obtain ⟨-, _, -, rfl, sameId, _, -, rfl, flags, _, -, rfl, questions, _, -, rfl, -, name,
    fields, named, -, _, -, rfl, _, -, rfl, matched, read, loop, chain, canonical, ttl, followed,
    complete, rfl⟩ := computed
  simp only [eq_false_iffs, and_assoc, Option.isSome_eq_false_iff, Option.isNone_iff_eq_none]
    at sameId flags questions matched complete
  obtain ⟨rfl, sameType, sameClass⟩ := matched
  obtain ⟨question, questionAt, rfl⟩ := labelsAt_of_readName named
  obtain ⟨records, placed, ⟨cnames, addresses, distinct⟩⟩ := collected_of_readRecords loop
  rw [nil_append] at cnames addresses
  rw [cnames] at followed complete distinct
  obtain ⟨_, _, linked, rfl, final, rfl, loopFree⟩ := chain_of_followCnames [] followed complete
  refine ⟨question, fields, records, distinct nodup_nil, {
    laidOut := by simp [layout, questionAt, placed]
    id := sameId
    response := flags.1
    questions := questions
    asked := beq_self_eq_true _
    sameType := sameType
    sameClass := sameClass
    loopFree := loopFree (nodup_singleton _)
    answered := ⟨_, canonical, linked, final, ?_⟩ }⟩
  rw [addresses, filter_map, map_map, min_eq_right (le_longest _)]
  refine congrArg _ (filter_congr fun record _ => ?_)
  exact Bool.beq_comm

theorem imp_of_map_filter_eq {α β : Type} {items : List α} {narrow wide : α → Bool}
    {left right : α → β} (wider : ∀ item, narrow item = true → wide item = true)
    (same : (items.filter narrow).map left = (items.filter wide).map right) :
    ∀ item ∈ items, wide item = true → narrow item = true := by
  have lengths := congrArg List.length same
  rw [length_map, length_map] at lengths
  have equal := (monotone_filter_right items wider).eq_of_length lengths
  intro item member kept
  have inside : item ∈ items.filter narrow := equal ▸ mem_filter.mpr ⟨member, kept⟩
  exact (mem_filter.mp inside).2

/-- No name on the way from the query has a dot in a label: the question, the CNAMEs of the
names that it leads to, and the address records of the last of them. -/
def PlainWay (message : List UInt8) (queryName : String) (queryType : UInt16) : Prop :=
  ∀ question fields records, layout message = some (question, fields, records) →
    Plain question ∧ ∀ chain ttl,
      CnameChain spelled (records.filterMap (DnsRecord.cname? message)) queryName chain ttl →
        PlainAlong (records.filterMap (DnsRecord.cname? message)) chain ∧
        ∀ record ∈ records.filterMap (DnsRecord.address? message queryType),
          chain.getLast? = some (nameText record.1) → Plain record.1

theorem attributed_exactly_iff
    (computed : parseResponse message queryName queryType id = .ok parsed) :
    (∃ question fields records,
        Attributed message queryName queryType id exactly parsed question fields records) ↔
      PlainWay message queryName queryType := by
  obtain ⟨question, fields, records, distinct, attributed⟩ := attributed_of_parseResponse computed
  obtain ⟨ttl, last, linked, final, answers⟩ := attributed.answered
  constructor
  · rintro ⟨_, _, _, exact⟩ _ _ _ laidOut
    obtain ⟨rfl, rfl, rfl⟩ : _ ∧ _ ∧ _ := by simpa using exact.laidOut.symm.trans laidOut
    obtain ⟨rfl, rfl, rfl⟩ : _ ∧ _ ∧ _ := by simpa using attributed.laidOut.symm.trans laidOut
    obtain ⟨_, _, exactLinked, exactFinal, exactAnswers⟩ := exact.answered
    obtain rfl := Option.some.inj (final.symm.trans exactFinal)
    refine ⟨(exactly_iff.mp exact.asked).2, fun chain ttl again => ?_⟩
    obtain rfl := linked.unique distinct again
    refine ⟨linked.plainAlong distinct exactLinked, fun record member owned => ?_⟩
    have kept := imp_of_map_filter_eq (fun _ holds => (exactly_iff.mp holds).1)
      (exactAnswers.symm.trans answers) record member
      (beq_iff_eq.mpr (Option.some.inj (final.symm.trans owned)))
    exact (exactly_iff.mp kept).2
  · intro plain
    obtain ⟨plainQuestion, way⟩ := plain _ _ _ attributed.laidOut
    obtain ⟨along, addressed⟩ := way _ _ linked
    refine ⟨question, fields, records, { attributed with
      asked := exactly_iff.mpr ⟨attributed.asked, plainQuestion⟩
      answered := ⟨ttl, last, linked.exactly along, final, ?_⟩ }⟩
    rw [answers]
    refine congrArg _ (filter_congr fun record member => ?_)
    rw [Bool.eq_iff_iff, exactly_iff]
    refine ⟨fun owned => ⟨owned, addressed record member ?_⟩, And.left⟩
    rw [final, beq_iff_eq.mp owned]

/-! ## No index outside the message -/

/-- The computation does not index outside the message. -/
def Guarded {α : Type} (result : DnsResult α) : Prop :=
  result ≠ .error .outOfRange

section Guarded

variable {α β : Type} {first : DnsResult α} {rest : α → DnsResult β}

theorem Guarded.ok (value : α) : Guarded (.ok value : DnsResult α) :=
  fun failed => by cases failed

theorem Guarded.bind (guarded : Guarded first)
    (following : ∀ value, Guarded (rest value)) : Guarded (first >>= rest) := by
  intro failed
  rcases bind_eq_error.mp failed with failed | ⟨value, -, failed⟩
  · exact guarded failed
  · exact following value failed

theorem Guarded.check {condition : Bool} {reason : String} {rest : PUnit → DnsResult β}
    (following : condition = false → Guarded (rest ⟨⟩)) :
    Guarded (failIf condition (.refused reason) >>= rest) := by
  cases condition with
  | true => exact fun failed => by cases failed
  | false => exact following rfl

theorem Guarded.number {width : Nat} {rest : Nat → DnsResult β}
    (inside : offset + width ≤ message.length) (following : ∀ value, Guarded (rest value)) :
    Guarded (numberAt message offset width >>= rest) := by
  rw [numberAt_eq_ok.mpr ⟨inside, rfl⟩]
  exact following _

end Guarded

theorem guarded_readName (message : List UInt8) (offset : Nat) :
    Guarded (readName message offset) := by
  refine .bind ?_ fun _ => .check fun _ => .ok _
  fun_induction readLabels message offset none 0 [] with
  | case4 _ _ _ _ _ _ _ _ _ _ ih => exact ih
  | case9 _ _ _ _ _ _ _ _ _ _ _ _ ih => exact ih
  | _ => exact fun failed => by cases failed

theorem guarded_readRecord (read : DnsRecords) : Guarded (readRecord message queryType read) := by
  refine .bind (guarded_readName _ _) fun (owner, fields) => .check fun inside => ?_
  have inside : fields + 10 ≤ message.length := by simpa using inside
  refine .number (by omega) fun kind => .number (by omega) fun «class» => ?_
  refine .number (by omega) fun ttl => .number (by omega) fun rdlen => .check fun within => ?_
  have within : fields + 10 + rdlen ≤ message.length := by simpa using within
  split_ifs with cname ipv4 ipv6
  · exact .bind (guarded_readName _ _) fun _ => .check fun _ => .ok _
  · exact .number (by omega) fun _ => .ok _
  · exact .number (by omega) fun _ => .ok _
  · exact .ok _

theorem guarded_parseResponse (message : List UInt8) (queryName : String)
    (queryType id : UInt16) : Guarded (parseResponse message queryName queryType id) := by
  have records (count : Nat) (read : DnsRecords) :
      Guarded (readRecords message queryType count read) := by
    induction count generalizing read with
    | zero => exact .ok _
    | succ count ih => exact .bind (guarded_readRecord _) ih
  have followed (cnames : List (String × String × UInt32)) (steps : Nat) (chain : List String)
      (name : String) (ttl : UInt32) : Guarded (followCnames cnames steps chain name ttl) := by
    induction steps generalizing chain name ttl with
    | zero => exact .ok _
    | succ steps ih =>
      rw [followCnames]
      split
      · exact .ok _
      · exact .check fun _ => ih _ _ _
  refine .check fun long => ?_
  have long : 12 ≤ message.length := by simpa using long
  refine .number (by omega) fun _ => .check fun _ => .number (by omega) fun _ => .check fun _ => ?_
  refine .number (by omega) fun _ => .check fun _ => .number (by omega) fun _ => .check fun _ => ?_
  refine .bind (guarded_readName _ _) fun (_, fields) => .check fun inside => ?_
  have inside : fields + 4 ≤ message.length := by simpa using inside
  refine .number (by omega) fun _ => .number (by omega) fun _ => .check fun _ => ?_
  exact .bind (records _ _) fun _ => .bind (followed _ _ _ _ _) fun _ => .check fun _ => .ok _

/-! ## The parser -/

/-- The parser stays within the message, and what it returns is what a response says about
the labels of the query. -/
def ParsedSoundly (message : List UInt8) (queryName : String) (queryType id : UInt16) : Prop :=
  match parseResponse message queryName queryType id with
  | .ok parsed => ∃ question fields records,
      Attributed message queryName queryType id exactly parsed question fields records
  | .error fault => fault ≠ .outOfRange

theorem intercalate_inj {separator : Char} {left right : List Label}
    (lengths : left.map List.length = right.map List.length)
    (same : [separator].intercalate left = [separator].intercalate right) : left = right := by
  induction left generalizing right with
  | nil => exact (map_eq_nil_iff.mp lengths.symm).symm
  | cons first left ih =>
    cases right with
    | nil => cases lengths
    | cons second right =>
      obtain ⟨firstLength, restLengths⟩ := List.cons.inj lengths
      by_cases empty : left = []
      · subst empty
        obtain rfl := map_eq_nil_iff.mp restLengths.symm
        simpa using same
      · have present : right ≠ [] := by
          rintro rfl
          exact empty (map_eq_nil_iff.mp restLengths)
        rw [intercalate_cons_of_ne_nil empty, intercalate_cons_of_ne_nil present,
          append_assoc, append_assoc] at same
        obtain ⟨rfl, sameRest⟩ := append_inj same firstLength
        rw [ih restLengths (append_cancel_left sameRest)]

/-- An accepted response is attributed to the labels of the query exactly when no name on
the way has a dot in a label. The labels of a name are those that the message encodes, and
two names of one text have the same labels exactly when they are cut at the same places. -/
theorem parse_response_sound_iff (message : List UInt8) (queryName : String)
    (queryType id : UInt16) : (ParsedSoundly message queryName queryType id ↔
      ∀ parsed, parseResponse message queryName queryType id = .ok parsed →
        PlainWay message queryName queryType) ∧
    (∀ offset wire stop, labelsAt message offset = some (wire, stop) →
      NameAt message offset wire stop) ∧
    ∀ other offset otherOffset name stop otherStop wire otherWire,
      readName message offset = .ok (name, stop) →
      readName other otherOffset = .ok (name, otherStop) →
      labelsAt message offset = some (wire, stop) →
      labelsAt other otherOffset = some (otherWire, otherStop) →
        (wire.map (List.map Char.toLower) = otherWire.map (List.map Char.toLower) ↔
          wire.map List.length = otherWire.map List.length) := by
  refine ⟨?_, fun _ _ _ => nameAt_of_labelsAt, ?_⟩
  · have guarded := guarded_parseResponse message queryName queryType id
    rw [ParsedSoundly]
    cases computed : parseResponse message queryName queryType id with
    | error fault =>
      refine iff_of_true ?_ fun _ accepted => by cases accepted
      rintro rfl
      exact guarded computed
    | ok parsed =>
      simp only [Except.ok.injEq, forall_eq']
      exact attributed_exactly_iff computed
  · intro other offset otherOffset name stop otherStop wire otherWire read otherRead found
      otherFound
    obtain ⟨_, again, rfl⟩ := labelsAt_of_readName read
    obtain ⟨_, otherAgain, same⟩ := labelsAt_of_readName otherRead
    obtain rfl := (Prod.mk.inj (Option.some.inj (again.symm.trans found))).1
    obtain rfl := (Prod.mk.inj (Option.some.inj (otherAgain.symm.trans otherFound))).1
    rw [← String.toList_inj, toList_nameText, toList_nameText] at same
    constructor
    · intro equal
      simpa [Function.comp_def] using congrArg (List.map List.length) equal
    · intro lengths
      exact intercalate_inj (by simpa [Function.comp_def] using lengths) same

/-- A response to the query for the labels `a` and `b`, with the address of the one label
`a.b`. -/
def dottedResponse : List UInt8 :=
  [0, 1, 0x80, 0, 0, 1, 0, 1, 0, 0, 0, 0, 1, 97, 1, 98, 0, 0, 1, 0, 1,
    3, 97, 46, 98, 0, 0, 1, 0, 1, 0, 0, 0, 60, 0, 4, 10, 0, 0, 7]

theorem dotted_label_answers_query : ¬ParsedSoundly dottedResponse "a.b" 1 1 := by
  have accepted : parseResponse dottedResponse "a.b" 1 1 =
      .ok ⟨["a.b"], [⟨.v4 0x0a000007, 60⟩]⟩ := by decide +kernel
  rw [ParsedSoundly, accepted]
  intro attributed
  obtain ⟨-, way⟩ := (attributed_exactly_iff accepted).mp attributed [['a'], ['b']] 17
    [⟨[['a', '.', 'b']], 1, 1, 60, 36, 4⟩] (by decide +kernel)
  have addressed := (way ["a.b"] 0xffffffff (.last (by decide +kernel))).2
    ([['a', '.', 'b']], ⟨.v4 0x0a000007, 60⟩) (by decide +kernel) (by decide +kernel)
  exact addressed.2 ['a', '.', 'b'] mem_cons_self (by decide)

end Unf.Egress
