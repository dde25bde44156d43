import Unf.Lib.Bytes
import Unf.Lib.Except
import Unf.State

/-!
# The policy map value across the kernel boundary

The agent validates a decision and lays it out as 32 bytes; the traffic-control
program reads the same bytes as a `PolicyMapValue` and decodes them.  Both run
on one machine, so both use its byte order.
-/

namespace Unf.Policy

open Unf.Lib Option PolicyDecisionRecord

def policyMapAbiVersion : UInt16 := 3

def policyFlagHasPolicy : UInt16 := 0x01

def policyFlagHasRule : UInt16 := 0x02

def policyFlagHasShadow : UInt16 := 0x04

def policyFlagShadowHasPolicy : UInt16 := 0x08

def policyFlagShadowHasRule : UInt16 := 0x10

/-! ## Agent side -/

def validatePolicyDecision (decision : PolicyDecisionRecord) : Except String Unit := do
  failIf (decision.verdict != .allow && decision.verdict != .deny)
    "policy map decision must be allow or deny"
  failIf (decision.policyId.any fun id => id.get == 0)
    "policy entry contains reserved policy ID zero"
  match decision.reason with
  | .noApplicablePolicy =>
    failIf (decision.policyId.isSome || decision.ruleId.isSome)
      "no-applicable-policy decision cannot contain policy provenance"
  | .explicitRule =>
    failIf (decision.policyId.isNone || decision.ruleId.isNone)
      "explicit policy decision requires policy and rule provenance"
  | .defaultAction =>
    failIf (decision.policyId.isNone || decision.ruleId.isSome)
      "default policy decision requires a policy and no rule"

/-- The 32 bytes of a map value in the machine's byte order. -/
def encodePolicyDecisions (endian : Endian) (decision : PolicyDecisionRecord)
    (shadow : Option PolicyDecisionRecord) (revision : UInt64) : List UInt8 := Id.run do
  let mut encoded : List UInt8 := List.replicate 32 0
  let mut flags : UInt16 := 0
  if let some policyId := decision.policyId then
    flags := flags ||| policyFlagHasPolicy
    encoded := copyFromSlice encoded 0 (endian.toBytes 4 policyId.get.toNat)
  if let some ruleId := decision.ruleId then
    flags := flags ||| policyFlagHasRule
    encoded := copyFromSlice encoded 4 (endian.toBytes 4 ruleId.get.toNat)
  if let some shadow := shadow then
    flags := flags ||| policyFlagHasShadow
    if let some policyId := shadow.policyId then
      flags := flags ||| policyFlagShadowHasPolicy
      encoded := copyFromSlice encoded 8 (endian.toBytes 4 policyId.get.toNat)
    if let some ruleId := shadow.ruleId then
      flags := flags ||| policyFlagShadowHasRule
      encoded := copyFromSlice encoded 12 (endian.toBytes 4 ruleId.get.toNat)
    encoded := copyFromSlice encoded 30 [shadow.verdict.code]
    encoded := copyFromSlice encoded 31 [shadow.reason.code]
  encoded := copyFromSlice encoded 16 (endian.toBytes 8 revision.toNat)
  encoded := copyFromSlice encoded 24 (endian.toBytes 2 policyMapAbiVersion.toNat)
  encoded := copyFromSlice encoded 26 (endian.toBytes 2 flags.toNat)
  encoded := copyFromSlice encoded 28 [decision.verdict.code]
  encoded := copyFromSlice encoded 29 [decision.reason.code]
  return encoded

/-! ## Kernel side -/

structure PolicyMapValue where
  policyId : PolicyId
  ruleId : RuleId
  shadowPolicyId : PolicyId
  shadowRuleId : RuleId
  revision : UInt64
  schemaVersion : UInt16
  flags : UInt16
  verdict : UInt8
  reason : UInt8
  shadowVerdict : UInt8
  shadowReason : UInt8
  deriving DecidableEq, Repr

/-- The C layout of a map value. -/
def PolicyMapValue.ofBytes (endian : Endian) (bytes : List UInt8) : PolicyMapValue where
  policyId := ⟨UInt32.ofNat (endian.ofBytes (slice bytes 0 4))⟩
  ruleId := ⟨UInt32.ofNat (endian.ofBytes (slice bytes 4 4))⟩
  shadowPolicyId := ⟨UInt32.ofNat (endian.ofBytes (slice bytes 8 4))⟩
  shadowRuleId := ⟨UInt32.ofNat (endian.ofBytes (slice bytes 12 4))⟩
  revision := UInt64.ofNat (endian.ofBytes (slice bytes 16 8))
  schemaVersion := UInt16.ofNat (endian.ofBytes (slice bytes 24 2))
  flags := UInt16.ofNat (endian.ofBytes (slice bytes 26 2))
  verdict := (slice bytes 28 1).headD 0
  reason := (slice bytes 29 1).headD 0
  shadowVerdict := (slice bytes 30 1).headD 0
  shadowReason := (slice bytes 31 1).headD 0

/-- Why the dataplane took a decision, as reported in flow events. -/
inductive ReasonCode where
  | observed
  | allowExplicit
  | denyExplicit
  | denyDefault
  | identityUnknown
  | allowDefault
  | allowEstablished
  deriving DecidableEq, Repr

def ReasonCode.code : ReasonCode → UInt8
  | observed => 0
  | allowExplicit => 1
  | denyExplicit => 2
  | denyDefault => 3
  | identityUnknown => 4
  | allowDefault => 5
  | allowEstablished => 6

structure DataplaneDecision where
  policyRevision : UInt64
  policyId : PolicyId
  ruleId : RuleId
  shadowPolicyId : PolicyId
  shadowRuleId : RuleId
  verdict : Verdict
  reason : UInt8
  shadowVerdict : UInt8
  shadowReason : UInt8
  direction : PolicyDirection
  deriving DecidableEq, Repr

/-- The decision for traffic that no loaded policy decides. -/
def DataplaneDecision.observed (direction : PolicyDirection) (reason : ReasonCode) :
    DataplaneDecision where
  policyRevision := 0
  policyId := ⟨0⟩
  ruleId := ⟨0⟩
  shadowPolicyId := ⟨0⟩
  shadowRuleId := ⟨0⟩
  verdict := .allow
  reason := reason.code
  shadowVerdict := Verdict.unknown.code
  shadowReason := ReasonCode.observed.code
  direction := direction

def decodeVerdict (value : UInt8) : Option Verdict :=
  if value == 1 then some .allow
  else if value == 2 then some .deny
  else none

def decodeReason (value : UInt8) (verdict : Verdict) : Option UInt8 :=
  if verdict == .allow && value == PolicyReason.noApplicablePolicy.code then
    some ReasonCode.observed.code
  else if verdict == .allow && value == PolicyReason.explicitRule.code then
    some ReasonCode.allowExplicit.code
  else if verdict == .deny && value == PolicyReason.explicitRule.code then
    some ReasonCode.denyExplicit.code
  else if verdict == .allow && value == PolicyReason.defaultAction.code then
    some ReasonCode.allowDefault.code
  else if verdict == .deny && value == PolicyReason.defaultAction.code then
    some ReasonCode.denyDefault.code
  else
    none

def validProvenance (flags : UInt16) (reason : UInt8) (shadow : Bool) : Bool :=
  let (hasPolicy, hasRule) :=
    if shadow then
      (flags &&& policyFlagShadowHasPolicy != 0, flags &&& policyFlagShadowHasRule != 0)
    else
      (flags &&& policyFlagHasPolicy != 0, flags &&& policyFlagHasRule != 0)
  if reason == PolicyReason.noApplicablePolicy.code then
    !hasPolicy && !hasRule
  else if reason == PolicyReason.explicitRule.code then
    hasPolicy && hasRule
  else if reason == PolicyReason.defaultAction.code then
    hasPolicy && !hasRule
  else
    false

/-- The verdict and reason code of one half of a value, when it is well
formed. -/
def decodeHalf (verdict reason : UInt8) (flags : UInt16) (shadow : Bool) :
    Option (Verdict × UInt8) := do
  let decodedVerdict ← decodeVerdict verdict
  let decodedReason ← decodeReason reason decodedVerdict
  if !validProvenance flags reason shadow then
    none
  else
    return (decodedVerdict, decodedReason)

def decodePolicyValue (value : PolicyMapValue) (revision : UInt64)
    (direction : PolicyDirection) : DataplaneDecision :=
  match decodeHalf value.verdict value.reason value.flags false with
  | none => .observed direction .observed
  | some (verdict, reason) =>
    let hasShadow := value.flags &&& policyFlagHasShadow != 0
    let decodedShadow :=
      if hasShadow then
        (decodeHalf value.shadowVerdict value.shadowReason value.flags true).map
          fun (shadowVerdict, shadowReason) => (shadowVerdict.code, shadowReason)
      else
        some (Verdict.unknown.code, ReasonCode.observed.code)
    match decodedShadow with
    | none => .observed direction .observed
    | some (shadowVerdict, shadowReason) =>
      { policyRevision := revision
        policyId :=
          if value.flags &&& policyFlagHasPolicy != 0 then value.policyId else ⟨0⟩
        ruleId :=
          if value.flags &&& policyFlagHasRule != 0 then value.ruleId else ⟨0⟩
        shadowPolicyId :=
          if value.flags &&& policyFlagShadowHasPolicy != 0 then
            value.shadowPolicyId
          else
            ⟨0⟩
        shadowRuleId :=
          if value.flags &&& policyFlagShadowHasRule != 0 then
            value.shadowRuleId
          else
            ⟨0⟩
        verdict, reason, shadowVerdict, shadowReason, direction }

/-! ## The decoded layout -/

/-- The flags that record which optional fields are present. -/
def presenceFlags (decision : PolicyDecisionRecord)
    (shadow : Option PolicyDecisionRecord) : UInt16 :=
  (if decision.policyId.isSome then policyFlagHasPolicy else 0) |||
    (if decision.ruleId.isSome then policyFlagHasRule else 0) |||
    (if shadow.isSome then policyFlagHasShadow else 0) |||
    (if (shadow.bind PolicyDecisionRecord.policyId).isSome then
      policyFlagShadowHasPolicy else 0) |||
    (if (shadow.bind PolicyDecisionRecord.ruleId).isSome then policyFlagShadowHasRule else 0)

/-- The value that the kernel reads from the bytes of a decision. -/
def PolicyMapValue.ofDecisions (decision : PolicyDecisionRecord)
    (shadow : Option PolicyDecisionRecord) (revision : UInt64) : PolicyMapValue where
  policyId := decision.policyId.getD ⟨0⟩
  ruleId := decision.ruleId.getD ⟨0⟩
  shadowPolicyId := (shadow.bind PolicyDecisionRecord.policyId).getD ⟨0⟩
  shadowRuleId := (shadow.bind PolicyDecisionRecord.ruleId).getD ⟨0⟩
  revision := revision
  schemaVersion := policyMapAbiVersion
  flags := presenceFlags decision shadow
  verdict := decision.verdict.code
  reason := decision.reason.code
  shadowVerdict := (shadow.map fun record => record.verdict.code).getD 0
  shadowReason := (shadow.map fun record => record.reason.code).getD 0

/-- The fields of a map value that the encoder writes. -/
def policyValueFields : List Field :=
  [⟨0, 4⟩, ⟨4, 4⟩, ⟨8, 4⟩, ⟨12, 4⟩, ⟨16, 8⟩, ⟨24, 2⟩, ⟨26, 2⟩, ⟨28, 1⟩, ⟨29, 1⟩, ⟨30, 1⟩, ⟨31, 1⟩]

section Layout

variable (endian : Endian)

/-- The writes of `encodePolicyDecisions`, in order. -/
def policyValueWrites (decision : PolicyDecisionRecord)
    (shadow : Option PolicyDecisionRecord) (revision : UInt64) : List Write :=
  (decision.policyId.toList.map fun id => ⟨0, endian.toBytes 4 id.get.toNat⟩) ++
  (decision.ruleId.toList.map fun id => ⟨4, endian.toBytes 4 id.get.toNat⟩) ++
  (shadow.toList.flatMap fun record =>
    (record.policyId.toList.map fun id => ⟨8, endian.toBytes 4 id.get.toNat⟩) ++
    (record.ruleId.toList.map fun id => ⟨12, endian.toBytes 4 id.get.toNat⟩) ++
    [⟨30, [record.verdict.code]⟩, ⟨31, [record.reason.code]⟩]) ++
  [⟨16, endian.toBytes 8 revision.toNat⟩, ⟨24, endian.toBytes 2 policyMapAbiVersion.toNat⟩,
    ⟨26, endian.toBytes 2 (presenceFlags decision shadow).toNat⟩,
    ⟨28, [decision.verdict.code]⟩, ⟨29, [decision.reason.code]⟩]

variable (decision : PolicyDecisionRecord) (shadow : Option PolicyDecisionRecord)
  (revision : UInt64)

theorem encodePolicyDecisions_eq : encodePolicyDecisions endian decision shadow revision =
      applyWrites (policyValueWrites endian decision shadow revision) (List.replicate 32 0) := by
  obtain ⟨verdict, reason, policyId, ruleId⟩ := decision
  rcases policyId with _ | policyId <;> rcases ruleId with _ | ruleId <;>
    rcases shadow with _ | ⟨_, _, _ | _, _ | _⟩ <;>
    simp [encodePolicyDecisions, applyWrites, policyValueWrites, presenceFlags]

theorem policyValueWrites_fields : ∀ write ∈ policyValueWrites endian decision shadow revision,
      write.field ∈ policyValueFields := by
  simp only [policyValueWrites, List.mem_append, List.mem_map, List.mem_flatMap, List.mem_cons,
    List.not_mem_nil, or_false]
  rintro write (((⟨id, -, rfl⟩ | ⟨id, -, rfl⟩) |
      ⟨record, -, (⟨id, -, rfl⟩ | ⟨id, -, rfl⟩) | rfl | rfl⟩) | rfl | rfl | rfl | rfl | rfl) <;>
    simp [Write.field, policyValueFields]

/-- Each field of the encoded value holds the last bytes written to it. -/
theorem slice_encodePolicyDecisions (field : Field) (member : field ∈ policyValueFields) :
    slice (encodePolicyDecisions endian decision shadow revision) field.offset field.width =
      lastWritten (policyValueWrites endian decision shadow revision) field
        (List.replicate field.width 0) := by
  have inTable := policyValueWrites_fields endian decision shadow revision
  have bounds : ∀ other ∈ policyValueFields, other.offset + other.width ≤ 32 := by
    decide
  have disjoint : ∀ left ∈ policyValueFields, ∀ right ∈ policyValueFields,
      left = right ∨ left.Disjoint right := by
    decide
  have zeros : slice (List.replicate 32 0) field.offset field.width =
      List.replicate field.width 0 := by
    have := bounds field member
    simp only [slice, List.drop_replicate, List.take_replicate]
    congr 1
    omega
  rw [encodePolicyDecisions_eq, slice_applyWrites, zeros]
  · intro write writeMember
    exact bounds write.field (inTable write writeMember)
  · intro write writeMember
    exact disjoint write.field (inTable write writeMember) field member

theorem ofNat_ofBytes_uint16 (value : UInt16) :
    UInt16.ofNat (endian.ofBytes (endian.toBytes 2 value.toNat)) = value := by
  rw [endian.ofBytes_toBytes value.toNat_lt, UInt16.ofNat_toNat]

theorem ofNat_ofBytes_uint32 (value : UInt32) :
    UInt32.ofNat (endian.ofBytes (endian.toBytes 4 value.toNat)) = value := by
  rw [endian.ofBytes_toBytes value.toNat_lt, UInt32.ofNat_toNat]

theorem ofNat_ofBytes_uint64 (value : UInt64) :
    UInt64.ofNat (endian.ofBytes (endian.toBytes 8 value.toNat)) = value := by
  rw [endian.ofBytes_toBytes value.toNat_lt, UInt64.ofNat_toNat]

/-- The kernel reads back every field that the agent encoded, and zero for the
fields that the agent left out. -/
theorem ofBytes_encodePolicyDecisions : PolicyMapValue.ofBytes endian
        (encodePolicyDecisions endian decision shadow revision) =
      .ofDecisions decision shadow revision := by
  have read := slice_encodePolicyDecisions endian decision shadow revision
  have zero : UInt32.ofNat (endian.ofBytes [0, 0, 0, 0]) = 0 := by
    cases endian <;> rfl
  rw [PolicyMapValue.ofBytes, PolicyMapValue.ofDecisions, PolicyMapValue.mk.injEq,
    read ⟨0, 4⟩ (by decide), read ⟨4, 4⟩ (by decide), read ⟨8, 4⟩ (by decide),
    read ⟨12, 4⟩ (by decide), read ⟨16, 8⟩ (by decide), read ⟨24, 2⟩ (by decide),
    read ⟨26, 2⟩ (by decide), read ⟨28, 1⟩ (by decide), read ⟨29, 1⟩ (by decide),
    read ⟨30, 1⟩ (by decide), read ⟨31, 1⟩ (by decide)]
  obtain ⟨verdict, reason, policyId, ruleId⟩ := decision
  rcases policyId with _ | policyId <;> rcases ruleId with _ | ruleId <;>
    rcases shadow with _ | ⟨_, _, _ | _, _ | _⟩ <;>
    simp [lastWritten, policyValueWrites, Write.field, zero, ofNat_ofBytes_uint16,
      ofNat_ofBytes_uint32, ofNat_ofBytes_uint64]

end Layout

/-! ## What survives the boundary -/

/-- The reason code that corresponds to a recorded reason and verdict. -/
def correspondingReason : PolicyReason → Verdict → Option ReasonCode
  | .noApplicablePolicy, .allow => some .observed
  | .explicitRule, .allow => some .allowExplicit
  | .explicitRule, .deny => some .denyExplicit
  | .defaultAction, .allow => some .allowDefault
  | .defaultAction, .deny => some .denyDefault
  | _, _ => none

/-- The policy and rule to which a reason code attributes a decision. -/
def attributedProvenance (reason : UInt8) (policyId : PolicyId) (ruleId : RuleId) :
    Option PolicyId × Option RuleId :=
  if reason == ReasonCode.allowExplicit.code || reason == ReasonCode.denyExplicit.code then
    (some policyId, some ruleId)
  else if reason == ReasonCode.allowDefault.code ||
      reason == ReasonCode.denyDefault.code then
    (some policyId, none)
  else
    (none, none)

/-- The decoded decision carries everything that the agent recorded. -/
structure Survives (decision : PolicyDecisionRecord)
    (shadow : Option PolicyDecisionRecord) (revision : UInt64)
    (decoded : DataplaneDecision) : Prop where
  revision : decoded.policyRevision = revision
  verdict : decoded.verdict = decision.verdict
  reason : (correspondingReason decision.reason decision.verdict).map ReasonCode.code =
    some decoded.reason
  provenance : attributedProvenance decoded.reason decoded.policyId decoded.ruleId =
    (decision.policyId, decision.ruleId)
  shadowVerdict : decoded.shadowVerdict =
    (shadow.map fun record => record.verdict.code).getD Verdict.unknown.code
  shadowProvenance :
    attributedProvenance decoded.shadowReason decoded.shadowPolicyId
        decoded.shadowRuleId =
      (shadow.bind PolicyDecisionRecord.policyId, shadow.bind PolicyDecisionRecord.ruleId)

/-- A denial that names no policy; validation accepts it and decoding does not. -/
def DeniesWithoutPolicy (record : PolicyDecisionRecord) : Prop :=
  record.verdict = .deny ∧ record.reason = .noApplicablePolicy

instance (record : PolicyDecisionRecord) : Decidable (DeniesWithoutPolicy record) :=
  inferInstanceAs (Decidable (_ ∧ _))

/-- Which optional ids an accepted record carries. -/
def ProvenanceMatchesReason (record : PolicyDecisionRecord) : Prop :=
  match record.reason with
  | .noApplicablePolicy => record.policyId = none ∧ record.ruleId = none
  | .explicitRule => record.policyId.isSome ∧ record.ruleId.isSome
  | .defaultAction => record.policyId.isSome ∧ record.ruleId = none

/-- Every flag of an encoded value tells whether its field is present. -/
theorem presenceFlags_spec (decision : PolicyDecisionRecord)
    (shadow : Option PolicyDecisionRecord) :
    (presenceFlags decision shadow &&& policyFlagHasPolicy != 0) = decision.policyId.isSome ∧
      (presenceFlags decision shadow &&& policyFlagHasRule != 0) = decision.ruleId.isSome ∧
      (presenceFlags decision shadow &&& policyFlagHasShadow != 0) = shadow.isSome ∧
      (presenceFlags decision shadow &&& policyFlagShadowHasPolicy != 0) =
        (shadow.bind policyId).isSome ∧
      (presenceFlags decision shadow &&& policyFlagShadowHasRule != 0) =
        (shadow.bind ruleId).isSome := by
  unfold presenceFlags
  generalize decision.policyId.isSome = policy
  generalize decision.ruleId.isSome = rule
  generalize shadow.isSome = present
  generalize (shadow.bind policyId).isSome = shadowPolicy
  generalize (shadow.bind ruleId).isSome = shadowRule
  revert policy rule present shadowPolicy shadowRule
  decide

variable {decision : PolicyDecisionRecord} {shadow : Option PolicyDecisionRecord}

section Record

variable {record : PolicyDecisionRecord} (accepted : validatePolicyDecision record = .ok ())

include accepted

theorem validatePolicyDecision_ok : (record.verdict = .allow ∨ record.verdict = .deny) ∧
      ProvenanceMatchesReason record := by
  simp only [validatePolicyDecision, failIf_bind_eq_ok] at accepted
  obtain ⟨verdict, -, shape⟩ := accepted
  constructor
  · cases decided : record.verdict <;> simp [decided] at verdict ⊢
  · unfold ProvenanceMatchesReason
    cases reason : record.reason <;> simpa [reason, isSome_iff_ne_none] using shape

/-- Decoding one half of a value recovers the verdict and the reason code of an
accepted record, and fails exactly when no reason code corresponds. -/
theorem decodeHalf_of_accepted {flags : UInt16} {shadow : Bool}
    (policyFlag : (if shadow then flags &&& policyFlagShadowHasPolicy != 0
      else flags &&& policyFlagHasPolicy != 0) = record.policyId.isSome)
    (ruleFlag : (if shadow then flags &&& policyFlagShadowHasRule != 0
      else flags &&& policyFlagHasRule != 0) = record.ruleId.isSome) :
    decodeHalf record.verdict.code record.reason.code flags shadow =
      (correspondingReason record.reason record.verdict).map fun reason =>
        (record.verdict, reason.code) := by
  obtain ⟨verdict, provenance⟩ := validatePolicyDecision_ok accepted
  have valid : validProvenance flags record.reason.code shadow = true := by
    have flagsEqual : (if shadow then
          (flags &&& policyFlagShadowHasPolicy != 0, flags &&& policyFlagShadowHasRule != 0) else
          (flags &&& policyFlagHasPolicy != 0, flags &&& policyFlagHasRule != 0)) =
        (record.policyId.isSome, record.ruleId.isSome) := by
      rw [← policyFlag, ← ruleFlag]
      cases shadow <;> rfl
    rw [validProvenance, flagsEqual]
    unfold ProvenanceMatchesReason at provenance
    cases reason : record.reason <;> rw [reason] at provenance <;>
      simp [PolicyReason.code, provenance]
  simp only [decodeHalf, valid]
  rcases verdict with verdict | verdict <;> cases record.reason <;> rw [verdict] <;> rfl

theorem correspondingReason_eq_none_iff : correspondingReason record.reason record.verdict = none ↔
      DeniesWithoutPolicy record := by
  obtain ⟨verdict | verdict, -⟩ := validatePolicyDecision_ok accepted <;>
    cases reason : record.reason <;>
    simp [DeniesWithoutPolicy, correspondingReason, verdict, reason]

/-- The reason code of an accepted record recovers its optional ids. -/
theorem attributedProvenance_of_accepted {reason : ReasonCode}
    (corresponds : correspondingReason record.reason record.verdict = some reason) :
    attributedProvenance reason.code (record.policyId.getD ⟨0⟩) (record.ruleId.getD ⟨0⟩) =
      (record.policyId, record.ruleId) := by
  obtain ⟨verdict, provenance⟩ := validatePolicyDecision_ok accepted
  unfold ProvenanceMatchesReason at provenance
  cases recorded : record.reason with
  | noApplicablePolicy =>
    rw [recorded] at provenance corresponds
    obtain ⟨policy, rule⟩ := provenance
    rw [policy, rule]
    rcases verdict with verdict | verdict <;> rw [verdict] at corresponds <;>
      cases corresponds
    rfl
  | explicitRule =>
    rw [recorded] at provenance corresponds
    obtain ⟨policyId, policy⟩ := isSome_iff_exists.mp provenance.1
    obtain ⟨ruleId, rule⟩ := isSome_iff_exists.mp provenance.2
    rw [policy, rule]
    rcases verdict with verdict | verdict <;> rw [verdict] at corresponds <;>
      cases corresponds <;> rfl
  | defaultAction =>
    rw [recorded] at provenance corresponds
    obtain ⟨policyId, policy⟩ := isSome_iff_exists.mp provenance.1
    rw [policy, provenance.2]
    rcases verdict with verdict | verdict <;> rw [verdict] at corresponds <;>
      cases corresponds <;> rfl

theorem decodeHalf_shadow :
    decodeHalf record.verdict.code record.reason.code (presenceFlags decision (some record)) true =
      (correspondingReason record.reason record.verdict).map fun reason =>
        (record.verdict, reason.code) := by
  obtain ⟨-, -, -, policyFlag, ruleFlag⟩ := presenceFlags_spec decision (some record)
  exact decodeHalf_of_accepted accepted (by simpa using policyFlag) (by simpa using ruleFlag)

end Record

section Decode

variable (revision : UInt64) (direction : PolicyDirection)
  (accepted : validatePolicyDecision decision = .ok ())
include accepted

theorem decodeHalf_decision :
    decodeHalf decision.verdict.code decision.reason.code (presenceFlags decision shadow) false =
      (correspondingReason decision.reason decision.verdict).map fun reason =>
        (decision.verdict, reason.code) := by
  obtain ⟨policyFlag, ruleFlag, -⟩ := presenceFlags_spec decision shadow
  exact decodeHalf_of_accepted accepted (by simpa using policyFlag) (by simpa using ruleFlag)

variable (shadowAccepted : ∀ record ∈ shadow, validatePolicyDecision record = .ok ())
include shadowAccepted

/-- A denial without a policy, in either half, is decoded as unpoliced
traffic. -/
theorem decodePolicyValue_eq_observed
    (rejected : DeniesWithoutPolicy decision ∨ ∃ record ∈ shadow, DeniesWithoutPolicy record) :
    decodePolicyValue (.ofDecisions decision shadow revision) revision direction =
      .observed direction .observed := by
  simp only [decodePolicyValue, PolicyMapValue.ofDecisions, decodeHalf_decision accepted]
  rcases rejected with decisionDenies | ⟨record, member, shadowDenies⟩
  · rw [(correspondingReason_eq_none_iff accepted).mpr decisionDenies]
    rfl
  · obtain rfl : shadow = some record := member
    have recordAccepted := shadowAccepted record rfl
    cases correspondingReason decision.reason decision.verdict with
    | none => rfl
    | some reason =>
      simp only [map_some, (presenceFlags_spec _ _).2.2.1, isSome_some,
        if_true, getD_some, decodeHalf_shadow recordAccepted,
        (correspondingReason_eq_none_iff recordAccepted).mpr shadowDenies, map_none]

/-- Every other accepted pair is decoded completely. -/
theorem decodePolicyValue_survives (encodable : ¬DeniesWithoutPolicy decision)
    (shadowEncodable : ∀ record ∈ shadow, ¬DeniesWithoutPolicy record) :
    Survives decision shadow revision
      (decodePolicyValue (.ofDecisions decision shadow revision) revision direction) := by
  obtain ⟨reason, corresponds⟩ := ne_none_iff_exists'.mp
    (mt (correspondingReason_eq_none_iff accepted).mp encodable)
  have provenance := attributedProvenance_of_accepted accepted corresponds
  obtain ⟨policyFlag, ruleFlag, shadowFlag, shadowPolicyFlag, shadowRuleFlag⟩ :=
    presenceFlags_spec decision shadow
  have present : ∀ {α : Type} (value : Option α) (default : α),
      (if value.isSome = true then value.getD default else default) = value.getD default := by
    intro α value default
    cases value <;> rfl
  cases shadow with
  | none =>
    simp only [decodePolicyValue, PolicyMapValue.ofDecisions, decodeHalf_decision accepted,
      corresponds, policyFlag, ruleFlag, shadowFlag, present]
    exact ⟨rfl, rfl, by rw [corresponds]; rfl, provenance, rfl, rfl⟩
  | some record =>
    have recordAccepted := shadowAccepted record rfl
    obtain ⟨shadowReason, shadowCorresponds⟩ := ne_none_iff_exists'.mp
      (mt (correspondingReason_eq_none_iff recordAccepted).mp (shadowEncodable record rfl))
    have shadowProvenance := attributedProvenance_of_accepted recordAccepted shadowCorresponds
    simp only [decodePolicyValue, PolicyMapValue.ofDecisions, decodeHalf_decision accepted,
      decodeHalf_shadow recordAccepted, corresponds, shadowCorresponds, map_some, getD_some,
      isSome_some, bind_some, if_true, policyFlag, ruleFlag, shadowFlag, shadowPolicyFlag,
      shadowRuleFlag, present]
    exact ⟨rfl, rfl, by rw [corresponds]; rfl, provenance, rfl, shadowProvenance⟩

end Decode

/-- Exactly the accepted pairs without a policy-free denial survive encoding and
decoding. -/
theorem decodePolicyValue_encodePolicyDecisions_iff (endian : Endian)
    (decision : PolicyDecisionRecord) (shadow : Option PolicyDecisionRecord)
    (revision : UInt64) (direction : PolicyDirection)
    (accepted : validatePolicyDecision decision = .ok ())
    (shadowAccepted : ∀ record ∈ shadow, validatePolicyDecision record = .ok ())
    (nonzero : revision ≠ 0) : Survives decision shadow revision
        (decodePolicyValue (.ofBytes endian (encodePolicyDecisions endian decision shadow revision))
          revision direction) ↔ ¬DeniesWithoutPolicy decision ∧
        ∀ record ∈ shadow, ¬DeniesWithoutPolicy record := by
  rw [ofBytes_encodePolicyDecisions]
  constructor
  · intro survives
    by_contra rejected
    have observed := decodePolicyValue_eq_observed revision direction accepted
      shadowAccepted (by
        by_contra none
        push Not at none
        exact rejected none)
    apply nonzero
    rw [← survives.revision, observed]
    rfl
  · rintro ⟨encodable, shadowEncodable⟩
    exact decodePolicyValue_survives revision direction accepted shadowAccepted
      encodable shadowEncodable

/-- A denial by the default action of policy 7. -/
def defaultDenial : PolicyDecisionRecord := ⟨.deny, .defaultAction, some ⟨7⟩, none⟩

theorem decodePolicyValue_encode_defaultDenial : Survives defaultDenial (some defaultDenial) 5
        (decodePolicyValue (.ofBytes .little (encodePolicyDecisions .little defaultDenial
            (some defaultDenial) 5)) 5 .ingress) ↔ ¬DeniesWithoutPolicy defaultDenial ∧
        ∀ record ∈ some defaultDenial, ¬DeniesWithoutPolicy record :=
  decodePolicyValue_encodePolicyDecisions_iff .little defaultDenial
    (some defaultDenial) 5 .ingress rfl
    (by rintro record ⟨⟩; rfl) (by decide)

/-- An accepted denial that is decoded as the observed allow. -/
theorem decodePolicyValue_encode_policyFreeDenial :
    validatePolicyDecision ⟨.deny, .noApplicablePolicy, none, none⟩ = .ok () ∧ decodePolicyValue
          (.ofBytes .little (encodePolicyDecisions .little
            ⟨.deny, .noApplicablePolicy, none, none⟩ none 1)) 1 .ingress =
        .observed .ingress .observed ∧ ¬Survives ⟨.deny, .noApplicablePolicy, none, none⟩ none 1
        (decodePolicyValue (.ofBytes .little (encodePolicyDecisions .little
            ⟨.deny, .noApplicablePolicy, none, none⟩ none 1)) 1 .ingress) := by
  have observed : decodePolicyValue
      (.ofBytes .little (encodePolicyDecisions .little
        ⟨.deny, .noApplicablePolicy, none, none⟩ none 1)) 1 .ingress =
      .observed .ingress .observed := by
    rw [ofBytes_encodePolicyDecisions]
    exact decodePolicyValue_eq_observed 1 .ingress rfl (by simp) (Or.inl ⟨rfl, rfl⟩)
  refine ⟨rfl, observed, ?_⟩
  intro survives
  have verdict := survives.verdict
  rw [observed] at verdict
  cases verdict

end Unf.Policy
