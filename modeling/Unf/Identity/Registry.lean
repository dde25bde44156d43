import Unf.Address
import Unf.Lib.OrderedMap
import Unf.Lib.Text
import Unf.Policy.Ir

/-!
# Identity registry

The registry knows the identities by their numbers and the admitted Pods by their addresses.
A workload has a canonical key, and the number of its identity is a hash of this key. So two
workloads may have the same number, but the registry admits only one of them.
-/

namespace Unf.Identity

open Std (ExtTreeMap ExtTreeSet)
open Unf.Lib Unf.Policy List Std.ExtTreeMap

/-! ## Canonical keys -/

/-- What the identity of a workload consists of. -/
@[ext] structure IdentitySource where
  cluster : String
  «namespace» : String
  serviceAccount : String
  workload : String
  labels : ExtTreeMap String String
  namedPorts : ExtTreeMap NamedPort UInt16

/-- The texts of a label. -/
def labelComponents (entry : String × String) : List String :=
  [entry.1, entry.2]

/-- The texts of a named port. -/
def namedPortComponents (entry : NamedPort × UInt16) : List String :=
  [entry.1.name, toString entry.1.protocol.number, toString entry.2]

/-- The parts of the key. The entries of a map come after their number. -/
def canonicalComponents (source : IdentitySource) : List String :=
  [source.cluster, source.«namespace», source.serviceAccount, source.workload,
    toString source.labels.size] ++
  source.labels.toList.flatMap labelComponents ++
  toString source.namedPorts.size :: source.namedPorts.toList.flatMap namedPortComponents

/-- The parts of the key, each after its length. -/
def canonicalIdentityKey (source : IdentitySource) : String :=
  framedKey "v2" (canonicalComponents source)

/-- As many entries, each of them written with as many texts, are read back. -/
theorem flatMap_append_inj {α β : Type*} {write : α → List β} (width : Nat)
    (injective : Function.Injective write) (sameWidth : ∀ entry, (write entry).length = width)
    {left right : List α} {leftRest rightRest : List β} (sameCount : left.length = right.length)
    (equal : left.flatMap write ++ leftRest = right.flatMap write ++ rightRest) :
    left = right ∧ leftRest = rightRest := by
  induction left generalizing right with
  | nil =>
    obtain rfl := eq_nil_of_length_eq_zero sameCount.symm
    exact ⟨rfl, equal⟩
  | cons first left ih =>
    cases right with
    | nil => cases sameCount
    | cons second right =>
      simp only [flatMap_cons, append_assoc] at equal
      obtain ⟨same, rest⟩ := append_inj equal ((sameWidth first).trans (sameWidth second).symm)
      obtain ⟨rfl, ended⟩ := ih (Nat.succ.inj sameCount) rest
      exact ⟨by rw [injective same], ended⟩

theorem labelComponents_injective : Function.Injective labelComponents := by
  rintro ⟨label, value⟩ ⟨label', value'⟩ same
  simpa [labelComponents] using same

theorem namedPortComponents_injective : Function.Injective namedPortComponents := by
  rintro ⟨⟨name, protocol⟩, number⟩ ⟨⟨name', protocol'⟩, number'⟩ same
  simp only [namedPortComponents, List.cons.injEq, and_true] at same
  obtain ⟨rfl, sameProtocol, sameNumber⟩ := same
  obtain rfl := Protocol.number_injective (UInt8.toNat_inj.mp (Nat.repr_inj.mp sameProtocol))
  obtain rfl := UInt16.toNat_inj.mp (Nat.repr_inj.mp sameNumber)
  rfl

theorem canonicalIdentityKey_injective : Function.Injective canonicalIdentityKey := by
  intro left right same
  have components := framedKey_inj same
  simp only [canonicalComponents, cons_append, List.cons.injEq] at components
  obtain ⟨cluster, «namespace», serviceAccount, workload, labelCount, rest⟩ := components
  rw [← length_toList, ← length_toList] at labelCount
  obtain ⟨labels, rest⟩ := flatMap_append_inj 2 labelComponents_injective (fun _ => rfl)
    (Nat.repr_inj.mp labelCount) rest
  obtain ⟨portCount, ports⟩ := List.cons.inj rest
  rw [← length_toList, ← length_toList] at portCount
  obtain ⟨namedPorts, -⟩ := flatMap_append_inj 3 namedPortComponents_injective (fun _ => rfl)
    (Nat.repr_inj.mp portCount) (congrArg (· ++ []) ports)
  ext1
  · exact cluster
  · exact «namespace»
  · exact serviceAccount
  · exact workload
  · exact toList_map_injective labels
  · exact toList_map_injective namedPorts

/-! ## Admission -/

/-- The registry as far as an admission reads it: the canonical key of each identity, and the Pod
with its identity at each address. -/
structure IdentityRegistry where
  identities : ExtTreeMap IdentityId String
  addresses : ExtTreeMap IpAddr (String × IdentityId)
  deriving DecidableEq

/-- Why a Pod is refused. -/
inductive IdentityAdmissionError where
  | reservedIdentity
  | identityCollision (identityId : IdentityId) (existingKey requestedKey : String)
  | addressConflict (address : IpAddr) (existingPod requestedPod : String)
  deriving DecidableEq, Repr

/-- What a Pod is admitted with. -/
structure Admission where
  podKey : String
  canonicalKey : String
  identityId : IdentityId
  addresses : List IpAddr

/-- The checks of `admit_pod`, which come before any change. -/
def IdentityRegistry.checkAdmission (registry : IdentityRegistry) (admission : Admission) :
    Except IdentityAdmissionError Unit := do
  failIf (admission.identityId.get == 0) .reservedIdentity
  (registry.identities[admission.identityId]?.toList.forM fun existingKey =>
    failIf (existingKey != admission.canonicalKey)
      (.identityCollision admission.identityId existingKey admission.canonicalKey))
  (ExtTreeSet.ofList admission.addresses).toList.forM fun address =>
    registry.addresses[address]?.toList.forM fun (existingPod, _) =>
      failIf (existingPod != admission.podKey)
        (.addressConflict address existingPod admission.podKey)

/-- Keys are equal for equal workloads only. So a workload that has the number of another one is
found out and refused. -/
theorem canonicalIdentityKey_exact : Function.Injective canonicalIdentityKey ∧
    ∀ (registry : IdentityRegistry) (admission : Admission) (source other : IdentitySource),
      registry.identities[admission.identityId]? = some (canonicalIdentityKey source) →
      admission.canonicalKey = canonicalIdentityKey other → source ≠ other →
      registry.checkAdmission admission = .error (if admission.identityId.get = 0
        then .reservedIdentity
        else .identityCollision admission.identityId (canonicalIdentityKey source)
          admission.canonicalKey) := by
  refine ⟨canonicalIdentityKey_injective, ?_⟩
  intro registry admission source other found otherKey different
  have collides : (canonicalIdentityKey source != admission.canonicalKey) = true := by
    rw [otherKey, bne_iff_ne]
    exact canonicalIdentityKey_injective.ne different
  rw [IdentityRegistry.checkAdmission, found]
  split
  next reserved =>
    rw [reserved]
    rfl
  next admissible =>
    rw [beq_eq_false_iff_ne.mpr admissible, Option.toList_some, List.forM, collides]
    rfl

end Unf.Identity
