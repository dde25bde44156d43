import Unf.Encryption.KeyAuthority

/-!
# What the operations of a key authority keep

Every operation that succeeds returns an authority that passes validation and takes nothing back
from the one before it: no epoch changes its key or goes back to an earlier phase, an epoch that
is gone is marked as retired or revoked, and all counters only grow. Such a successor is what
the admission of publications asks for.
-/

namespace Unf.Encryption

open Std (ExtTreeMap ExtTreeSet)
open Unf.Lib List LocalKeyEpoch UInt32 Std.ExtTreeSet
open Unf.Service (Revision)

variable {primitives : KeyPrimitives}

/-! ## Valid authorities -/

/-- What validation establishes about one epoch. -/
structure EpochValid (primitives : KeyPrimitives) (authority : NodeKeyAuthority)
    (epoch : LocalKeyEpoch) : Prop where
  issued : epoch.epoch < authority.nextEpoch
  notRetired : authority.retiredThroughEpoch < epoch.epoch
  notRevoked : authority.revokedThroughEpoch < epoch.epoch
  derived : primitives.derivePublicKey epoch.privateKey = epoch.publicKey
  lifetime : validateLifetime epoch.validFromUnixMs epoch.validUntilUnixMs = .ok ()
  barrier : epoch.barrier.verify primitives = .ok ()
  acknowledgements : ∀ peer acknowledgement,
    epoch.acknowledgements[peer]? = some acknowledgement →
      authority.acknowledgementIsInvalid epoch peer acknowledgement = false
  readiness : NodeKeyAuthority.validateReadiness primitives epoch = .ok ()
  draining : (epoch.phase == .draining) = epoch.drainDeadlineUnixMs.isSome

/-- What validation establishes. -/
structure AuthorityValid (primitives : KeyPrimitives) (authority : NodeKeyAuthority) : Prop where
  identity : validateIdentity authority.clusterId authority.nodeName authority.nodeUid = .ok ()
  nextEpoch : authority.nextEpoch ≠ 0
  length : authority.epochs.length ≤ 2
  retired : authority.retiredThroughEpoch < authority.nextEpoch
  revoked : authority.revokedThroughEpoch < authority.nextEpoch
  epochs : ∀ epoch ∈ authority.epochs, EpochValid primitives authority epoch
  ascending : authority.epochs.Pairwise fun left right => left.epoch < right.epoch
  keys : authority.epochs.Pairwise fun left right => left.publicKey ≠ right.publicKey
  phases : ∀ phase, authority.phaseCount phase ≤ 1
  unfinished : authority.phaseCount .prepared + authority.phaseCount .mutuallyAttested ≤ 1
  drained : 0 < authority.phaseCount .draining → authority.phaseCount .active = 1

variable {authority : NodeKeyAuthority} {scan after : NodeKeyAuthority.EpochScan}
  {epoch : LocalKeyEpoch} {changed next : NodeKeyAuthority}

variable {epochs : List LocalKeyEpoch} {length position : Nat}

/-- What is published of an epoch. -/
def LocalKeyEpoch.published (epoch : LocalKeyEpoch) : KeyEpochPublication where
  epoch := epoch.epoch
  publicKey := epoch.publicKey
  phase := epoch.phase
  validFromUnixMs := epoch.validFromUnixMs
  validUntilUnixMs := epoch.validUntilUnixMs
  topologyRevision := epoch.barrier.topologyRevision
  barrierDigest := epoch.barrier.barrierDigest
  requiredPeerCount := UInt32.ofNat epoch.barrier.requiredPeerUids.size
  acknowledgedPeerCount := UInt32.ofNat epoch.acknowledgements.size
  readinessDigest := epoch.readiness.map EpochReadinessCertificate.readinessDigest
  drainDeadlineUnixMs := epoch.drainDeadlineUnixMs

/-- What is published of an authority. -/
def NodeKeyAuthority.published (primitives : KeyPrimitives) (authority : NodeKeyAuthority) :
    NodeKeyPublication :=
  let unsealed : NodeKeyPublication :=
    { schemaVersion := nodeKeyPublicationSchemaVersion
      clusterId := authority.clusterId
      nodeName := authority.nodeName
      nodeUid := authority.nodeUid
      keyRevision := authority.keyRevision
      nextEpoch := authority.nextEpoch
      retiredThroughEpoch := authority.retiredThroughEpoch
      revokedThroughEpoch := authority.revokedThroughEpoch
      epochs := authority.epochs.map LocalKeyEpoch.published
      publicationDigest := 0 }
  { unsealed with publicationDigest := unsealed.calculateDigest primitives.toKeyDigests }

theorem lengthToU32_of_le (bounded : length ≤ maxRotationPeers) :
    NodeKeyAuthority.lengthToU32 length = .ok (ofNat length) := by
  have fits : length < 2 ^ 32 := by
    unfold maxRotationPeers at bounded
    omega
  rw [NodeKeyAuthority.lengthToU32, if_pos fits]

theorem toNat_ofNat_of_le (bounded : length ≤ maxRotationPeers) :
    (ofNat length).toNat = length := by
  exact toNat_ofNat_of_lt' (lt_of_le_of_lt bounded (by decide))

section Counts

variable {authority : NodeKeyAuthority} {epoch : LocalKeyEpoch}
  (valid : EpochValid primitives authority epoch)

include valid

theorem EpochValid.required_le : epoch.barrier.requiredPeerUids.size ≤ maxRotationPeers := by
  have verified := valid.barrier
  simp only [CausalEpochBarrier.verify, validatePeerFrontier, bind_eq_ok, failIf_eq_ok,
    eq_false_iffs] at verified
  obtain ⟨-, -, -, ⟨bounded, -⟩, -⟩ := verified
  exact bounded

/-- Only required peers are acknowledged. -/
theorem EpochValid.mem_required {peer : String} {acknowledgement : PeerEpochAcknowledgement}
    (kept : epoch.acknowledgements[peer]? = some acknowledgement) :
    peer ∈ epoch.barrier.requiredPeerUids := by
  have accepted := valid.acknowledgements peer acknowledgement kept
  simp only [NodeKeyAuthority.acknowledgementIsInvalid, eq_false_iffs] at accepted
  exact contains_iff_mem.mp accepted.1.1.1.1.1.1.1

theorem EpochValid.acknowledged_le :
    epoch.acknowledgements.size ≤ epoch.barrier.requiredPeerUids.size := by
  have distinct : epoch.acknowledgements.keys.Nodup :=
    ExtTreeMap.distinct_keys.imp fun different same => different (compare_eq_iff_eq.mpr same)
  rw [← ExtTreeMap.length_keys, ← length_toList]
  apply (subperm_of_subset distinct _).length_le
  intro peer member
  rw [ExtTreeMap.mem_keys, ← ExtTreeMap.isSome_getElem?_iff_mem, Option.isSome_iff_exists] at member
  obtain ⟨acknowledgement, kept⟩ := member
  exact mem_toList.mpr (valid.mem_required kept)

theorem EpochValid.publishEpoch : NodeKeyAuthority.publishEpoch epoch = .ok epoch.published := by
  rw [NodeKeyAuthority.publishEpoch, lengthToU32_of_le valid.required_le,
    lengthToU32_of_le (valid.acknowledged_le.trans valid.required_le)]
  rfl

theorem EpochValid.lifetime_lt : epoch.validFromUnixMs < epoch.validUntilUnixMs ∧
      epoch.validUntilUnixMs.toNat - epoch.validFromUnixMs.toNat ≤ maxKeyLifetimeMs := by
  have checked := valid.lifetime
  simp only [validateLifetime, failIf_eq_ok, eq_false_iffs, not_le] at checked
  exact ⟨checked.1.2, checked.2⟩

/-- An epoch is prepared while acknowledgements are missing, and has a certificate from then
on. -/
theorem EpochValid.readiness_cases :
    (epoch.phase = .prepared ∧ epoch.acknowledgements.size ≠ epoch.barrier.requiredPeerUids.size ∧
      epoch.readiness = none) ∨
    (epoch.phase ≠ .prepared ∧ epoch.acknowledgements.size = epoch.barrier.requiredPeerUids.size ∧
      epoch.acknowledgements.keys = epoch.barrier.requiredPeerUids.toList ∧
      epoch.readiness.isSome = true) := by
  have checked := valid.readiness
  rw [NodeKeyAuthority.validateReadiness] at checked
  cases phase : epoch.phase with
  | prepared =>
    simp only [phase, failIf_eq_ok, eq_false_iffs, Option.isSome_eq_false_iff,
      Option.isNone_iff_eq_none] at checked
    exact .inl ⟨rfl, checked⟩
  | _ =>
    simp only [phase, bind_eq_ok, failIf_eq_ok, eq_false_iffs, beq_iff_eq,
      issueReadinessCertificate] at checked
    obtain ⟨-, complete, certificate, ⟨-, keys, -⟩, ready⟩ := checked
    exact .inr ⟨by simp, complete, keys, by rw [ready, Option.isSome_some]⟩

theorem EpochValid.published_valid :
    (authority.published primitives).epochIsInvalid epoch.published = false := by
  have required := toNat_ofNat_of_le valid.required_le
  have acknowledged := toNat_ofNat_of_le (valid.acknowledged_le.trans valid.required_le)
  have positive : epoch.epoch ≠ 0 := fun zero =>
    absurd (zero ▸ valid.notRetired) (not_lt.mpr (UInt64.zero_le))
  have key : epoch.publicKey ≠ 0 := valid.derived ▸ primitives.derivePublicKey_ne_zero _
  have counted : ofNat epoch.acknowledgements.size ≤
      ofNat epoch.barrier.requiredPeerUids.size := by
    rw [le_iff_toNat_le, required, acknowledged]
    exact valid.acknowledged_le
  have equal : ofNat epoch.barrier.requiredPeerUids.size =
      ofNat epoch.acknowledgements.size ↔
      epoch.acknowledgements.size = epoch.barrier.requiredPeerUids.size := by
    rw [← UInt32.toNat_inj, required, acknowledged, eq_comm]
  simp only [NodeKeyPublication.epochIsInvalid, eq_false_iffs, not_le]
  refine ⟨⟨⟨⟨⟨⟨⟨⟨⟨⟨⟨positive, valid.issued⟩, valid.notRetired⟩, valid.notRevoked⟩, key⟩,
    valid.lifetime_lt.1⟩, valid.lifetime_lt.2⟩, required.trans_le valid.required_le⟩, counted⟩,
    ?_⟩, ?_⟩, valid.draining⟩
  · obtain ⟨-, incomplete, unready⟩ | ⟨past, -⟩ := valid.readiness_cases
    · simp [published, equal, incomplete, unready]
    · simp [published, past]
  · obtain ⟨prepared, -⟩ | ⟨-, complete, -, ready⟩ := valid.readiness_cases
    · simp [published, prepared]
    · simp [published, equal.mpr complete, ready]

end Counts

theorem phaseCount_published (authority : NodeKeyAuthority) (phase : KeyEpochPhase) :
    (authority.published primitives).phaseCount phase = authority.phaseCount phase :=
  countP_map

/-- What a valid authority publishes is well formed. -/
theorem AuthorityValid.published_verify (valid : AuthorityValid primitives authority) :
    (authority.published primitives).verify primitives.toKeyDigests = .ok () := by
  have identity := valid.identity
  rw [validateIdentity, failIf_eq_ok, Bool.not_eq_false'] at identity
  simp only [NodeKeyPublication.verify, failIf_bind_eq_ok, failIf_eq_ok, eq_false_iffs, not_le,
    Decidable.not_not, any_eq_false, decide_eq_true_eq, phaseCount_published, Bool.and_eq_false_iff]
  refine ⟨identity, ⟨⟨⟨⟨⟨⟨⟨⟨⟨⟨rfl, valid.nextEpoch⟩, ?_⟩, ?_⟩, valid.retired⟩, valid.revoked⟩, ?_⟩,
    ?_⟩, fun phase _ => valid.phases phase⟩, valid.unfinished⟩, ?_⟩, rfl⟩
  · exact (length_map _).trans_le valid.length
  · rw [List.Nodup, pairwise_map]
    exact pairwise_map.mpr valid.keys
  · rw [strictlyAscending_iff, pairwise_map]
    exact pairwise_map.mpr valid.ascending
  · intro epoch member
    obtain ⟨source, sourceMember, rfl⟩ := mem_map.mp member
    rw [(valid.epochs source sourceMember).published_valid]
    exact Bool.false_ne_true
  · rcases Nat.eq_zero_or_pos (authority.phaseCount .draining) with none | some
    · exact .inl (by omega)
    · exact .inr (valid.drained some)

/-! ## Successors -/

/-- An epoch in a later state: the same key, in the same phase or a later one. -/
structure LaterEpoch (earlier later : LocalKeyEpoch) : Prop where
  epoch : later.epoch = earlier.epoch
  publicKey : later.publicKey = earlier.publicKey
  phase : earlier.phase ≤ later.phase

theorem LaterEpoch.refl (epoch : LocalKeyEpoch) : LaterEpoch epoch epoch :=
  ⟨rfl, rfl, le_rfl⟩

theorem LaterEpoch.trans {first second third : LocalKeyEpoch} (left : LaterEpoch first second)
    (right : LaterEpoch second third) : LaterEpoch first third :=
  ⟨right.epoch.trans left.epoch, right.publicKey.trans left.publicKey, left.phase.trans right.phase⟩

/-- An epoch that is over for an authority. -/
def NodeKeyAuthority.Ended (authority : NodeKeyAuthority) (epoch : UInt64) : Prop :=
  epoch ≤ authority.retiredThroughEpoch ∨ epoch ≤ authority.revokedThroughEpoch

/-- The epochs and counters of an authority after a change that takes nothing back. -/
structure Retains (earlier later : NodeKeyAuthority) : Prop where
  clusterId : later.clusterId = earlier.clusterId
  nodeName : later.nodeName = earlier.nodeName
  nodeUid : later.nodeUid = earlier.nodeUid
  nextEpoch : earlier.nextEpoch ≤ later.nextEpoch
  retired : earlier.retiredThroughEpoch ≤ later.retiredThroughEpoch
  revoked : earlier.revokedThroughEpoch ≤ later.revokedThroughEpoch
  epochs : ∀ epoch ∈ earlier.epochs,
    (∃ successor ∈ later.epochs, LaterEpoch epoch successor) ∨ later.Ended epoch.epoch

/-- A later state of the same authority, or the same state. -/
structure Succeeds (earlier later : NodeKeyAuthority) : Prop extends Retains earlier later where
  keyRevision : earlier.keyRevision < later.keyRevision ∨ later = earlier

/-- The result of an operation that has succeeded. -/
structure Advances (primitives : KeyPrimitives) (earlier later : NodeKeyAuthority) : Prop
    extends Succeeds earlier later where
  valid : later.validate primitives = .ok ()

theorem Retains.ended {earlier later : NodeKeyAuthority} (retains : Retains earlier later)
    {epoch : UInt64} (ended : earlier.Ended epoch) : later.Ended epoch :=
  ended.imp retains.retired.trans' retains.revoked.trans'

theorem Succeeds.refl (authority : NodeKeyAuthority) : Succeeds authority authority where
  clusterId := rfl
  nodeName := rfl
  nodeUid := rfl
  nextEpoch := le_rfl
  retired := le_rfl
  revoked := le_rfl
  epochs epoch member := .inl ⟨epoch, member, .refl epoch⟩
  keyRevision := .inr rfl

theorem Succeeds.trans {first second third : NodeKeyAuthority} (left : Succeeds first second)
    (right : Succeeds second third) : Succeeds first third where
  clusterId := right.clusterId.trans left.clusterId
  nodeName := right.nodeName.trans left.nodeName
  nodeUid := right.nodeUid.trans left.nodeUid
  nextEpoch := left.nextEpoch.trans right.nextEpoch
  retired := left.retired.trans right.retired
  revoked := left.revoked.trans right.revoked
  epochs epoch member := by
    obtain ⟨successor, successorMember, later⟩ | ended := left.epochs epoch member
    · obtain ⟨last, lastMember, latest⟩ | ended := right.epochs successor successorMember
      · exact .inl ⟨last, lastMember, later.trans latest⟩
      · exact .inr (later.epoch ▸ ended)
    · exact .inr (right.ended ended)
  keyRevision := by
    obtain increases | rfl := right.keyRevision
    · obtain increasesBefore | rfl := left.keyRevision
      · exact .inl (increasesBefore.trans increases)
      · exact .inl increases
    · exact left.keyRevision

theorem finish_eq_ok (finished : changed.finish primitives = .ok next) :
    next = { changed with keyRevision := changed.keyRevision.next } ∧
      changed.keyRevision < changed.keyRevision.next ∧ next.validate primitives = .ok () := by
  simp only [NodeKeyAuthority.finish, NodeKeyAuthority.bumpRevision, eq_ok_iffs, eq_false_iffs]
    at finished
  obtain ⟨bumped, ⟨differs, rfl⟩, valid, rfl⟩ := finished
  exact ⟨rfl, lt_of_le_of_ne (Revision.le_next _) (Ne.symm differs), valid⟩

/-- The result of an operation, from the change that it has made. -/
theorem advances_of_finish (finished : changed.finish primitives = .ok next)
    (retains : Retains authority changed) (same : changed.keyRevision = authority.keyRevision) :
    Advances primitives authority next := by
  obtain ⟨rfl, increases, valid⟩ := finish_eq_ok finished
  refine ⟨⟨⟨retains.clusterId, retains.nodeName, retains.nodeUid, retains.nextEpoch,
    retains.retired, retains.revoked, retains.epochs⟩, .inl ?_⟩, valid⟩
  rw [← same]
  exact increases

/-- A change of the epochs alone that keeps each of them. -/
theorem advances_of_epochs (finished : { authority with epochs }.finish primitives = .ok next)
    (kept : ∀ epoch ∈ authority.epochs, ∃ successor ∈ epochs, LaterEpoch epoch successor) :
    Advances primitives authority next :=
  advances_of_finish finished ⟨rfl, rfl, rfl, le_rfl, le_rfl, le_rfl,
    fun epoch member => .inl (kept epoch member)⟩ rfl

theorem epochAt_eq_ok {number : UInt64} (found : authority.positionOf number = .ok position)
    (selected : authority.epochAt number position = .ok epoch) :
    authority.epochs[position]? = some epoch ∧ epoch.epoch = number := by
  rw [NodeKeyAuthority.epochAt, elim_error_eq_ok] at selected
  rw [NodeKeyAuthority.positionOf, elim_error_eq_ok, findIdx?_eq_some_iff_getElem] at found
  obtain ⟨bound, matched, -⟩ := found
  refine ⟨selected, ?_⟩
  rw [getElem?_eq_getElem bound, Option.some.injEq] at selected
  rw [← selected]
  exact beq_iff_eq.mp matched

/-- One epoch is replaced by a later state of it. -/
theorem advances_of_set {replacement : LocalKeyEpoch}
    (finished : { authority with epochs := authority.epochs.set position replacement }.finish
      primitives = .ok next) (selected : authority.epochs[position]? = some epoch)
    (later : LaterEpoch epoch replacement) : Advances primitives authority next := by
  refine advances_of_epochs finished fun earlier member => ?_
  obtain ⟨index, found⟩ := mem_iff_getElem?.mp member
  by_cases same : position = index
  · subst same
    obtain rfl : epoch = earlier := Option.some.inj (selected.symm.trans found)
    refine ⟨replacement, mem_iff_getElem?.mpr ⟨position, ?_⟩, later⟩
    rw [getElem?_set_self' , selected]
    rfl
  · refine ⟨earlier, mem_iff_getElem?.mpr ⟨index, ?_⟩, .refl earlier⟩
    rw [getElem?_set_ne same, found]

/-! ## Operations -/

section Operations

variable {authority next : NodeKeyAuthority}

theorem prepared_le (phase : KeyEpochPhase) : .prepared ≤ phase := by
  cases phase <;> decide

variable {topologyRevision : Revision} {acknowledgement : PeerEpochAcknowledgement} {peer : String}

theorem prepareEpoch_advances {peers : ExtTreeSet String} {validFrom validUntil : UInt64}
    {generated : Except KeyAuthorityError WireGuardPrivateKey}
    (prepared : authority.prepareEpoch primitives topologyRevision peers validFrom validUntil
      generated = .ok next) : Advances primitives authority next := by
  simp only [NodeKeyAuthority.prepareEpoch, eq_ok_iffs] at prepared
  obtain ⟨-, -, -, privateKey, -, -, barrier, -, staged, -, nextEpoch, increased, finished⟩ :=
    prepared
  refine advances_of_finish finished ⟨rfl, rfl, rfl, ?_, le_rfl, le_rfl, fun epoch member =>
    .inl ⟨epoch, ?_, .refl epoch⟩⟩ rfl
  · rw [UInt64.le_iff_toNat_le, checkedAdd_eq_some_iff.mp increased]
    omega
  · rw [mem_sortByKey]
    exact mem_append_left _ member

theorem recordAcknowledgement_later {epoch recorded : LocalKeyEpoch}
    (prepared : epoch.phase = .prepared)
    (done : NodeKeyAuthority.recordAcknowledgement primitives epoch peer acknowledgement =
      .ok recorded) : LaterEpoch epoch recorded := by
  rw [NodeKeyAuthority.recordAcknowledgement] at done
  split at done
  · simp only [eq_ok_iffs] at done
    obtain ⟨certificate, -, rfl⟩ := done
    exact ⟨rfl, rfl, prepared ▸ prepared_le _⟩
  · obtain rfl := Except.ok.inj done
    exact ⟨rfl, rfl, le_rfl⟩

variable {now : UInt64} {number : UInt64}

theorem acknowledgeEpoch_advances
    (acknowledged : authority.acknowledgeEpoch primitives peer acknowledgement now =
      .ok (some next)) : Advances primitives authority next := by
  simp only [NodeKeyAuthority.acknowledgeEpoch, eq_ok_iffs, eq_false_iffs] at acknowledged
  obtain ⟨-, -, position, found, epoch, selected, prepared, -, acknowledged⟩ := acknowledged
  split at acknowledged
  · simp only [eq_ok_iffs, reduceCtorEq, and_false] at acknowledged
  · simp only [eq_ok_iffs, Option.some.injEq] at acknowledged
    obtain ⟨recorded, recordedOk, _, finished, rfl⟩ := acknowledged
    exact advances_of_set finished (epochAt_eq_ok found selected).1
      (recordAcknowledgement_later prepared recordedOk)

theorem acknowledgeAttestationCut_advances {cut : NodeKeyAttestationCut}
    (acknowledged : authority.acknowledgeAttestationCut primitives cut now = .ok (some next)) :
    Advances primitives authority next := by
  simp only [NodeKeyAuthority.acknowledgeAttestationCut, eq_ok_iffs] at acknowledged
  obtain ⟨-, publication, -, -, -, target, -, position, found, epoch, selected, acknowledged⟩ :=
    acknowledged
  split at acknowledged
  · cases acknowledged
  next prepared =>
    simp only [eq_ok_iffs, Option.some.injEq] at acknowledged
    obtain ⟨-, -, certificate, -, _, finished, rfl⟩ := acknowledged
    have phase : epoch.phase = .prepared := by simpa using prepared
    exact advances_of_set finished (epochAt_eq_ok found selected).1
      ⟨rfl, rfl, phase ▸ prepared_le _⟩

/-- Draining keeps every epoch. -/
theorem drainPredecessor_later {position : Nat} {deadline : UInt64}
    {entry : LocalKeyEpoch × Nat} {drained : LocalKeyEpoch}
    (done : NodeKeyAuthority.drainPredecessor position deadline entry = .ok drained) :
    LaterEpoch entry.1 drained := by
  rw [NodeKeyAuthority.drainPredecessor] at done
  split at done
  next active =>
    simp only [eq_ok_iffs] at done
    obtain ⟨-, rfl⟩ := done
    refine ⟨rfl, rfl, ?_⟩
    rw [beq_iff_eq.mp active]
    exact (by decide : KeyEpochPhase.active ≤ .draining)
  · obtain rfl := Except.ok.inj done
    exact .refl _

theorem activateEpoch_advances {window : UInt64}
    (activated : authority.activateEpoch primitives number topologyRevision now window = .ok next) :
    Advances primitives authority next := by
  simp only [NodeKeyAuthority.activateEpoch, eq_ok_iffs, eq_false_iffs] at activated
  obtain ⟨-, -, position, found, attested, selected, ⟨⟨⟨⟨phase, -⟩, -⟩, -⟩, -⟩, deadline, -, epochs,
    drained, finished⟩ := activated
  have related := mapM_eq_ok_iff.mp drained
  have length : authority.epochs.length = epochs.length := by
    rw [← related.length_eq, length_zipIdx]
  have later (index : Nat) (bound : index < authority.epochs.length) :
      LaterEpoch authority.epochs[index] epochs[index] := by
    have step := related.get (length_zipIdx.symm ▸ bound) (length ▸ bound)
    simp only [get_eq_getElem, getElem_zipIdx] at step
    exact drainPredecessor_later step
  refine advances_of_epochs finished fun epoch member => ?_
  obtain ⟨index, bound, rfl⟩ := getElem_of_mem member
  have drainedBound : index < epochs.length := length ▸ bound
  have kept := later index bound
  by_cases same : position = index
  · subst same
    have chosen := (epochAt_eq_ok found selected).1
    rw [getElem?_eq_getElem bound, Option.some.injEq] at chosen
    refine ⟨{ epochs[position] with phase := .active }, mem_iff_getElem?.mpr ⟨position, ?_⟩,
      kept.epoch, kept.publicKey, ?_⟩
    · rw [getElem?_modify_eq, getElem?_eq_getElem drainedBound]
      rfl
    · rw [chosen, phase]
      exact (by decide : KeyEpochPhase.mutuallyAttested ≤ .active)
  · refine ⟨epochs[index], mem_iff_getElem?.mpr ⟨index, ?_⟩, kept⟩
    rw [getElem?_modify_ne _ _ same, getElem?_eq_getElem drainedBound]

theorem retireDrainedEpoch_advances {proof : EpochDrainProof}
    (retired : authority.retireDrainedEpoch primitives proof now = .ok next) :
    Advances primitives authority next ∧ next.Ended proof.epoch := by
  simp only [NodeKeyAuthority.retireDrainedEpoch, eq_ok_iffs] at retired
  obtain ⟨-, -, -, position, found, drained, selected, -, finished⟩ := retired
  obtain ⟨chosen, number⟩ := epochAt_eq_ok found selected
  have ended : next.Ended proof.epoch := by
    obtain ⟨rfl, -, -⟩ := finish_eq_ok finished
    exact .inl (le_max_right _ _)
  have retains : Retains authority { authority with
      epochs := authority.epochs.eraseIdx position
      retiredThroughEpoch := max authority.retiredThroughEpoch proof.epoch } := by
    refine ⟨rfl, rfl, rfl, le_rfl, le_max_left _ _, le_rfl, fun epoch member => ?_⟩
    obtain ⟨index, located⟩ := mem_iff_getElem?.mp member
    by_cases same : index = position
    · subst same
      obtain rfl : drained = epoch := Option.some.inj (chosen.symm.trans located)
      exact .inr (.inl (number ▸ le_max_right _ _))
    · exact .inl ⟨epoch, mem_eraseIdx_iff_getElem?.mpr ⟨index, same, located⟩, .refl epoch⟩
  exact ⟨advances_of_finish finished retains rfl, ended⟩

theorem revokeThrough_advances {reason : EpochRevocationReason} {receipt : EpochRevocationReceipt}
    (revoked : authority.revokeThrough primitives number reason now = .ok (next, receipt)) :
    Advances primitives authority next ∧ ∀ epoch ≤ number, next.Ended epoch := by
  simp only [NodeKeyAuthority.revokeThrough, eq_ok_iffs, Prod.mk.injEq] at revoked
  obtain ⟨-, -, result, finished, rfl, -⟩ := revoked
  have ended : ∀ epoch ≤ number, result.Ended epoch := by
    intro epoch covered
    obtain ⟨rfl, -, -⟩ := finish_eq_ok finished
    exact .inr (covered.trans (le_max_right _ _))
  have retains : Retains authority { authority with
      epochs := authority.epochs.filter fun candidate => decide (number < candidate.epoch)
      revokedThroughEpoch := max authority.revokedThroughEpoch number } := by
    refine ⟨rfl, rfl, rfl, le_rfl, le_rfl, le_max_left _ _, fun epoch member => ?_⟩
    rcases lt_or_ge number epoch.epoch with above | covered
    · exact .inl ⟨epoch, mem_filter.mpr ⟨member, decide_eq_true above⟩, .refl epoch⟩
    · exact .inr (.inr (covered.trans (le_max_right _ _)))
  exact ⟨advances_of_finish finished retains rfl, ended⟩

end Operations

/-! ## Admission -/

/-- The identity of the node that an authority belongs to. -/
def NodeKeyAuthority.identity (authority : NodeKeyAuthority) : AuthenticatedNodeIdentity :=
  ⟨authority.clusterId, authority.nodeName, authority.nodeUid⟩

section Admission

variable {earlier later : NodeKeyAuthority} {epoch : LocalKeyEpoch}
  (valid : AuthorityValid primitives later)
include valid

/-- The epochs of a valid authority are not over. -/
theorem AuthorityValid.not_ended (member : epoch ∈ later.epochs) : ¬later.Ended epoch.epoch := by
  intro ended
  have epochValid := valid.epochs epoch member
  exact ended.elim (not_le.mpr epochValid.notRetired) (not_le.mpr epochValid.notRevoked)

theorem AuthorityValid.eq_of_epoch {left right : LocalKeyEpoch} (leftMember : left ∈ later.epochs)
    (rightMember : right ∈ later.epochs) (same : left.epoch = right.epoch) : left = right := by
  have distinct : (later.epochs.map LocalKeyEpoch.epoch).Nodup := by
    rw [List.Nodup, pairwise_map]
    exact valid.ascending.imp ne_of_lt
  exact inj_on_of_nodup_map distinct leftMember rightMember same

variable (succeeds : Succeeds earlier later)
include succeeds

/-- An epoch that is still there is a later state of the one with its number. -/
theorem Succeeds.later_of_same_epoch {successor : LocalKeyEpoch}
    (member : epoch ∈ earlier.epochs) (successorMember : successor ∈ later.epochs)
    (same : successor.epoch = epoch.epoch) : LaterEpoch epoch successor := by
  obtain ⟨kept, keptMember, laterEpoch⟩ | ended := succeeds.epochs epoch member
  · rwa [valid.eq_of_epoch successorMember keptMember (same.trans laterEpoch.epoch.symm)]
  · exact absurd (same ▸ ended) (valid.not_ended successorMember)

theorem Succeeds.not_regresses (member : epoch ∈ earlier.epochs) :
    epochRegresses (later.published primitives) epoch.published = false := by
  rw [epochRegresses]
  cases found : (later.published primitives).epochs.find? fun new =>
      new.epoch == epoch.published.epoch with
  | some new =>
    obtain ⟨successor, successorMember, rfl⟩ := mem_map.mp (mem_of_find?_eq_some found)
    have matched := find?_some found
    have same : successor.epoch = epoch.epoch := beq_iff_eq.mp matched
    have laterEpoch := succeeds.later_of_same_epoch valid member successorMember same
    rw [Bool.or_eq_false_iff, bne_eq_false_iff_eq, decide_eq_false_iff_not, not_lt]
    exact ⟨laterEpoch.publicKey, laterEpoch.phase⟩
  | none =>
    rw [find?_eq_none] at found
    obtain ⟨successor, successorMember, laterEpoch⟩ | ended := succeeds.epochs epoch member
    · have differs := found successor.published (mem_map_of_mem successorMember)
      exact absurd (beq_iff_eq.mpr laterEpoch.epoch) differs
    · rw [Bool.and_eq_false_iff, decide_eq_false_iff_not, decide_eq_false_iff_not, not_lt, not_lt]
      exact ended

theorem Succeeds.admitSuccessor :
    ∃ admission, admitSuccessor (later.published primitives) (earlier.published primitives) =
      .ok admission := by
  simp only [Encryption.admitSuccessor, eq_ok_iffs, eq_false_iffs, exists_and_left]
  refine ⟨⟨⟨succeeds.clusterId.symm, succeeds.nodeName.symm⟩, succeeds.nodeUid.symm⟩, ?_⟩
  obtain increases | rfl := succeeds.keyRevision
  · have differs : ((later.published primitives).keyRevision ==
        (earlier.published primitives).keyRevision) = false :=
      beq_eq_false_iff_ne.mpr increases.ne'
    refine ⟨increases.le, .accepted, ?_⟩
    rw [differs, if_neg Bool.false_ne_true, bind_eq_ok]
    refine ⟨(), ?_, rfl⟩
    simp only [failIf_eq_ok, eq_false_iffs, any_eq_false, Bool.not_eq_true]
    refine ⟨⟨⟨succeeds.nextEpoch, succeeds.retired⟩, succeeds.revoked⟩, fun epoch member => ?_⟩
    obtain ⟨source, sourceMember, rfl⟩ := mem_map.mp member
    exact succeeds.not_regresses valid sourceMember
  · refine ⟨le_rfl, .idempotent, ?_⟩
    rw [if_pos (beq_self_eq_true _), bind_eq_ok]
    exact ⟨(), failIf_eq_ok.mpr (bne_self_eq_false _), rfl⟩

/-- What is published later is admitted after what was published earlier. -/
theorem Succeeds.admitted (earlierValid : AuthorityValid primitives earlier) :
    ∃ admission, admitAuthenticatedPublication primitives later.identity
      (later.published primitives) (some (earlier.published primitives)) = .ok admission := by
  obtain ⟨admission, admitted⟩ := succeeds.admitSuccessor valid
  refine ⟨admission, ?_⟩
  simp only [admitAuthenticatedPublication, eq_ok_iffs]
  refine ⟨valid.published_verify, ?_, earlierValid.published_verify, admitted⟩
  simp [NodeKeyAuthority.identity, NodeKeyAuthority.published]

end Admission

/-! ## Use of a key -/

end Unf.Encryption
