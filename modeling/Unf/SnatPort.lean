import Unf.Lib.Probe

/-!
# Source ports of translated connections

A gateway and a NodePort look for a free source port in the upper half of the port space. The
hash of the flow gives the first port and the distance to the next one.
-/

namespace Unf

open Unf.Lib

/-- The port that a seed gives for a probe. The stride is odd. -/
def snatCandidate (base : UInt16) (mask seed probe : UInt32) : UInt16 :=
  let stride := ((seed >>> 16) &&& mask) ||| 1
  base + ((seed + probe * stride) &&& mask).toUInt16

def nodePortSnatCandidate (hash probe : UInt32) : UInt16 :=
  snatCandidate 32768 32767 hash probe

/-- The salt of the proof, rotated by 13 bits, gives each tenant ports in another order. -/
def egressSnatCandidate (hash proofSalt probe : UInt32) : UInt16 :=
  let rotated := (proofSalt <<< 13) ||| (proofSalt >>> 19)
  snatCandidate 32768 32767 (hash ^^^ rotated ^^^ 0x9e3779b9) probe

/-- Any 32768 consecutive probes give each port from 32768 on exactly once, and no other port. -/
def FullCycle (candidate : UInt32 → UInt16) : Prop :=
  ∀ start : UInt32, Set.BijOn (fun step : Nat => (candidate (start + .ofNat step)).toNat)
    (Set.Iio 32768) (Set.Ico 32768 65536)

theorem fullCycle_snatCandidate (seed : UInt32) :
    FullCycle (snatCandidate 32768 32767 seed) := by
  intro start
  let stride := ((seed >>> 16) &&& 32767) ||| 1
  have coprime : Nat.Coprime (2 ^ 15) stride.toNat := by
    apply Nat.Coprime.pow_left
    simp [stride, Nat.odd_iff]
  let offset := seed.toNat + start.toNat * stride.toNat
  have wraps (value : Nat) : value % 2 ^ 32 ≡ value [MOD 2 ^ 15] :=
    (Nat.mod_modEq value _).of_dvd (by decide)
  -- The mask is as wide as the cycle, so that the wrapping of 32-bit words does not show.
  have masked (step : Nat) : ((seed + (start + .ofNat step) * stride) &&& 32767).toNat =
      probeSlot (2 ^ 15) offset stride.toNat step := by
    have congruent : (seed + (start + .ofNat step) * stride).toNat ≡
        seed.toNat + (start.toNat + step) * stride.toNat [MOD 2 ^ 15] := by
      apply (wraps _).trans
      apply Nat.ModEq.add_left
      apply (wraps _).trans
      apply Nat.ModEq.mul_right
      exact (wraps _).trans ((wraps step).add_left _)
    rw [UInt32.toNat_and, show (32767 : UInt32).toNat = 2 ^ 15 - 1 from rfl,
      Nat.and_two_pow_sub_one_eq_mod, probeSlot, add_assoc, ← add_mul]
    exact congruent
  have above (step : Nat) : (snatCandidate 32768 32767 seed (start + .ofNat step)).toNat =
      32768 + probeSlot (2 ^ 15) offset stride.toNat step := by
    have bound := probeSlot_lt (by decide : 0 < 2 ^ 15) offset stride.toNat step
    rw [snatCandidate, UInt16.toNat_add, UInt32.toNat_toUInt16, masked]
    simp only [UInt16.toNat_ofNat]
    omega
  have shift : Set.BijOn (32768 + ·) (Set.Iio (2 ^ 15)) (Set.Ico 32768 65536) := by
    refine ⟨fun slot bound => ?_, (add_right_injective 32768).injOn, fun port range => ?_⟩
    · simp only [Set.mem_Iio, Set.mem_Ico] at bound ⊢
      omega
    · simp only [Set.mem_Ico] at range
      exact ⟨port - 32768, by simp only [Set.mem_Iio]; omega, by simp only; omega⟩
  apply (shift.comp (bijOn_probeSlot (by decide) coprime offset)).congr
  intro step _
  exact (above step).symm

/-- The ports are probed in a full cycle for every hash and every salt. -/
theorem snatCandidates_fullCycle :
    (∀ hash, FullCycle (nodePortSnatCandidate hash)) ∧
      ∀ hash proofSalt, FullCycle (egressSnatCandidate hash proofSalt) := by
  constructor
  · intro hash
    exact fullCycle_snatCandidate hash
  · intro hash proofSalt
    exact fullCycle_snatCandidate _

end Unf
