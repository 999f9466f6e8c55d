import DmOpenarm.MotorBus
import DmOpenarm.Library.Quantise

/-! What a motor reads from an MIT frame: the five codes that were sliced into its bytes, each
cut to its width, and the values they stand for. -/

namespace DmOpenarm.MitFrame
open Types hiding ControlMode
open Damiao MotorBus Library.Quantise

/-- The five unsigned fields of an MIT frame. -/
structure MitCodes where
  q : BitVec 16
  dq : BitVec 16
  kp : BitVec 16
  kd : BitVec 16
  tau : BitVec 16
  deriving DecidableEq, Repr

/-- Twelve bits: all of the first byte, then the upper half of the second. -/
def high12 (first second : Byte) : BitVec 16 := first.setWidth 16 <<< 4 ||| (second >>> 4).setWidth 16

/-- Twelve bits: the lower half of the first byte, then all of the second. -/
def low12 (first second : Byte) : BitVec 16 := (first &&& 0xf).setWidth 16 <<< 8 ||| second.setWidth 16

def readMit (data : List Byte) : Option MitCodes :=
  match data with
  | [d0, d1, d2, d3, d4, d5, d6, d7] =>
      some { q := word16 d0 d1, dq := high12 d2 d3, kp := low12 d3 d4, kd := high12 d5 d6, tau := low12 d6 d7 }
  | _ => none

section Slices

/-- Two runs of bits, one above the other, add up. -/
theorem toNat_shiftLeft_or {width : Nat} (upper lower : BitVec width) (places : Nat)
    (fits : upper.toNat * 2 ^ places < 2 ^ width) (small : lower.toNat < 2 ^ places) :
    (upper <<< places ||| lower).toNat = upper.toNat * 2 ^ places + lower.toNat := by
  rw [BitVec.toNat_or, BitVec.toNat_shiftLeft, Nat.shiftLeft_eq, Nat.mod_eq_of_lt fits, ← Nat.shiftLeft_eq,
    Nat.shiftLeft_add_eq_or_of_lt small]

theorem toNat_and_mask {width : Nat} (value mask : BitVec width) (bits : Nat)
    (same : mask.toNat = 2 ^ bits - 1) : (value &&& mask).toNat = value.toNat % 2 ^ bits := by
  rw [BitVec.toNat_and, same, Nat.and_two_pow_sub_one_eq_mod]

theorem toNat_word16 (high low : Byte) : (word16 high low).toNat = high.toNat * 256 + low.toNat := by
  have upper := high.isLt
  have lower := low.isLt
  unfold word16
  rw [toNat_shiftLeft_or] <;> simp only [BitVec.toNat_setWidth] <;> omega

theorem toNat_high12 (first second : Byte) :
    (high12 first second).toNat = first.toNat * 16 + second.toNat / 16 := by
  have upper := first.isLt
  have lower := second.isLt
  unfold high12
  rw [toNat_shiftLeft_or] <;>
    simp only [BitVec.toNat_setWidth, BitVec.toNat_ushiftRight, Nat.shiftRight_eq_div_pow] <;> omega

theorem toNat_low12 (first second : Byte) :
    (low12 first second).toNat = first.toNat % 16 * 256 + second.toNat := by
  have upper := first.isLt
  have lower := second.isLt
  have masked : (first &&& 0xf).toNat = first.toNat % 2 ^ 4 := toNat_and_mask first 0xf 4 rfl
  unfold low12
  rw [toNat_shiftLeft_or] <;> simp only [BitVec.toNat_setWidth, masked] <;> omega

theorem toNat_upperByte (code : BitVec 16) :
    (((code >>> 8) &&& 0xff).setWidth 8 : Byte).toNat = code.toNat / 256 % 256 := by
  have masked := toNat_and_mask (code >>> 8) 0xff 8 rfl
  simp only [BitVec.toNat_setWidth, masked, BitVec.toNat_ushiftRight, Nat.shiftRight_eq_div_pow]
  omega

theorem toNat_lowerByte (code : BitVec 16) : ((code &&& 0xff).setWidth 8 : Byte).toNat = code.toNat % 256 := by
  have masked := toNat_and_mask code 0xff 8 rfl
  simp only [BitVec.toNat_setWidth, masked]
  omega

theorem toNat_middleByte (code : BitVec 16) : ((code >>> 4).setWidth 8 : Byte).toNat = code.toNat / 16 % 256 := by
  simp only [BitVec.toNat_setWidth, BitVec.toNat_ushiftRight, Nat.shiftRight_eq_div_pow]

/-- The byte that two fields share. -/
theorem toNat_sharedByte (first second : BitVec 16) :
    ((((first &&& 0xf) <<< 4) ||| ((second >>> 8) &&& 0xf)).setWidth 8 : Byte).toNat =
      first.toNat % 16 * 16 + second.toNat / 256 % 16 := by
  have upper := toNat_and_mask first 0xf 4 rfl
  have lower := toNat_and_mask (second >>> 8) 0xf 4 rfl
  rw [BitVec.toNat_ushiftRight, Nat.shiftRight_eq_div_pow] at lower
  rw [BitVec.toNat_setWidth, toNat_shiftLeft_or _ _ 4 (by omega) (by omega), upper, lower]
  omega

/-- The position keeps its sixteen bits; every other field keeps its lower twelve. -/
theorem readMit_mitData (q dq kp kd tau : BitVec 16) :
    readMit (mitData q dq kp kd tau) =
      some { q := q, dq := dq &&& 0xfff, kp := kp &&& 0xfff, kd := kd &&& 0xfff, tau := tau &&& 0xfff } := by
  have cut (code : BitVec 16) : (code &&& 0xfff).toNat = code.toNat % 2 ^ 12 := toNat_and_mask code 0xfff 12 rfl
  unfold readMit mitData
  simp only [Option.some.injEq, MitCodes.mk.injEq]
  refine ⟨?_, ?_, ?_, ?_, ?_⟩ <;> apply BitVec.eq_of_toNat_eq
  · rw [toNat_word16, toNat_upperByte, toNat_lowerByte]
    have bound := q.isLt
    omega
  · rw [toNat_high12, toNat_middleByte, toNat_sharedByte, cut]
    omega
  · rw [toNat_low12, toNat_sharedByte, toNat_lowerByte, cut]
    omega
  · rw [toNat_high12, toNat_middleByte, toNat_sharedByte, cut]
    omega
  · rw [toNat_low12, toNat_sharedByte, toNat_lowerByte, cut]
    omega

end Slices

/-- A code stands for a value within one quantisation step of the request, once the request is
clamped to the range of the field. -/
def Within (lo hi : ℚ) (bits : Nat) (code : BitVec 16) (request : ℚ) : Prop :=
  |decode lo hi (2 ^ bits - 1) code.toNat - max lo (min hi request)| ≤ step lo hi (2 ^ bits - 1)

instance (lo hi : ℚ) (bits : Nat) (code : BitVec 16) (request : ℚ) : Decidable (Within lo hi bits code request) :=
  inferInstanceAs (Decidable (_ ≤ _))

/-- What the encoding of one field does without a clamp: the scaled request rounded down keeps
its lower bits, which is within one step of a request that lies in the range. -/
structure Encoded (lo hi : ℚ) (bits : Nat) (code : BitVec 16) (request : ℚ) : Prop where
  lowBits : 0 ≤ scaled lo hi (2 ^ bits - 1) request → scaled lo hi (2 ^ bits - 1) request ≤ 65535 →
    code.toNat = ⌊scaled lo hi (2 ^ bits - 1) request⌋₊ % 2 ^ bits
  inRange : lo ≤ request → request ≤ hi → Within lo hi bits code request

theorem toNat_floatToUint (platform : Platform) {lo hi value : ℚ} {bits : Nat}
    (above : 0 ≤ scaled lo hi (2 ^ bits - 1) value) (below : scaled lo hi (2 ^ bits - 1) value ≤ 65535) :
    (floatToUint platform value lo hi bits).toNat = encode lo hi (2 ^ bits - 1) value :=
  platform.toUInt16_eq _ above below

theorem encoded_floatToUint (platform : Platform) {lo hi : ℚ} (ordered : lo < hi) {bits : Nat}
    (positive : 0 < bits) (narrow : bits ≤ 16) {code : BitVec 16} (request : ℚ)
    (cut : code.toNat = (floatToUint platform request lo hi bits).toNat % 2 ^ bits) :
    Encoded lo hi bits code request := by
  have power : 2 ^ bits ≤ 2 ^ 16 := Nat.pow_le_pow_right (by decide) narrow
  have two : 2 ^ 1 ≤ 2 ^ bits := Nat.pow_le_pow_right (by decide) positive
  have converted (above : 0 ≤ scaled lo hi (2 ^ bits - 1) request)
      (below : scaled lo hi (2 ^ bits - 1) request ≤ 65535) :
      code.toNat = ⌊scaled lo hi (2 ^ bits - 1) request⌋₊ % 2 ^ bits := by
    rw [cut, toNat_floatToUint platform above below, encode]
  refine ⟨converted, ?_⟩
  intro above below
  have top : scaled lo hi (2 ^ bits - 1) request ≤ ((2 ^ bits - 1 : Nat) : ℚ) := scaled_le_top ordered below
  have limit : ((2 ^ bits - 1 : Nat) : ℚ) ≤ 65535 := by
    have small : 2 ^ bits - 1 ≤ 65535 := by omega
    exact_mod_cast small
  have fits : encode lo hi (2 ^ bits - 1) request ≤ 2 ^ bits - 1 := encode_le_top ordered below
  have exactCode : code.toNat = encode lo hi (2 ^ bits - 1) request := by
    rw [converted (scaled_nonneg ordered above) (top.trans limit)]
    apply Nat.mod_eq_of_lt
    change encode lo hi (2 ^ bits - 1) request < 2 ^ bits
    omega
  have clamped : max lo (min hi request) = request := by rw [min_eq_right below, max_eq_right above]
  rw [Within, clamped, exactCode]
  exact abs_decode_encode_sub_le ordered (by omega) above

/-- A relation between code and request holds of each field that a motor reads from a frame. -/
def Decodes (relation : ℚ → ℚ → Nat → BitVec 16 → ℚ → Prop) (limits : LimitParam) (command : MitCommand)
    (data : List Byte) : Prop :=
  ∃ codes, readMit data = some codes ∧
    relation (-limits.qMax) limits.qMax 16 codes.q command.q ∧
    relation (-limits.dqMax) limits.dqMax 12 codes.dq command.dq ∧
    relation 0 500 12 codes.kp command.kp ∧
    relation 0 5 12 codes.kd command.kd ∧
    relation (-limits.tauMax) limits.tauMax 12 codes.tau command.tau

theorem decodes_mitPayload (platform : Platform) (motorType : DMMotorType) (command : MitCommand) :
    Decodes Encoded (limitParam motorType) command (mitPayload platform (limitParam motorType) command) := by
  obtain ⟨q, dq, tau⟩ := limitParam_pos motorType
  have cut (code : BitVec 16) : (code &&& 0xfff).toNat = code.toNat % 2 ^ 12 := toNat_and_mask code 0xfff 12 rfl
  refine ⟨_, readMit_mitData _ _ _ _ _, ?_, ?_, ?_, ?_, ?_⟩
  · apply encoded_floatToUint platform (neg_lt_self q) (by decide) (by decide)
    rw [Nat.mod_eq_of_lt (BitVec.isLt _)]
  · exact encoded_floatToUint platform (neg_lt_self dq) (by decide) (by decide) _ (cut _)
  · exact encoded_floatToUint platform (by decide +kernel) (by decide) (by decide) _ (cut _)
  · exact encoded_floatToUint platform (by decide +kernel) (by decide) (by decide) _ (cut _)
  · exact encoded_floatToUint platform (neg_lt_self tau) (by decide) (by decide) _ (cut _)

end DmOpenarm.MitFrame
