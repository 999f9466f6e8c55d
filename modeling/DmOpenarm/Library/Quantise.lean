import Mathlib.Algebra.Order.Floor.Semiring
import Mathlib.Algebra.Order.Field.Basic
import Mathlib.Tactic.FieldSimp
import Mathlib.Tactic.Linarith
import Mathlib.Tactic.Ring

/-! Uniform quantisation: the codes 0, ..., top are spread evenly over an interval, a value is
sent as the last code at or below it, and a code stands for its own point of the interval. -/

namespace Library.Quantise
variable {K : Type} [Field K] {lo hi : K} {top : ℕ}

/-- Position of a value in the interval, measured in codes. -/
def scaled (lo hi : K) (top : ℕ) (value : K) : K := (value - lo) / (hi - lo) * top

def decode (lo hi : K) (top : ℕ) (code : ℕ) : K := code / top * (hi - lo) + lo

def step (lo hi : K) (top : ℕ) : K := (hi - lo) / top

theorem eq_of_scaled (apart : hi - lo ≠ 0) (positive : (top : K) ≠ 0) (value : K) :
    value = scaled lo hi top value / top * (hi - lo) + lo := by
  unfold scaled
  field_simp
  ring

theorem decode_succ (code : ℕ) :
    decode lo hi top (code + 1) = decode lo hi top code + step lo hi top := by
  unfold decode step
  push_cast
  ring

theorem scaled_decode (apart : hi - lo ≠ 0) (positive : (top : K) ≠ 0) (code : ℕ) :
    scaled lo hi top (decode lo hi top code) = code := by
  unfold scaled decode
  field_simp
  ring

section Ordered
variable [LinearOrder K] [IsStrictOrderedRing K]

theorem scaled_nonneg (ordered : lo < hi) {value : K} (above : lo ≤ value) :
    0 ≤ scaled lo hi top value :=
  mul_nonneg (div_nonneg (sub_nonneg.mpr above) (sub_pos.mpr ordered).le) (Nat.cast_nonneg top)

theorem scaled_le_top (ordered : lo < hi) {value : K} (below : value ≤ hi) :
    scaled lo hi top value ≤ top := by
  have share : (value - lo) / (hi - lo) ≤ 1 := by
    rw [div_le_one (sub_pos.mpr ordered)]
    linarith
  calc scaled lo hi top value ≤ 1 * top := mul_le_mul_of_nonneg_right share (Nat.cast_nonneg top)
    _ = top := one_mul _

theorem decode_le_iff (ordered : lo < hi) (positive : 0 < top) (code : ℕ) (value : K) :
    decode lo hi top code ≤ value ↔ (code : K) ≤ scaled lo hi top value := by
  have span : 0 < hi - lo := sub_pos.mpr ordered
  have codes : (0 : K) < top := Nat.cast_pos.mpr positive
  conv_lhs => rw [eq_of_scaled span.ne' codes.ne' value]
  unfold decode
  rw [add_le_add_iff_right, mul_le_mul_iff_of_pos_right span, div_le_div_iff_of_pos_right codes]

end Ordered

section Rounding
variable [LinearOrder K] [IsStrictOrderedRing K] [FloorSemiring K]

def encode (lo hi : K) (top : ℕ) (value : K) : ℕ := ⌊scaled lo hi top value⌋₊

theorem encode_le_top (ordered : lo < hi) {value : K} (below : value ≤ hi) :
    encode lo hi top value ≤ top :=
  Nat.floor_le_of_le (scaled_le_top ordered below)

/-- The value of a code is sent as that code again. -/
theorem encode_decode (ordered : lo < hi) (positive : 0 < top) (code : ℕ) :
    encode lo hi top (decode lo hi top code) = code := by
  have codes : (top : K) ≠ 0 := Nat.cast_ne_zero.mpr positive.ne'
  rw [encode, scaled_decode (sub_pos.mpr ordered).ne' codes, Nat.floor_natCast]

/-- Rounding down never exceeds the value sent. -/
theorem decode_encode_le (ordered : lo < hi) (positive : 0 < top) {value : K} (above : lo ≤ value) :
    decode lo hi top (encode lo hi top value) ≤ value :=
  (decode_le_iff ordered positive _ _).mpr (Nat.floor_le (scaled_nonneg ordered above))

/-- The code after the one sent already exceeds the value. -/
theorem lt_decode_encode_add_step (ordered : lo < hi) (positive : 0 < top) (value : K) :
    value < decode lo hi top (encode lo hi top value) + step lo hi top := by
  rw [← decode_succ]
  have above : ¬decode lo hi top (encode lo hi top value + 1) ≤ value := by
    rw [decode_le_iff ordered positive, not_le]
    exact_mod_cast Nat.lt_floor_add_one (scaled lo hi top value)
  exact not_le.mp above

/-- A value of the interval is recovered up to one quantisation step. -/
theorem abs_decode_encode_sub_le (ordered : lo < hi) (positive : 0 < top) {value : K}
    (above : lo ≤ value) :
    |decode lo hi top (encode lo hi top value) - value| ≤ step lo hi top := by
  have under := decode_encode_le ordered positive above
  have beyond := lt_decode_encode_add_step ordered positive value
  rw [abs_le]
  constructor <;> linarith

/-- Two codes are no further apart than their values, measured in steps, and one code more. -/
theorem abs_encode_sub_le (ordered : lo < hi) {first second : K} (above : lo ≤ first) (aboveToo : lo ≤ second) :
    |(encode lo hi top second : K) - encode lo hi top first| ≤ |second - first| / step lo hi top + 1 := by
  have span : 0 < hi - lo := sub_pos.mpr ordered
  have distance : |scaled lo hi top second - scaled lo hi top first| = |second - first| / step lo hi top := by
    have apart : scaled lo hi top second - scaled lo hi top first = (second - first) * (top / (hi - lo)) := by
      unfold scaled
      ring
    rw [apart, abs_mul, abs_of_nonneg (div_nonneg (Nat.cast_nonneg top) span.le), step, div_eq_mul_inv _ (_ / _),
      inv_div]
  have low : (⌊scaled lo hi top first⌋₊ : K) ≤ scaled lo hi top first := Nat.floor_le (scaled_nonneg ordered above)
  have lowToo : (⌊scaled lo hi top second⌋₊ : K) ≤ scaled lo hi top second :=
    Nat.floor_le (scaled_nonneg ordered aboveToo)
  have high := Nat.lt_floor_add_one (scaled lo hi top first)
  have highToo := Nat.lt_floor_add_one (scaled lo hi top second)
  rw [← distance]
  unfold encode
  have bounds := abs_le.mp (le_refl |scaled lo hi top second - scaled lo hi top first|)
  rw [abs_le]
  constructor <;> linarith

end Rounding

end Library.Quantise
