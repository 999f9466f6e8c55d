import Mathlib.Algebra.Order.Group.Unbundled.Abs
import Mathlib.Data.Rat.Floor

/-! Double precision numbers with exact arithmetic on the finite ones, and the comparisons and
sums of infinities and NaN. -/

namespace Library.Ieee

inductive Double where
  | finite (value : ℚ)
  | infinite (negative : Bool)
  | nan
  deriving DecidableEq, Repr

namespace Double

/-- No comparison with NaN holds. -/
def le : Double → Double → Bool
  | .finite x, .finite y => decide (x ≤ y)
  | .finite _, .infinite negative => !negative
  | .infinite negative, .finite _ => negative
  | .infinite first, .infinite second => first || !second
  | .nan, _ => false
  | _, .nan => false

def add : Double → Double → Double
  | .finite x, .finite y => .finite (x + y)
  | .finite _, .infinite negative => .infinite negative
  | .infinite negative, .finite _ => .infinite negative
  | .infinite first, .infinite second => if first = second then .infinite first else .nan
  | .nan, _ => .nan
  | _, .nan => .nan

def lt (first second : Double) : Bool := first.le second && !second.le first

def neg : Double → Double
  | .finite x => .finite (-x)
  | .infinite negative => .infinite !negative
  | .nan => .nan

def abs : Double → Double
  | .finite x => .finite |x|
  | .infinite _ => .infinite false
  | .nan => .nan

theorem neg_eq_nan {value : Double} : value.neg = .nan ↔ value = .nan := by
  constructor
  · intro same
    cases value with
    | nan => rfl
    | finite x => cases same
    | infinite negative => cases same
  · intro same
    subst same
    rfl

def sub (first second : Double) : Double := first.add second.neg

def isFinite : Double → Bool
  | .finite _ => true
  | _ => false

theorem isFinite_iff {value : Double} : value.isFinite = true ↔ ∃ x, value = .finite x := by
  constructor
  · intro isFinite
    cases value with
    | finite x => exact ⟨x, rfl⟩
    | infinite negative => cases isFinite
    | nan => cases isFinite
  · intro given
    obtain ⟨x, rfl⟩ := given
    rfl

theorem lt_finite (x y : ℚ) : (finite x).lt (finite y) = decide (x < y) := by
  rw [lt, le, le, ← decide_not, ← Bool.decide_and]
  exact decide_eq_decide.mpr lt_iff_le_not_ge.symm

theorem add_finite (x y : ℚ) : (finite x).add (finite y) = finite (x + y) := rfl

theorem sub_finite (x y : ℚ) : (finite x).sub (finite y) = finite (x - y) :=
  congrArg finite (sub_eq_add_neg x y).symm

/-- Refusing what is greater than a limit in absolute value lets NaN through. -/
theorem lt_abs_eq_false {limit : ℚ} {value : Double} :
    (Double.finite limit).lt value.abs = false ↔
      value = .nan ∨ ∃ x, value = .finite x ∧ -limit ≤ x ∧ x ≤ limit := by
  cases value with
  | finite x =>
    rw [abs, lt, le, le, Bool.and_eq_false_iff, Bool.not_eq_false', decide_eq_false_iff_not, decide_eq_true_eq]
    constructor
    · intro within
      have below : |x| ≤ limit := within.elim (fun above => (not_le.mp above).le) id
      exact .inr ⟨x, rfl, abs_le.mp below⟩
    · intro given
      rcases given with isNan | ⟨y, same, bounds⟩
      · cases isNan
      · cases same
        exact .inr (abs_le.mpr bounds)
  | infinite negative =>
    constructor
    · intro within
      cases within
    · intro given
      rcases given with isNan | ⟨_, same, _⟩
      · cases isNan
      · cases same
  | nan =>
    constructor
    · exact fun _ => .inl rfl
    · exact fun _ => rfl

end Double
end Library.Ieee
