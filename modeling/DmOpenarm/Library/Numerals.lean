import Mathlib.Data.List.Basic
import Mathlib.Data.Nat.Digits.Defs
import Mathlib.Tactic.Ring

/-! Positional numerals: texts made of digits, most significant first, and the numbers that they
stand for. -/

namespace Library.Numerals
variable {α : Type} {digit : α → Option ℕ} {base : ℕ} {c : α} {text rest : List α} {value other : ℕ}

def Numeral (digit : α → Option ℕ) (base : ℕ) (text : List α) (value : ℕ) : Prop :=
  ∃ digits : List ℕ, text.map digit = digits.map some ∧ value = Nat.ofDigits base digits.reverse

theorem numeral_nil : Numeral digit base [] value ↔ value = 0 := by
  constructor
  · intro given
    obtain ⟨digits, same, rfl⟩ := given
    cases digits with
    | nil => rfl
    | cons d digits => cases same
  · intro zero
    exact ⟨[], rfl, zero⟩

theorem numeral_cons : Numeral digit base (c :: rest) value ↔
    ∃ d lower, digit c = some d ∧ Numeral digit base rest lower ∧ value = d * base ^ rest.length + lower := by
  have first (d : ℕ) {digits : List ℕ} (same : rest.map digit = digits.map some) :
      Nat.ofDigits base (d :: digits).reverse = d * base ^ rest.length + Nat.ofDigits base digits.reverse := by
    have length : digits.reverse.length = rest.length := by
      rw [List.length_reverse, ← List.length_map some, ← same, List.length_map]
    rw [List.reverse_cons, Nat.ofDigits_append, Nat.ofDigits_singleton, length]
    ring
  constructor
  · intro given
    obtain ⟨digits, same, rfl⟩ := given
    cases digits with
    | nil => cases same
    | cons d digits =>
      rw [List.map_cons, List.map_cons, List.cons.injEq] at same
      exact ⟨d, _, same.1, ⟨digits, same.2, rfl⟩, first d same.2⟩
  · intro given
    obtain ⟨d, lower, read, ⟨digits, same, rfl⟩, rfl⟩ := given
    exact ⟨d :: digits, by rw [List.map_cons, List.map_cons, read, same], (first d same).symm⟩

theorem Numeral.unique (one : Numeral digit base text value) (also : Numeral digit base text other) : value = other := by
  obtain ⟨digits, same, rfl⟩ := one
  obtain ⟨others, sameToo, rfl⟩ := also
  have equal : digits = others := List.map_injective_iff.mpr (Option.some_injective ℕ) (same.symm.trans sameToo)
  rw [equal]

/-- A last digit adds a place. -/
theorem Numeral.append_digit {d : ℕ} (numeral : Numeral digit base text value) (read : digit c = some d) :
    Numeral digit base (text ++ [c]) (value * base + d) := by
  obtain ⟨digits, same, rfl⟩ := numeral
  refine ⟨digits ++ [d], ?_, ?_⟩
  · rw [List.map_append, List.map_append, same, List.map_singleton, List.map_singleton, read]
  · rw [List.reverse_append, List.reverse_singleton, List.singleton_append, Nat.ofDigits_cons]
    ring

/-- The usual way to write a number in a base gives a numeral of it. -/
theorem numeral_toDigits {digit : Char → Option ℕ} (many : 1 < base)
    (written : ∀ d < base, digit d.digitChar = some d) (number : ℕ) :
    Numeral digit base (Nat.toDigits base number) number := by
  induction number using Nat.strong_induction_on with
  | _ number ih =>
    rw [Nat.toDigits_eq_if many]
    by_cases single : number < base
    · rw [if_pos single]
      exact numeral_cons.mpr ⟨number, 0, written number single, numeral_nil.mpr rfl, by simp⟩
    · rw [if_neg single]
      have smaller : number / base < number := Nat.div_lt_self (by omega) many
      have split : number / base * base + number % base = number := Nat.div_add_mod' number base
      conv => arg 4; rw [← split]
      exact (ih _ smaller).append_digit (written _ (Nat.mod_lt _ (by omega)))

theorem toDigits_head {base number : ℕ} (many : 1 < base) (positive : 0 < number) :
    ∃ d rest, 0 < d ∧ d < base ∧ Nat.toDigits base number = Nat.digitChar d :: rest := by
  induction number using Nat.strong_induction_on with
  | _ number ih =>
    rw [Nat.toDigits_eq_if many]
    by_cases single : number < base
    · rw [if_pos single]
      exact ⟨number, [], positive, single, rfl⟩
    · rw [if_neg single]
      have upper : 0 < number / base := Nat.div_pos (not_lt.mp single) (by omega)
      obtain ⟨d, rest, leading, small, same⟩ := ih _ (Nat.div_lt_self positive many) upper
      exact ⟨d, rest ++ [(number % base).digitChar], leading, small, by rw [same, List.cons_append]⟩

end Library.Numerals
