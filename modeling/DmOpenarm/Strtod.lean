import DmOpenarm.Strtoul
import DmOpenarm.Library.Ieee
import Mathlib.Data.List.TakeWhile

/-! `std::stod`: white space, a sign, then an infinity, a NaN, a hexadecimal or a decimal
number. Numbers are read exactly. -/

namespace DmOpenarm.Strtod
open Types Strtoul Library.Ieee

/-- What follows a word at the beginning of a text, in any case. -/
def afterWord : List Char → List Char → Option (List Char)
  | [], text => some text
  | _ :: _, [] => none
  | letter :: word, c :: text => if c.toLower = letter then afterWord word text else none

def wordChar (c : Char) : Bool := c.isAlphanum || c == '_'

/-- A NaN may carry a word in parentheses, which is not part of it unless they close. -/
def afterPayload : List Char → List Char
  | '(' :: text =>
      match text.dropWhile wordChar with
      | ')' :: rest => rest
      | _ => '(' :: text
  | text => text

def special (text : List Char) : Option (Double × List Char) :=
  match afterWord "infinity".toList text with
  | some rest => some (.infinite false, rest)
  | none =>
      match afterWord "inf".toList text with
      | some rest => some (.infinite false, rest)
      | none => (afterWord "nan".toList text).map fun rest => (.nan, afterPayload rest)

/-- Digits around an optional point, at least one of them: their value without the point, how
many stand after it, and the rest. -/
def mantissa (base : Nat) (text : List Char) : Option (Nat × Nat × List Char) :=
  let whole := digits base 0 text
  match whole.2 with
  | '.' :: fraction =>
      let all := digits base whole.1 fraction
      if whole.2.length = text.length ∧ all.2.length = fraction.length then none
      else some (all.1, fraction.length - all.2.length, all.2)
  | rest => if rest.length = text.length then none else some (whole.1, 0, rest)

/-- A mark that no digits follow begins no exponent. -/
def exponent (mark : Char) (text : List Char) : Int × List Char :=
  match text with
  | [] => (0, [])
  | c :: rest =>
      let signed := sign rest
      if c.toLower = mark ∧ (signed.2.head?.bind (digitValue 10)).isSome then
        let power := digits 10 0 signed.2
        (if signed.1 then -power.1 else power.1, power.2)
      else (0, text)

def decimal (text : List Char) : Option (ℚ × List Char) :=
  (mantissa 10 text).map fun (value, places, rest) =>
    let power := exponent 'e' rest
    (value * (10 : ℚ) ^ (power.1 - places), power.2)

/-- Each hexadecimal place is worth four of the binary exponent. -/
def hexadecimal (text : List Char) : Option (ℚ × List Char) :=
  (mantissa 16 text).map fun (value, places, rest) =>
    let power := exponent 'p' rest
    (value * (2 : ℚ) ^ (power.1 - 4 * places), power.2)

/-- A 0x that no hexadecimal number follows is the decimal number 0. -/
def number (text : List Char) : Option (ℚ × List Char) :=
  match text with
  | '0' :: mark :: rest =>
      if mark.toLower = 'x' ∧ (mantissa 16 rest).isSome then hexadecimal rest else decimal text
  | _ => decimal text

def magnitude (text : List Char) : Option (Double × List Char) :=
  match special text with
  | some found => some found
  | none => (number text).map fun found => (.finite found.1, found.2)

/-- The value, and the part of the text that was not parsed. -/
def strtod (text : List Char) : Option (Double × List Char) :=
  let signed := sign (text.dropWhile isSpace)
  (magnitude signed.2).map fun found => (if signed.1 then found.1.neg else found.1, found.2)

/-- Which finite values strtod reports as overflow or underflow is left to the library. -/
def stod (outOfRange : ℚ → Bool) (text : List Char) : Except Fault (Double × List Char) :=
  match strtod text with
  | none => .error (.invalidArgument "stod")
  | some (.finite value, rest) =>
      if outOfRange value then .error (.outOfRange "stod") else .ok (.finite value, rest)
  | some found => .ok found

theorem afterWord_eq_some {word text rest : List Char} :
    afterWord word text = some rest ↔ ∃ name, text = name ++ rest ∧ name.map Char.toLower = word := by
  induction word generalizing text with
  | nil =>
    simp only [afterWord, Option.some.injEq, List.map_eq_nil_iff]
    constructor
    · intro same
      subst same
      exact ⟨[], rfl, rfl⟩
    · intro given
      obtain ⟨name, same, rfl⟩ := given
      exact same
  | cons letter word ih =>
    cases text with
    | nil => simp [afterWord]
    | cons c text =>
      by_cases agrees : c.toLower = letter
      · rw [afterWord, if_pos agrees, ih]
        constructor
        · intro given
          obtain ⟨name, rfl, matched⟩ := given
          exact ⟨c :: name, rfl, by rw [List.map_cons, agrees, matched]⟩
        · intro given
          obtain ⟨name, same, matched⟩ := given
          cases name with
          | nil => cases matched
          | cons first name =>
            rw [List.map_cons, List.cons.injEq] at matched
            rw [List.cons_append, List.cons.injEq] at same
            exact ⟨name, same.2, matched.2⟩
      · rw [afterWord, if_neg agrees]
        constructor
        · intro found
          cases found
        · intro given
          obtain ⟨name, same, matched⟩ := given
          cases name with
          | nil => cases matched
          | cons first name =>
            rw [List.map_cons, List.cons.injEq] at matched
            rw [List.cons_append, List.cons.injEq] at same
            exact absurd (same.1 ▸ matched.1) agrees

/-- Nothing, or a word in parentheses. -/
def Payload (text : List Char) : Prop :=
  text = [] ∨ ∃ word, text = '(' :: (word ++ [')']) ∧ ∀ c ∈ word, wordChar c = true

theorem afterPayload_eq_nil {text : List Char} : afterPayload text = [] ↔ Payload text := by
  unfold afterPayload
  split
  · rename_i inner
    constructor
    · intro ended
      split at ended
      · rename_i rest closed
        refine .inr ⟨inner.takeWhile wordChar, ?_, fun c => List.mem_takeWhile_imp⟩
        rw [ended] at closed
        rw [← closed, List.takeWhile_append_dropWhile]
      · cases ended
    · intro given
      rcases given with empty | ⟨word, same, letters⟩
      · cases empty
      · cases same
        rw [List.dropWhile_append_of_pos letters]
        rfl
  · rename_i open_ne
    constructor
    · exact .inl
    · intro given
      rcases given with empty | ⟨word, same, _⟩
      · exact empty
      · exact absurd same (open_ne _)

/-- The NaN literals: a sign, the name in any case, and the payload. -/
def NanSpelling (text : List Char) : Prop :=
  ∃ mark name payload, text = mark ++ (name ++ payload) ∧ mark ∈ [[], ['+'], ['-']] ∧
    name.map Char.toLower = "nan".toList ∧ Payload payload

theorem nan_head {c : Char} {name : List Char} (lower : (c :: name).map Char.toLower = "nan".toList) :
    c.toLower = 'n' := by
  have letters : "nan".toList = ['n', 'a', 'n'] := by decide
  rw [letters, List.map_cons, List.cons.injEq] at lower
  exact lower.1

theorem magnitude_nan {text rest : List Char} :
    magnitude text = some (.nan, rest) ↔
      ∃ name after, text = name ++ after ∧ name.map Char.toLower = "nan".toList ∧ afterPayload after = rest := by
  constructor
  · intro found
    unfold magnitude special at found
    split at found
    · rename_i earlier
      split at earlier
      · cases earlier
        cases found
      · split at earlier
        · cases earlier
          cases found
        · cases found
          rw [Option.map_eq_some_iff] at earlier
          obtain ⟨after, named, same⟩ := earlier
          cases same
          obtain ⟨name, split, lower⟩ := afterWord_eq_some.mp named
          exact ⟨name, after, split, lower, rfl⟩
    · rw [Option.map_eq_some_iff] at found
      obtain ⟨_, _, same⟩ := found
      cases same
  · intro given
    obtain ⟨name, after, rfl, lower, rfl⟩ := given
    have notWord (word : List Char) (other : word.head? = some 'i') : afterWord word (name ++ after) = none := by
      rw [Option.eq_none_iff_forall_ne_some]
      intro rest found
      obtain ⟨prior, same, matched⟩ := afterWord_eq_some.mp found
      cases prior with
      | nil =>
        rw [← matched] at other
        cases other
      | cons first prior =>
        cases name with
        | nil => cases lower
        | cons c name =>
          rw [List.cons_append, List.cons_append, List.cons.injEq] at same
          rw [← matched, List.map_cons, List.head?_cons, ← same.1, Option.some.injEq] at other
          exact absurd (other.symm.trans (nan_head lower)) (by decide)
    have named : afterWord "nan".toList (name ++ after) = some after := afterWord_eq_some.mpr ⟨name, rfl, lower⟩
    rw [magnitude, special, notWord _ rfl, notWord _ rfl, named]
    rfl

theorem sign_split (text : List Char) : ∃ mark ∈ [[], ['+'], ['-']],
    text = mark ++ (sign text).2 ∧ (sign text).1 = decide (mark = ['-']) := by
  unfold sign
  split
  · exact ⟨['-'], by simp, rfl, rfl⟩
  · exact ⟨['+'], by simp, rfl, rfl⟩
  · exact ⟨[], by simp, rfl, rfl⟩

theorem sign_append {mark rest : List Char} (marks : mark ∈ [[], ['+'], ['-']])
    (plain : rest.head? ≠ some '+' ∧ rest.head? ≠ some '-') : sign (mark ++ rest) = (decide (mark = ['-']), rest) := by
  simp only [List.mem_cons, List.not_mem_nil, or_false] at marks
  rcases marks with rfl | rfl | rfl
  · rw [List.nil_append]
    unfold sign
    split
    · exact absurd rfl plain.2
    · exact absurd rfl plain.1
    · rfl
  · rfl
  · rfl

theorem strtod_nan_iff {text : List Char} (trimmed : text.dropWhile isSpace = text) :
    strtod text = some (.nan, []) ↔ NanSpelling text := by
  have whole : strtod text = some (.nan, []) ↔ magnitude (sign text).2 = some (.nan, []) := by
    simp only [strtod, trimmed, Option.map_eq_some_iff, Prod.mk.injEq]
    constructor
    · intro given
      obtain ⟨⟨value, rest⟩, found, isNan, rfl⟩ := given
      dsimp only at isNan
      split at isNan
      · rw [Double.neg_eq_nan.mp isNan] at found
        exact found
      · rw [isNan] at found
        exact found
    · intro found
      refine ⟨_, found, ?_, rfl⟩
      split <;> rfl
  rw [whole, magnitude_nan]
  constructor
  · intro given
    obtain ⟨name, payload, same, lower, ended⟩ := given
    obtain ⟨mark, marks, split, _⟩ := sign_split text
    exact ⟨mark, name, payload, by rw [← same, ← split], marks, lower, afterPayload_eq_nil.mp ended⟩
  · intro given
    obtain ⟨mark, name, payload, rfl, marks, lower, ended⟩ := given
    refine ⟨name, payload, congrArg Prod.snd (sign_append marks ?_), lower, afterPayload_eq_nil.mpr ended⟩
    cases name with
    | nil => cases lower
    | cons c name =>
      rw [List.cons_append, List.head?_cons]
      constructor
      · intro plus
        cases plus
        exact absurd (nan_head lower) (by decide)
      · intro minus
        cases minus
        exact absurd (nan_head lower) (by decide)

example : strtod "-NaN(1)".toList = some (.nan, []) := by decide +kernel

end DmOpenarm.Strtod
