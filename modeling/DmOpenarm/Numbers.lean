import DmOpenarm.CommandLine
import DmOpenarm.YamlLoader
import DmOpenarm.Library.Numerals

/-! Which texts std::stoul reads to their end, and what the parsers of identifiers and of
configuration fields make of them. -/

namespace DmOpenarm.Numbers
open Types Strtoul Strtod CommandLine YamlLoader Library.Effect Library.Numerals

/-- The integer literals: decimal, octal after a 0, hexadecimal after a 0x. -/
inductive Literal : List Char → ℕ → Prop where
  | decimal {c : Char} {rest : List Char} {value : ℕ} (leading : c ≠ '0')
      (numeral : Numeral (digitValue 10) 10 (c :: rest) value) : Literal (c :: rest) value
  | octal {rest : List Char} {value : ℕ} (numeral : Numeral (digitValue 8) 8 rest value) : Literal ('0' :: rest) value
  | hexadecimal {mark : Char} {rest : List Char} {value : ℕ} (marked : mark = 'x' ∨ mark = 'X') (present : rest ≠ [])
      (numeral : Numeral (digitValue 16) 16 rest value) : Literal ('0' :: mark :: rest) value

variable {base value : ℕ} {text rest : List Char}

/-- A run of digits that ends where the text does not go on with a digit. -/
theorem digits_run {run : List Char} (numeral : Numeral (digitValue base) base run value)
    (ends : ∀ c ∈ rest.head?, digitValue base c = none) (start : ℕ) :
    digits base start (run ++ rest) = (start * base ^ run.length + value, rest) := by
  induction run generalizing start value with
  | nil =>
    rw [numeral_nil.mp numeral, List.nil_append, List.length_nil, pow_zero, mul_one, add_zero]
    cases rest with
    | nil => rfl
    | cons c rest => rw [digits, ends c rfl]
  | cons c run ih =>
    obtain ⟨d, lower, read, remaining, rfl⟩ := numeral_cons.mp numeral
    rw [List.cons_append, digits, read]
    dsimp only
    rw [ih remaining, List.length_cons, pow_succ]
    ring_nf

theorem digits_whole {start : ℕ} : digits base start text = (value, []) ↔
    ∃ lower, Numeral (digitValue base) base text lower ∧ value = start * base ^ text.length + lower := by
  constructor
  · intro read
    induction text generalizing start with
    | nil =>
      cases read
      exact ⟨0, numeral_nil.mpr rfl, by rw [List.length_nil, pow_zero, mul_one, add_zero]⟩
    | cons c rest ih =>
      rw [digits] at read
      cases found : digitValue base c with
      | none =>
        rw [found] at read
        cases read
      | some d =>
        rw [found] at read
        obtain ⟨lower, numeral, rfl⟩ := ih read
        refine ⟨_, numeral_cons.mpr ⟨d, lower, found, numeral, rfl⟩, ?_⟩
        rw [List.length_cons, pow_succ]
        ring
  · intro given
    obtain ⟨lower, numeral, rfl⟩ := given
    have ends : ∀ c ∈ ([] : List Char).head?, digitValue base c = none := fun _ member => by cases member
    have run := digits_run numeral ends start
    rwa [List.append_nil] at run

theorem digits_whole_zero : digits base 0 text = (value, []) ↔ Numeral (digitValue base) base text value := by
  rw [digits_whole]
  simp

theorem numeral_head {c : Char} (numeral : Numeral (digitValue base) base (c :: rest) value) :
    (digitValue base c).isSome = true := by
  obtain ⟨d, _, read, _⟩ := numeral_cons.mp numeral
  rw [read]
  rfl

theorem octal_leading : Numeral (digitValue 8) 8 ('0' :: rest) value ↔ Numeral (digitValue 8) 8 rest value := by
  have zero : digitValue 8 '0' = some 0 := by decide
  rw [numeral_cons]
  constructor
  · intro given
    obtain ⟨d, lower, read, numeral, rfl⟩ := given
    cases zero.symm.trans read
    rwa [zero_mul, zero_add]
  · intro numeral
    exact ⟨0, value, zero, numeral, by rw [zero_mul, zero_add]⟩

theorem marked_iff {mark : Char} {rest : List Char} :
    ((mark == 'x' || mark == 'X') && (rest.head?.bind (digitValue 16)).isSome) = true ↔
      (mark = 'x' ∨ mark = 'X') ∧ (rest.head?.bind (digitValue 16)).isSome = true := by
  rw [Bool.and_eq_true, Bool.or_eq_true, beq_iff_eq, beq_iff_eq]

theorem magnitude_whole : Strtoul.magnitude text = some (value, []) ↔ Literal text value := by
  constructor
  · intro read
    unfold Strtoul.magnitude at read
    split at read
    · cases read
    · rename_i mark rest
      split at read
      · rename_i marked
        obtain ⟨isMark, follows⟩ := marked_iff.mp marked
        refine .hexadecimal isMark ?_ (digits_whole_zero.mp (Option.some.inj read))
        intro empty
        rw [empty] at follows
        cases follows
      · exact .octal (octal_leading.mp (digits_whole_zero.mp (Option.some.inj read)))
    · rename_i c rest other
      split at read
      · by_cases zero : c = '0'
        · rw [if_pos zero] at read
          subst zero
          exact .octal (octal_leading.mp (digits_whole_zero.mp (Option.some.inj read)))
        · rw [if_neg zero] at read
          exact .decimal zero (digits_whole_zero.mp (Option.some.inj read))
      · cases read
  · intro literal
    cases literal with
    | @decimal c rest _ leading numeral =>
      have plain : Strtoul.magnitude (c :: rest) =
          if (digitValue 10 c).isSome then some (digits (if c = '0' then 8 else 10) 0 (c :: rest)) else none := by
        rw [Strtoul.magnitude]
        intro mark other same
        exact absurd same leading
      rw [plain, if_pos (numeral_head numeral), if_neg leading, digits_whole_zero.mpr numeral]
    | @octal rest _ numeral =>
      have whole := digits_whole_zero.mpr (octal_leading.mpr numeral)
      cases rest with
      | nil =>
        rw [← whole]
        rfl
      | cons mark rest =>
        have unmarked : ¬((mark == 'x' || mark == 'X') && (rest.head?.bind (digitValue 16)).isSome) = true := by
          rw [marked_iff]
          intro given
          have isDigit := numeral_head numeral
          rcases given.1 with rfl | rfl
          · exact absurd isDigit (by decide)
          · exact absurd isDigit (by decide)
        rw [Strtoul.magnitude, if_neg unmarked, whole]
    | @hexadecimal mark rest _ marked present numeral =>
      have follows : (rest.head?.bind (digitValue 16)).isSome = true := by
        cases rest with
        | nil => exact absurd rfl present
        | cons c rest => exact numeral_head numeral
      rw [Strtoul.magnitude, if_pos (marked_iff.mpr ⟨marked, follows⟩), digits_whole_zero.mpr numeral]

theorem literal_unique {other : ℕ} (one : Literal text value) (also : Literal text other) : value = other := by
  have same := (magnitude_whole.mpr one).symm.trans (magnitude_whole.mpr also)
  cases same
  rfl

theorem char_le_iff {c d : Char} : c ≤ d ↔ c.toNat ≤ d.toNat := Iff.rfl

theorem decimal_digit_iff {c : Char} : (digitValue 10 c).isSome = true ↔ 48 ≤ c.toNat ∧ c.toNat ≤ 57 := by
  have zero : '0'.toNat = 48 := rfl
  have nine : '9'.toNat = 57 := rfl
  have lower : 'a'.toNat = 97 := rfl
  have upper : 'A'.toNat = 65 := rfl
  unfold digitValue
  simp only [Bool.and_eq_true, decide_eq_true_eq, char_le_iff, zero, nine, lower, upper, Option.isSome_ite]
  split_ifs <;> omega

/-- A literal after white space and a sign, either of which may be missing. -/
structure Spelled (text blanks mark literal : List Char) (magnitude : ℕ) : Prop where
  joined : text = blanks ++ (mark ++ literal)
  blank : ∀ c ∈ blanks, isSpace c = true
  marks : mark ∈ [[], ['+'], ['-']]
  reads : Literal literal magnitude

/-- A literal begins with a decimal digit. -/
theorem literal_head (literal : Literal text value) : ∃ c rest, text = c :: rest ∧ 48 ≤ c.toNat ∧ c.toNat ≤ 57 := by
  cases literal with
  | decimal leading numeral => exact ⟨_, _, rfl, decimal_digit_iff.mp (numeral_head numeral)⟩
  | octal numeral => exact ⟨_, _, rfl, by decide⟩
  | hexadecimal marked present numeral => exact ⟨_, _, rfl, by decide⟩

theorem literal_plain (literal : Literal text value) :
    text.dropWhile isSpace = text ∧ text.head? ≠ some '+' ∧ text.head? ≠ some '-' := by
  obtain ⟨c, rest, rfl, least, most⟩ := literal_head literal
  have solid : isSpace c = false := by
    rw [isSpace, Bool.or_eq_false_iff, beq_eq_false_iff_ne, Bool.and_eq_false_iff, decide_eq_false_iff_not,
      decide_eq_false_iff_not]
    omega
  refine ⟨by rw [List.dropWhile_cons, solid, if_neg Bool.false_ne_true], ?_, ?_⟩
  · intro plus
    cases plus
    exact absurd least (by decide)
  · intro minus
    cases minus
    exact absurd least (by decide)

theorem Spelled.signed {blanks mark literal : List Char} {magnitude : ℕ}
    (spelled : Spelled text blanks mark literal magnitude) :
    sign (text.dropWhile isSpace) = (decide (mark = ['-']), literal) := by
  obtain ⟨solid, plain⟩ := literal_plain spelled.reads
  have trimmed : (mark ++ literal).dropWhile isSpace = mark ++ literal := by
    have marks := spelled.marks
    simp only [List.mem_cons, List.not_mem_nil, or_false] at marks
    rcases marks with rfl | rfl | rfl
    · exact solid
    · rfl
    · rfl
  rw [spelled.joined, List.dropWhile_append_of_pos spelled.blank, trimmed, sign_append spelled.marks plain]

/-- What the conversion makes of a literal and its sign, modulo 2^64. -/
def signed (mark : List Char) (magnitude : ℕ) : ℕ :=
  if mark = ['-'] then (2 ^ 64 - magnitude) % 2 ^ 64 else magnitude

theorem stoul_whole : stoul text = .ok (value, []) ↔
    ∃ blanks mark literal magnitude, Spelled text blanks mark literal magnitude ∧ magnitude < 2 ^ 64 ∧
      value = signed mark magnitude := by
  unfold stoul
  constructor
  · intro parsed
    obtain ⟨mark, marks, split, negative⟩ := sign_split (text.dropWhile isSpace)
    dsimp only at parsed
    split at parsed
    · cases parsed
    · rename_i magnitude after found
      split at parsed
      · cases parsed
      · rename_i small
        cases parsed
        refine ⟨text.takeWhile isSpace, mark, _, magnitude, ⟨?_, fun c => List.mem_takeWhile_imp, marks,
          magnitude_whole.mp found⟩, not_le.mp small, ?_⟩
        · rw [← split, List.takeWhile_append_dropWhile]
        · rw [signed, negative]
          simp only [decide_eq_true_eq]
  · intro given
    obtain ⟨blanks, mark, literal, magnitude, spelled, small, rfl⟩ := given
    dsimp only
    rw [spelled.signed, magnitude_whole.mpr spelled.reads]
    dsimp only
    rw [if_neg (not_le.mpr small), signed]
    simp only [decide_eq_true_eq]

example : stoul " -1".toList = .ok (2 ^ 64 - 1, []) := by decide

theorem parseCanId_ok {text : String} {id : Id} :
    parseCanId text = .ok id ↔ stoul text.toList = .ok (id.toNat, []) := by
  unfold parseCanId
  rcases stoul text.toList with fault | ⟨number, rest⟩
  · exact iff_of_false throw_ne_ok fun parsed => by cases parsed
  · dsimp only
    simp only [check_eq_ok, pure_eq_ok, not_or, not_not, not_le, Except.ok.injEq, Prod.mk.injEq]
    constructor
    · intro given
      obtain ⟨⟨ended, narrow⟩, rfl⟩ := given
      exact ⟨by rw [BitVec.toNat_ofNat, Nat.mod_eq_of_lt narrow], ended⟩
    · intro given
      obtain ⟨rfl, ended⟩ := given
      exact ⟨⟨ended, id.isLt⟩, by rw [BitVec.ofNat_toNat, BitVec.setWidth_eq]⟩

/-- Nothing stands before a literal that is the whole text. -/
theorem Spelled.bare {blanks mark literal : List Char} {magnitude : ℕ}
    (spelled : Spelled text blanks mark literal magnitude) (whole : Literal text value) : blanks = [] ∧ mark = [] := by
  obtain ⟨solid, plain⟩ := literal_plain whole
  have unsigned : sign text = (false, text) := sign_append List.mem_cons_self plain
  have signed := spelled.signed
  rw [solid, unsigned, Prod.mk.injEq] at signed
  have lengths := congrArg List.length spelled.joined
  rw [signed.2, List.length_append, List.length_append] at lengths
  exact ⟨List.length_eq_zero_iff.mp (by omega), List.length_eq_zero_iff.mp (by omega)⟩

/-- The whole text is a literal of the number, which has room in so many bits. -/
def Means (bits : ℕ) (text : List Char) (value : ℕ) : Prop := Literal text value ∧ value < 2 ^ bits

/-- A number in range after white space or a plus sign, or a minus sign before 0 or before a
number so close below 2^64 that the negation wraps around into the range. -/
def Misread (bits : ℕ) (text : List Char) : Prop :=
  ∃ blanks mark literal magnitude, Spelled text blanks mark literal magnitude ∧ (blanks ≠ [] ∨ mark ≠ []) ∧
    (mark ≠ ['-'] ∧ magnitude < 2 ^ bits ∨
      mark = ['-'] ∧ (magnitude = 0 ∨ 2 ^ 64 - 2 ^ bits < magnitude ∧ magnitude < 2 ^ 64))

theorem signed_in_range_iff {bits : ℕ} (narrow : bits ≤ 32) {mark : List Char} {magnitude : ℕ} :
    magnitude < 2 ^ 64 ∧ signed mark magnitude < 2 ^ bits ↔
      mark ≠ ['-'] ∧ magnitude < 2 ^ bits ∨
        mark = ['-'] ∧ (magnitude = 0 ∨ 2 ^ 64 - 2 ^ bits < magnitude ∧ magnitude < 2 ^ 64) := by
  have below : 2 ^ bits ≤ 2 ^ 32 := Nat.pow_le_pow_right (by decide) narrow
  have above : 0 < 2 ^ bits := Nat.two_pow_pos bits
  unfold signed
  by_cases minus : mark = ['-']
  · simp only [minus, ↓reduceIte, ne_eq, not_true_eq_false, false_and, true_and, false_or]
    omega
  · simp only [minus, ↓reduceIte, ne_eq, not_false_eq_true, true_and, false_and, or_false]
    omega

/-- A parser that takes what the conversion reads to its end, up to its width, misreads these
texts and no other. -/
theorem means_iff {bits : ℕ} (narrow : bits ≤ 32) {accepts : ℕ → Prop}
    (reads : ∀ value, accepts value ↔ stoul text = .ok (value, []) ∧ value < 2 ^ bits) :
    (∀ value, accepts value → Means bits text value) ↔ ¬Misread bits text := by
  constructor
  · intro means misread
    obtain ⟨blanks, mark, literal, magnitude, spelled, prefixed, window⟩ := misread
    obtain ⟨small, fits⟩ := (signed_in_range_iff narrow).mpr window
    have whole := stoul_whole.mpr ⟨blanks, mark, literal, magnitude, spelled, small, rfl⟩
    obtain ⟨noBlanks, noMark⟩ := spelled.bare (means _ ((reads _).mpr ⟨whole, fits⟩)).1
    exact prefixed.elim (absurd noBlanks) (absurd noMark)
  · intro faithful value accepted
    obtain ⟨whole, fits⟩ := (reads value).mp accepted
    obtain ⟨blanks, mark, literal, magnitude, spelled, small, rfl⟩ := stoul_whole.mp whole
    by_cases prefixed : blanks ≠ [] ∨ mark ≠ []
    · exact absurd ⟨blanks, mark, literal, magnitude, spelled, prefixed,
        (signed_in_range_iff narrow).mp ⟨small, fits⟩⟩ faithful
    · obtain ⟨noBlanks, noMark⟩ := not_or.mp prefixed
      rw [not_not] at noBlanks noMark
      subst noBlanks noMark
      have joined : text = literal := spelled.joined
      exact ⟨joined ▸ spelled.reads, fits⟩

/-- Numbers mean what they say in every text but those. -/
theorem numbers_mean_iff (text path : String) :
    ((∀ id, parseCanId text = .ok id → Means 16 text.toList id.toNat) ↔ ¬Misread 16 text.toList) ∧
      ((∀ value, parseUint32 (.scalar text) path = .ok value → Means 32 text.toList value) ↔ ¬Misread 32 text.toList) ∧
      ((∀ id, parseUint16 (.scalar text) path = .ok id → Means 16 text.toList id.toNat) ↔ ¬Misread 16 text.toList) := by
  have ids {parse : Except Fault Id}
      (parsed : ∀ id, parse = .ok id ↔ stoul text.toList = .ok (id.toNat, [])) :
      (∀ id, parse = .ok id → Means 16 text.toList id.toNat) ↔ ¬Misread 16 text.toList := by
    have reads (value : ℕ) : (∃ id, parse = .ok id ∧ id.toNat = value) ↔
        stoul text.toList = .ok (value, []) ∧ value < 2 ^ 16 := by
      constructor
      · intro given
        obtain ⟨id, accepted, rfl⟩ := given
        exact ⟨(parsed id).mp accepted, id.isLt⟩
      · intro given
        have same : (BitVec.ofNat 16 value).toNat = value := Nat.mod_eq_of_lt given.2
        exact ⟨_, (parsed _).mpr (same.symm ▸ given.1), same⟩
    rw [← means_iff (by decide) reads]
    constructor
    · intro means value accepted
      obtain ⟨id, read, rfl⟩ := accepted
      exact means id read
    · exact fun means id read => means _ ⟨id, read, rfl⟩
  refine ⟨ids fun _ => parseCanId_ok, means_iff (by decide) fun value => ?_, ids fun id => ?_⟩
  · rw [parseUint32_ok]
    constructor
    · intro given
      obtain ⟨_, same, read⟩ := given
      cases same
      exact read
    · exact fun read => ⟨text, rfl, read⟩
  · rw [parseUint16_ok]
    constructor
    · intro given
      obtain ⟨_, same, read⟩ := given
      cases same
      exact read
    · exact fun read => ⟨text, rfl, read⟩

theorem not_literal {c : Char} (other : ¬(48 ≤ c.toNat ∧ c.toNat ≤ 57)) : ¬Literal (c :: rest) value := by
  intro literal
  obtain ⟨_, _, same, digit⟩ := literal_head literal
  cases same
  exact other digit

/-- A negative number, one with a plus sign and one after a space are accepted. -/
theorem signed_texts_are_accepted :
    (parseCanId "-18446744073709551615" = .ok 1 ∧ ¬Means 16 "-18446744073709551615".toList 1) ∧
      (parseUint32 (.scalar "-18446744073709551615") "usb.nominal_baud" = .ok 1 ∧
        ¬Means 32 "-18446744073709551615".toList 1) ∧
      (parseUint16 (.scalar "+17") "motors[0].can_id" = .ok 17 ∧ ¬Means 16 "+17".toList 17) ∧
      (parseUint16 (.scalar " 17") "motors[0].can_id" = .ok 17 ∧ ¬Means 16 " 17".toList 17) :=
  ⟨⟨by decide +kernel, fun means => not_literal (by decide) means.1⟩,
    ⟨by decide +kernel, fun means => not_literal (by decide) means.1⟩,
    ⟨by decide +kernel, fun means => not_literal (by decide) means.1⟩,
    ⟨by decide +kernel, fun means => not_literal (by decide) means.1⟩⟩

end DmOpenarm.Numbers
