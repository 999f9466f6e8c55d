import DmOpenarm.Numbers
import Mathlib.Tactic.IntervalCases

/-! The texts of FIFO commands: how identifiers and displacements are written, and that every line
that shows the tokens of a command is read as that command. -/

namespace DmOpenarm.CommandTexts
open Types Strtoul Strtod CommandLine Numbers Library.Effect Library.Ieee Library.Words Library.Numerals

/-- An identifier in decimal without leading zeros, or in hexadecimal after 0x. -/
inductive IdText : List Char → ℕ → Prop where
  | decimal {text : List Char} {value : ℕ} (numeral : Numeral (digitValue 10) 10 text value) (present : text ≠ [])
      (unpadded : text.head? = some '0' → text = ['0']) : IdText text value
  | hexadecimal {digits : List Char} {value : ℕ} (numeral : Numeral (digitValue 16) 16 digits value)
      (present : digits ≠ []) : IdText ('0' :: 'x' :: digits) value

theorem IdText.literal {text : List Char} {value : ℕ} (written : IdText text value) : Literal text value := by
  cases written with
  | decimal numeral present unpadded =>
    cases text with
    | nil => exact absurd rfl present
    | cons c rest =>
      by_cases zero : c = '0'
      · subst zero
        have whole := unpadded rfl
        rw [whole] at numeral ⊢
        obtain ⟨d, lower, read, nothing, rfl⟩ := numeral_cons.mp numeral
        have zero : d = 0 := Option.some.inj (read.symm.trans (show digitValue 10 '0' = some 0 by decide))
        rw [zero, numeral_nil.mp nothing]
        exact .octal (numeral_nil.mpr rfl)
      · exact .decimal zero numeral
  | hexadecimal numeral present => exact .hexadecimal (.inl rfl) present numeral

theorem digitValue_digitChar {base : ℕ} (few : base ≤ 16) (d : ℕ) (small : d < base) :
    digitValue base d.digitChar = some d := by
  have below : d < 16 := by omega
  interval_cases d <;> simp [digitValue, Nat.digitChar, small]

/-- Every identifier has both texts. -/
theorem idText_toDigits (id : ℕ) : IdText (Nat.toDigits 10 id) id ∧ IdText ('0' :: 'x' :: Nat.toDigits 16 id) id := by
  refine ⟨.decimal (numeral_toDigits (by decide) (digitValue_digitChar (by decide)) id) Nat.toDigits_ne_nil ?_,
    .hexadecimal (numeral_toDigits (by decide) (digitValue_digitChar (by decide)) id) Nat.toDigits_ne_nil⟩
  intro zero
  rcases Nat.eq_zero_or_pos id with rfl | positive
  · rfl
  · obtain ⟨d, rest, leading, small, same⟩ := toDigits_head (show 1 < 10 by decide) positive
    rw [same, List.head?_cons, Option.some.injEq] at zero
    interval_cases d <;> exact absurd zero (by decide)

theorem parseCanId_idText {text : List Char} {id : Id} (written : IdText text id.toNat) :
    parseCanId (String.ofList text) = .ok id := by
  rw [parseCanId_ok, String.toList_ofList, stoul_whole]
  exact ⟨[], [], text, id.toNat, ⟨rfl, List.forall_mem_nil _, List.mem_cons_self, written.literal⟩,
    id.isLt.trans (by decide), rfl⟩

/-- Decimal digits, with a point before, among or after them. -/
inductive MantissaText : List Char → ℚ → Prop where
  | whole {digits : List Char} {value : ℕ} (numeral : Numeral (digitValue 10) 10 digits value) (present : digits ≠ []) :
      MantissaText digits value
  | point {whole fraction : List Char} {high low : ℕ} (numeral : Numeral (digitValue 10) 10 whole high)
      (after : Numeral (digitValue 10) 10 fraction low) (present : whole ≠ [] ∨ fraction ≠ []) :
      MantissaText (whole ++ '.' :: fraction) (high + low / 10 ^ fraction.length)

/-- Nothing, or an e and a power of ten. -/
inductive ExponentText : List Char → ℤ → Prop where
  | absent : ExponentText [] 0
  | power {letter : Char} {mark digits : List Char} {value : ℕ} (letters : letter = 'e' ∨ letter = 'E')
      (marks : mark ∈ [[], ['+'], ['-']]) (numeral : Numeral (digitValue 10) 10 digits value) (present : digits ≠ []) :
      ExponentText (letter :: (mark ++ digits)) (if mark = ['-'] then -value else value)

/-- A decimal literal of a double. -/
inductive DecimalText : List Char → ℚ → Prop where
  | literal {mark mantissa exponent : List Char} {value : ℚ} {power : ℤ} (marks : mark ∈ [[], ['+'], ['-']])
      (digits : MantissaText mantissa value) (scale : ExponentText exponent power) :
      DecimalText (mark ++ (mantissa ++ exponent)) ((if mark = ['-'] then -1 else 1) * (value * 10 ^ power))

theorem numeral_chars {digits : List Char} {value : ℕ} (numeral : Numeral (digitValue 10) 10 digits value) :
    ∀ c ∈ digits, 48 ≤ c.toNat ∧ c.toNat ≤ 57 := by
  induction digits generalizing value with
  | nil => exact List.forall_mem_nil _
  | cons c digits ih =>
    obtain ⟨_, _, _, later, _⟩ := numeral_cons.mp numeral
    exact List.forall_mem_cons.mpr ⟨decimal_digit_iff.mp (numeral_head numeral), ih later⟩

theorem ends_digits {c : Char} (other : ¬(48 ≤ c.toNat ∧ c.toNat ≤ 57)) : digitValue 10 c = none := by
  rw [← decimal_digit_iff, Option.isSome_iff_ne_none, not_not] at other
  exact other

theorem mantissa_text {text rest : List Char} {value : ℚ} (written : MantissaText text value)
    (ends : ∀ c ∈ rest.head?, ¬(48 ≤ c.toNat ∧ c.toNat ≤ 57) ∧ c ≠ '.') :
    ∃ all places, mantissa 10 (text ++ rest) = some (all, places, rest) ∧ (all : ℚ) / 10 ^ places = value := by
  have stops : ∀ c ∈ rest.head?, digitValue 10 c = none := fun c first => ends_digits (ends c first).1
  cases written with
  | @whole _ value numeral present =>
    refine ⟨value, 0, ?_, by simp⟩
    have read := digits_run numeral stops 0
    rw [zero_mul, zero_add] at read
    have longer : ¬rest.length = (text ++ rest).length := by
      have positive := List.length_pos_of_ne_nil present
      rw [List.length_append]
      omega
    unfold mantissa
    rw [read]
    dsimp only
    split
    · exact absurd rfl (ends _ rfl).2
    · rw [if_neg longer]
  | @point whole fraction high low numeral after present =>
    refine ⟨high * 10 ^ fraction.length + low, fraction.length, ?_, ?_⟩
    · have dot : ∀ c ∈ ('.' :: (fraction ++ rest)).head?, digitValue 10 c = none := by
        intro c first
        cases first
        decide
      have read := digits_run numeral dot 0
      rw [zero_mul, zero_add] at read
      have some_digit : ¬((('.' :: (fraction ++ rest)).length = (whole ++ '.' :: (fraction ++ rest)).length) ∧
          rest.length = (fraction ++ rest).length) := by
        intro given
        obtain ⟨noWhole, noFraction⟩ := given
        rw [List.length_append] at noWhole noFraction
        rcases present with some | some
        · have positive := List.length_pos_of_ne_nil some
          omega
        · have positive := List.length_pos_of_ne_nil some
          omega
      have places : (fraction ++ rest).length - rest.length = fraction.length := by
        rw [List.length_append, Nat.add_sub_cancel]
      rw [List.append_assoc, List.cons_append, mantissa]
      simp only [read, digits_run after stops, places]
      rw [if_neg some_digit]
    · push_cast
      field_simp

theorem exponent_text {text : List Char} {power : ℤ} (written : ExponentText text power) :
    exponent 'e' text = (power, []) := by
  cases written with
  | absent => rfl
  | @power letter mark digits value letters marks numeral present =>
    cases digits with
    | nil => exact absurd rfl present
    | cons c digits =>
      obtain ⟨least, most⟩ := decimal_digit_iff.mp (numeral_head numeral)
      have plain : (c :: digits).head? ≠ some '+' ∧ (c :: digits).head? ≠ some '-' := by
        constructor
        · intro plus
          cases plus
          exact absurd least (by decide)
        · intro minus
          cases minus
          exact absurd least (by decide)
      have begins : letter.toLower = 'e' ∧ ((c :: digits).head?.bind (digitValue 10)).isSome = true :=
        ⟨by rcases letters with rfl | rfl <;> decide, numeral_head numeral⟩
      rw [exponent, sign_append marks plain]
      dsimp only
      rw [if_pos begins, digits_whole_zero.mpr numeral]
      simp only [decide_eq_true_eq]

theorem exponent_head {text : List Char} {power : ℤ} (written : ExponentText text power) :
    ∀ c ∈ text.head?, c = 'e' ∨ c = 'E' := by
  cases written with
  | absent =>
    intro c first
    cases first
  | power letters marks numeral present =>
    intro c first
    cases first
    exact letters

theorem decimal_text {mantissa exponent : List Char} {value : ℚ} {power : ℤ} (digits : MantissaText mantissa value)
    (scale : ExponentText exponent power) : decimal (mantissa ++ exponent) = some (value * 10 ^ power, []) := by
  have ends : ∀ c ∈ exponent.head?, ¬(48 ≤ c.toNat ∧ c.toNat ≤ 57) ∧ c ≠ '.' := by
    intro c first
    rcases exponent_head scale c first with rfl | rfl
    · decide
    · decide
  obtain ⟨all, places, read, rfl⟩ := mantissa_text digits ends
  rw [decimal, read, Option.map_some]
  dsimp only
  rw [exponent_text scale, zpow_sub₀ (by norm_num), zpow_natCast]
  congr 2
  ring

/-- What the letters of the other notations are told from. -/
theorem decimal_chars {mantissa exponent : List Char} {value : ℚ} {power : ℤ} (digits : MantissaText mantissa value)
    (scale : ExponentText exponent power) :
    ∀ c ∈ mantissa ++ exponent, c.toNat ≤ 57 ∨ c = 'e' ∨ c = 'E' := by
  have signs {mark : List Char} (marks : mark ∈ [[], ['+'], ['-']]) : ∀ c ∈ mark, c.toNat ≤ 57 := by
    simp only [List.mem_cons, List.not_mem_nil, or_false] at marks
    rcases marks with rfl | rfl | rfl
    · exact List.forall_mem_nil _
    · exact List.forall_mem_singleton.mpr (by decide)
    · exact List.forall_mem_singleton.mpr (by decide)
  intro c member
  rcases List.mem_append.mp member with inside | inside
  · left
    cases digits with
    | whole numeral present => exact (numeral_chars numeral c inside).2
    | point numeral after present =>
      rcases List.mem_append.mp inside with before | inside
      · exact (numeral_chars numeral c before).2
      · rcases List.mem_cons.mp inside with rfl | behind
        · decide
        · exact (numeral_chars after c behind).2
  · cases scale with
    | absent => cases inside
    | power letters marks numeral present =>
      rcases List.mem_cons.mp inside with rfl | inside
      · exact .inr letters
      · left
        rcases List.mem_append.mp inside with before | behind
        · exact signs marks c before
        · exact (numeral_chars numeral c behind).2

theorem lower_of_decimal {c : Char} (given : c.toNat ≤ 57 ∨ c = 'e' ∨ c = 'E') :
    c.toLower ≠ 'x' ∧ c.toLower ≠ 'i' ∧ c.toLower ≠ 'n' := by
  rcases given with small | rfl | rfl
  · have same : c.toLower = c := by
      have noCapital : ¬(c.val ≥ 'A'.val ∧ c.val ≤ 'Z'.val) := by
        intro given
        have capital : 65 ≤ c.toNat := given.1
        omega
      exact dif_neg noCapital
    rw [same]
    refine ⟨?_, ?_, ?_⟩ <;>
      · intro letter
        subst letter
        exact absurd small (by decide)
  · decide
  · decide

theorem afterWord_other {letter : Char} {word text : List Char} (present : text ≠ [])
    (other : ∀ c ∈ text, c.toLower ≠ letter) : afterWord (letter :: word) text = none := by
  cases text with
  | nil => exact absurd rfl present
  | cons c text => rw [afterWord, if_neg (other c List.mem_cons_self)]

theorem magnitude_text {mantissa exponent : List Char} {value : ℚ} {power : ℤ} (digits : MantissaText mantissa value)
    (scale : ExponentText exponent power) :
    Strtod.magnitude (mantissa ++ exponent) = some (.finite (value * 10 ^ power), []) := by
  have chars (c : Char) (member : c ∈ mantissa ++ exponent) := lower_of_decimal (decimal_chars digits scale c member)
  have present : mantissa ++ exponent ≠ [] := by
    cases digits with
    | whole numeral present => exact List.append_ne_nil_of_left_ne_nil present _
    | point numeral after present => simp
  have read := decimal_text digits scale
  generalize mantissa ++ exponent = text at chars present read
  have none : special text = none := by
    have notI (word : List Char) : afterWord ('i' :: word) text = none :=
      afterWord_other present fun c member => (chars c member).2.1
    have notN (word : List Char) : afterWord ('n' :: word) text = none :=
      afterWord_other present fun c member => (chars c member).2.2
    have infinity : "infinity".toList = 'i' :: "nfinity".toList := by decide
    have inf : "inf".toList = 'i' :: "nf".toList := by decide
    have nan : "nan".toList = 'n' :: "an".toList := by decide
    rw [special, infinity, inf, nan, notI, notI, notN]
    rfl
  have plain : number text = decimal text := by
    unfold number
    split
    · rename_i mark rest
      rw [if_neg]
      intro given
      exact (chars mark (by simp)).1 given.1
    · rfl
  rw [Strtod.magnitude, none]
  dsimp only
  rw [plain, read]
  rfl

theorem mantissa_head {text : List Char} {value : ℚ} (written : MantissaText text value) :
    ∃ c rest, text = c :: rest ∧ isSpace c = false ∧ c ≠ '+' ∧ c ≠ '-' := by
  have digit {c : Char} {rest : List Char} {value : ℕ} (numeral : Numeral (digitValue 10) 10 (c :: rest) value) :
      isSpace c = false ∧ c ≠ '+' ∧ c ≠ '-' := by
    obtain ⟨least, most⟩ := decimal_digit_iff.mp (numeral_head numeral)
    refine ⟨?_, ?_, ?_⟩
    · rw [isSpace, Bool.or_eq_false_iff, beq_eq_false_iff_ne, Bool.and_eq_false_iff, decide_eq_false_iff_not,
        decide_eq_false_iff_not]
      omega
    · intro plus
      subst plus
      exact absurd least (by decide)
    · intro minus
      subst minus
      exact absurd least (by decide)
  cases written with
  | whole numeral present =>
    cases text with
    | nil => exact absurd rfl present
    | cons c rest => exact ⟨c, rest, rfl, digit numeral⟩
  | @point whole fraction high low numeral after present =>
    cases whole with
    | nil => exact ⟨'.', fraction, rfl, by decide⟩
    | cons c whole => exact ⟨c, _, rfl, digit numeral⟩

theorem strtod_text {text : List Char} {value : ℚ} (written : DecimalText text value) :
    strtod text = some (.finite value, []) := by
  cases written with
  | @literal mark mantissa exponent value power marks digits scale =>
    obtain ⟨c, rest, begins, solid, plus, minus⟩ := mantissa_head digits
    have trimmed : (mark ++ (mantissa ++ exponent)).dropWhile isSpace = mark ++ (mantissa ++ exponent) := by
      rw [begins]
      simp only [List.mem_cons, List.not_mem_nil, or_false] at marks
      rcases marks with rfl | rfl | rfl
      · rw [List.nil_append, List.cons_append, List.dropWhile_cons, solid, if_neg Bool.false_ne_true]
      · rfl
      · rfl
    have plain : (mantissa ++ exponent).head? ≠ some '+' ∧ (mantissa ++ exponent).head? ≠ some '-' := by
      rw [begins, List.cons_append, List.head?_cons]
      exact ⟨fun same => plus (Option.some.inj same), fun same => minus (Option.some.inj same)⟩
    rw [strtod, trimmed, sign_append marks plain]
    dsimp only
    rw [magnitude_text digits scale, Option.map_some]
    by_cases negative : mark = ['-']
    · simp [negative, Double.neg]
    · simp [negative]

example : strtod "2.5e-1".toList = some (.finite (1 / 4), []) := by decide +kernel

theorem stod_text {outOfRange : ℚ → Bool} {text : List Char} {value : ℚ} (written : DecimalText text value)
    (fits : outOfRange value = false) : stod outOfRange text = .ok (.finite value, []) := by
  rw [stod, strtod_text written]
  dsimp only
  rw [fits]
  rfl

/-- A displacement within the limit is returned as it was written. -/
theorem parseDelta_text {outOfRange : ℚ → Bool} {text : List Char} {value : ℚ} {limit : Double}
    (written : DecimalText text value) (fits : outOfRange value = false)
    (within : (Double.finite |value|).le limit = true) :
    parseDelta outOfRange (String.ofList text) limit = .ok (.finite value) := by
  rw [parseDelta_ok, String.toList_ofList]
  refine ⟨stod_text written fits, ?_⟩
  rw [Double.abs, Double.lt, within, Bool.not_true, Bool.and_false]

/-- The tokens of each command, with every spelling of its identifier and of its displacement. -/
inductive Written (outOfRange : ℚ → Bool) (limit : Double) : MitControlCommand → List (List Char) → Prop where
  | status : Written outOfRange limit {} ["status".toList]
  | stop : Written outOfRange limit { kind := .stop } ["stop".toList]
  | homeAll : Written outOfRange limit { kind := .homeAll } ["home".toList, "all".toList]
  | homeOne {canId : Id} {id : List Char} (target : IdText id canId.toNat) :
      Written outOfRange limit { kind := .homeOne, canId } ["home".toList, id]
  | move {canId : Id} {value : ℚ} {id delta : List Char} (target : IdText id canId.toNat)
      (moved : DecimalText delta value) (fits : outOfRange value = false)
      (within : (Double.finite |value|).le limit = true) :
      Written outOfRange limit { kind := .move, canId, deltaRad := .finite value } ["move".toList, id, delta]

/-- The shapes that the tokens of a command have. -/
def Shaped (tokens : List (List Char)) : Prop :=
  tokens = ["status".toList] ∨ tokens = ["stop".toList] ∨ (∃ which, tokens = ["home".toList, which]) ∨
    ∃ id delta, tokens = ["move".toList, id, delta]

theorem splitTokens_spaced {line : String} {tokens : List (List Char)} (spaced : Spaced isSpace tokens line.toList) :
    splitTokens line = tokens.map String.ofList := by
  rw [splitTokens, words_spaced spaced]

theorem spells_of_written {outOfRange : ℚ → Bool} {limit : Double} {command : MitControlCommand}
    {tokens : List (List Char)} (written : Written outOfRange limit command tokens) :
    Spells outOfRange limit (tokens.map String.ofList) command := by
  cases written with
  | status => exact .status
  | stop => exact .stop
  | homeAll => exact .homeAll
  | homeOne target =>
    refine .homeOne ?_ (parseCanId_idText target)
    intro all
    obtain ⟨c, rest, same, least, most⟩ := literal_head target.literal
    have letters := congrArg String.toList all
    rw [String.toList_ofList, same] at letters
    cases letters
    exact absurd most (by decide)
  | move target moved fits within => exact .move (parseCanId_idText target) (parseDelta_text moved fits within)

theorem shaped_of_spells {outOfRange : ℚ → Bool} {limit : Double} {command : MitControlCommand}
    {tokens : List String} (spells : Spells outOfRange limit tokens command) : Shaped (tokens.map String.toList) := by
  cases spells with
  | status => exact .inl rfl
  | move => exact .inr (.inr (.inr ⟨_, _, rfl⟩))
  | homeAll => exact .inr (.inr (.inl ⟨_, rfl⟩))
  | homeOne => exact .inr (.inr (.inl ⟨_, rfl⟩))
  | stop => exact .inr (.inl rfl)

/-- Every line that shows the tokens of a command, with any white space around them, is read as
that command, and every line with tokens of another shape is rejected. -/
theorem lines_parse_back (outOfRange : ℚ → Bool) (limit : Double) :
    (∀ command tokens (line : String), Written outOfRange limit command tokens → Spaced isSpace tokens line.toList →
      parseMitControlCommand outOfRange line limit = .ok command) ∧
    (∀ (line : String) tokens, Spaced isSpace tokens line.toList → ¬Shaped tokens →
      ∃ fault, parseMitControlCommand outOfRange line limit = .error fault) ∧
    ∀ line : String, ∃ tokens, Spaced isSpace tokens line.toList := by
  refine ⟨?_, ?_, fun line => exists_spaced isSpace line.toList⟩
  · intro command tokens line written spaced
    exact parsed_of_spells (splitTokens_spaced spaced) (spells_of_written written)
  · intro line tokens spaced other
    cases outcome : parseMitControlCommand outOfRange line limit with
    | error fault => exact ⟨fault, rfl⟩
    | ok command =>
      have shaped := shaped_of_spells (spells_of_parsed outcome)
      have same : (tokens.map String.ofList).map String.toList = tokens := by simp
      rw [splitTokens_spaced spaced, same] at shaped
      exact absurd shaped other

end DmOpenarm.CommandTexts
