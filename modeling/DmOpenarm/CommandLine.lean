import DmOpenarm.Strtod
import DmOpenarm.Library.Effect
import DmOpenarm.Library.Words

/-! The command lines of the FIFO. -/

namespace DmOpenarm.CommandLine
open Types Strtoul Strtod Library.Effect Library.Ieee Library.Words

inductive MitControlCommandKind where
  | status
  | move
  | homeOne
  | homeAll
  | stop
  deriving DecidableEq, Repr

structure MitControlCommand where
  kind : MitControlCommandKind := .status
  canId : Id := 0
  deltaRad : Double := .finite 0
  deriving DecidableEq, Repr

def splitTokens (line : String) : List String := (words isSpace line.toList).map String.ofList

def parseCanId (text : String) : Except Fault Id :=
  match stoul text.toList with
  | .error _ => throw (.invalidArgument ("invalid CAN ID: " ++ text))
  | .ok (value, rest) =>
      if rest ≠ [] ∨ 2 ^ 16 ≤ value then throw (.invalidArgument ("invalid CAN ID: " ++ text))
      else pure (BitVec.ofNat 16 value)

def requireArgCount (tokens : List String) (expected : Nat) (command : String) : Except Fault Unit :=
  if tokens.length ≠ expected then
    throw (.invalidArgument (command ++ " command expects " ++ toString (expected - 1) ++ " argument(s)"))
  else pure ()

section
variable (outOfRange : ℚ → Bool)

def parseDelta (text : String) (maxDeltaRad : Double) : Except Fault Double :=
  match stod outOfRange text.toList with
  | .error _ => throw (.invalidArgument ("invalid delta_rad: " ++ text))
  | .ok (value, rest) =>
      if rest ≠ [] then throw (.invalidArgument ("invalid delta_rad: " ++ text))
      else if maxDeltaRad.lt value.abs then throw (.invalidArgument "move delta exceeds limit")
      else pure value

/-- The tokens that stand in the code as `tokens[1]` and `tokens[2]` are read after their
number has been checked. -/
def parseMitControlCommand (line : String) (maxDeltaRad : Double := .finite (1 / 10)) :
    Except Fault MitControlCommand :=
  match splitTokens line with
  | [] => throw (.invalidArgument "empty command")
  | command :: arguments => do
      let tokens := command :: arguments
      if command = "status" then
        requireArgCount tokens 1 "status"
        pure {}
      else if command = "move" then
        requireArgCount tokens 3 "move"
        let canId ← parseCanId (tokens.getD 1 "")
        let deltaRad ← parseDelta outOfRange (tokens.getD 2 "") maxDeltaRad
        pure { kind := .move, canId, deltaRad }
      else if command = "home" then
        requireArgCount tokens 2 "home"
        if tokens.getD 1 "" = "all" then pure { kind := .homeAll }
        else
          let canId ← parseCanId (tokens.getD 1 "")
          pure { kind := .homeOne, canId }
      else if command = "stop" then
        requireArgCount tokens 1 "stop"
        pure { kind := .stop }
      else throw (.invalidArgument ("unknown command: " ++ command))

end

variable {outOfRange : ℚ → Bool}

theorem splitTokens_trimmed {line token : String} (member : token ∈ splitTokens line) :
    token.toList.dropWhile isSpace = token.toList := by
  rw [splitTokens, List.mem_map] at member
  obtain ⟨word, inside, rfl⟩ := member
  rw [String.toList_ofList]
  obtain ⟨present, solid⟩ := word_no_space inside
  cases word with
  | nil => exact absurd rfl present
  | cons c rest => rw [List.dropWhile_cons, solid c List.mem_cons_self, if_neg Bool.false_ne_true]

theorem delta_trimmed {line command id delta : String} (tokens : splitTokens line = [command, id, delta]) :
    delta.toList.dropWhile isSpace = delta.toList := by
  have member : delta ∈ splitTokens line := by
    rw [tokens]
    simp
  exact splitTokens_trimmed member

theorem requireArgCount_ok {tokens : List String} {expected : Nat} {command : String} {done : Unit} :
    requireArgCount tokens expected command = .ok done ↔ tokens.length = expected := by
  rw [requireArgCount, check_eq_ok, pure_eq_ok, not_not]
  exact and_iff_left rfl

theorem parseDelta_ok {text : String} {limit value : Double} :
    parseDelta outOfRange text limit = .ok value ↔
      stod outOfRange text.toList = .ok (value, []) ∧ limit.lt value.abs = false := by
  unfold parseDelta
  rcases stod outOfRange text.toList with fault | ⟨number, rest⟩
  · exact iff_of_false throw_ne_ok fun parsed => by cases parsed.1
  · simp only [check_eq_ok, pure_eq_ok, not_not, Bool.not_eq_true, Except.ok.injEq, Prod.mk.injEq]
    constructor
    · intro given
      obtain ⟨ended, within, same⟩ := given
      exact ⟨⟨same, ended⟩, same ▸ within⟩
    · intro given
      obtain ⟨⟨same, ended⟩, within⟩ := given
      exact ⟨ended, same ▸ within, same⟩

theorem stod_nan {text rest : List Char} :
    stod outOfRange text = .ok (.nan, rest) ↔ strtod text = some (.nan, rest) := by
  unfold stod
  rcases strtod text with _ | ⟨value | negative | _, remaining⟩
  · simp
  · cases refused : outOfRange value <;> simp [refused]
  · simp
  · simp

/-- The commands that lists of tokens spell out. -/
inductive Spells (outOfRange : ℚ → Bool) (limit : Double) : List String → MitControlCommand → Prop where
  | status : Spells outOfRange limit ["status"] {}
  | move {id delta : String} {canId : Id} {deltaRad : Double} (target : parseCanId id = .ok canId)
      (moved : parseDelta outOfRange delta limit = .ok deltaRad) :
      Spells outOfRange limit ["move", id, delta] { kind := .move, canId, deltaRad }
  | homeAll : Spells outOfRange limit ["home", "all"] { kind := .homeAll }
  | homeOne {id : String} {canId : Id} (other : id ≠ "all") (target : parseCanId id = .ok canId) :
      Spells outOfRange limit ["home", id] { kind := .homeOne, canId }
  | stop : Spells outOfRange limit ["stop"] { kind := .stop }

theorem spells_of_parsed {line : String} {limit : Double} {command : MitControlCommand}
    (parsed : parseMitControlCommand outOfRange line limit = .ok command) :
    Spells outOfRange limit (splitTokens line) command := by
  unfold parseMitControlCommand at parsed
  rcases tokens : splitTokens line with _ | ⟨name, arguments⟩
  · rw [tokens] at parsed
    exact absurd parsed throw_ne_ok
  simp only [tokens] at parsed
  by_cases isStatus : name = "status"
  · simp only [if_pos isStatus, bind_eq_ok, requireArgCount_ok, pure_eq_ok] at parsed
    obtain ⟨_, count, same⟩ := parsed
    cases List.eq_nil_of_length_eq_zero (Nat.succ.inj count)
    subst same isStatus
    exact .status
  by_cases isMove : name = "move"
  · simp only [if_neg isStatus, if_pos isMove, bind_eq_ok, requireArgCount_ok, pure_eq_ok] at parsed
    obtain ⟨_, count, canId, target, deltaRad, moved, same⟩ := parsed
    obtain ⟨id, delta, rfl⟩ := List.length_eq_two.mp (Nat.succ.inj count)
    subst same isMove
    exact .move target moved
  by_cases isHome : name = "home"
  · simp only [if_neg isStatus, if_neg isMove, if_pos isHome, bind_eq_ok, requireArgCount_ok] at parsed
    obtain ⟨_, count, parsed⟩ := parsed
    obtain ⟨id, rfl⟩ := List.length_eq_one_iff.mp (Nat.succ.inj count)
    subst isHome
    change (if id = "all" then _ else _) = _ at parsed
    by_cases all : id = "all"
    · rw [if_pos all, pure_eq_ok] at parsed
      subst all parsed
      exact .homeAll
    · simp only [if_neg all, bind_eq_ok, pure_eq_ok] at parsed
      obtain ⟨canId, target, same⟩ := parsed
      subst same
      exact .homeOne all target
  by_cases isStop : name = "stop"
  · simp only [if_neg isStatus, if_neg isMove, if_neg isHome, if_pos isStop, bind_eq_ok, requireArgCount_ok,
      pure_eq_ok] at parsed
    obtain ⟨_, count, same⟩ := parsed
    cases List.eq_nil_of_length_eq_zero (Nat.succ.inj count)
    subst same isStop
    exact .stop
  · rw [if_neg isStatus, if_neg isMove, if_neg isHome, if_neg isStop] at parsed
    exact absurd parsed throw_ne_ok

theorem parsed_of_spells {line : String} {limit : Double} {tokens : List String} {command : MitControlCommand}
    (split : splitTokens line = tokens) (spells : Spells outOfRange limit tokens command) :
    parseMitControlCommand outOfRange line limit = .ok command := by
  unfold parseMitControlCommand
  rw [split]
  cases spells with
  | status => rfl
  | move target moved =>
    change (parseCanId _ >>= fun canId => parseDelta outOfRange _ limit >>= fun deltaRad => pure _) = _
    exact bind_eq_ok.mpr ⟨_, target, bind_eq_ok.mpr ⟨_, moved, rfl⟩⟩
  | homeAll => rfl
  | @homeOne id canId other target =>
    change (if id = "all" then _ else parseCanId id >>= fun canId => pure _) = _
    rw [if_neg other]
    exact bind_eq_ok.mpr ⟨canId, target, rfl⟩
  | stop => rfl

/-- A line is accepted exactly if its tokens spell out the command. -/
theorem parse_ok_iff {line : String} {limit : Double} {command : MitControlCommand} :
    parseMitControlCommand outOfRange line limit = .ok command ↔ Spells outOfRange limit (splitTokens line) command :=
  ⟨spells_of_parsed, parsed_of_spells rfl⟩

example : parseMitControlCommand (fun _ => false) "move 1 -0.03" =
    .ok { kind := .move, canId := 1, deltaRad := .finite (-3 / 100) } := by decide +kernel
example : parseMitControlCommand (fun _ => false) "move 0x01 0.2" =
    .error (.invalidArgument "move delta exceeds limit") := by decide +kernel

/-- A move whose ID is accepted and whose displacement spells NaN. -/
def NanMove (line : String) : Prop :=
  ∃ id delta, splitTokens line = ["move", id, delta] ∧ (∃ canId, parseCanId id = .ok canId) ∧
    NanSpelling delta.toList

/-- The one comparison lets NaN through, so moves are limited on every line but those. -/
theorem move_is_limited_iff (outOfRange : ℚ → Bool) (line : String) (limit : ℚ) :
    (∀ command, parseMitControlCommand outOfRange line (.finite limit) = .ok command → command.kind = .move →
      ∃ delta, command.deltaRad = .finite delta ∧ -limit ≤ delta ∧ delta ≤ limit) ↔ ¬NanMove line := by
  constructor
  · intro limited given
    obtain ⟨id, delta, tokens, ⟨canId, target⟩, spelled⟩ := given
    have isNan : strtod delta.toList = some (.nan, []) := (strtod_nan_iff (delta_trimmed tokens)).mpr spelled
    have moved : parseDelta outOfRange delta (.finite limit) = .ok .nan :=
      parseDelta_ok.mpr ⟨stod_nan.mpr isNan, Double.lt_abs_eq_false.mpr (.inl rfl)⟩
    obtain ⟨_, isFinite, _⟩ := limited _ (parsed_of_spells tokens (.move target moved)) rfl
    cases isFinite
  · intro spellsNumber command parsed kind
    have spells := parse_ok_iff.mp parsed
    generalize tokens : splitTokens line = words at spells
    cases spells with
    | @move id delta canId deltaRad target moved =>
      obtain ⟨read, within⟩ := parseDelta_ok.mp moved
      rcases Double.lt_abs_eq_false.mp within with isNan | bounded
      · rw [isNan, stod_nan] at read
        have spelled := (strtod_nan_iff (delta_trimmed tokens)).mp read
        exact absurd ⟨id, delta, tokens, ⟨canId, target⟩, spelled⟩ spellsNumber
      · exact bounded
    | status | homeAll | homeOne | stop => cases kind

/-- An accepted line whose displacement is no number. -/
theorem nan_is_accepted : ∃ command,
    parseMitControlCommand (fun _ => false) "move 0x01 nan" (.finite (1 / 10)) = .ok command ∧ command.kind = .move ∧
      ¬∃ delta, command.deltaRad = .finite delta ∧ -(1 / 10) ≤ delta ∧ delta ≤ 1 / 10 := by
  have parsed : parseMitControlCommand (fun _ => false) "move 0x01 nan" (.finite (1 / 10)) =
      .ok { kind := .move, canId := 1, deltaRad := .nan } := by decide +kernel
  refine ⟨_, parsed, rfl, ?_⟩
  intro limited
  obtain ⟨_, isFinite, _⟩ := limited
  cases isFinite

end DmOpenarm.CommandLine
