import DmOpenarm.SentTargets
import Mathlib.Data.List.Chain

/-! The speed limit of arm_mit_control as the motors see it: how far two position codes that
follow each other on the wire can be apart, and how far the first of them from the reported one.
Positions and their codes are computed with float arithmetic read as exact. -/

namespace DmOpenarm.WireRamp
open Types hiding ControlMode
open Operations hiding machine
open Library.Quantise hiding step
open Damiao MotorBus Backend Traffic MitFrame Dispatch YamlLoader ArmMitControl Ramping BatchTraffic
open Examples ExampleTraffic HeldPose SentTargets
open Library.Effect Library.Ieee Library.Runs Library.Ramp Library.Latest

variable {config : ArmConfig} {outOfRange : ℚ → Bool} {narrowing : Narrowing} {platform : Platform}
  {pose : Fin config.motors.length → ℚ}

/-- Each batch is the ramp from the one before it to the requested targets in force. -/
theorem batches_ramp {session : Session config.motors.length}
    (reached : Reach (machine outOfRange config pose) Anything session) :
    Tracks pose session ∧ Throughout (fun sent earlier => ∀ motor, sent.commands motor =
      mitCommand (approachTarget (lastSent pose earlier motor) (sent.requested motor) (.finite (rampStep config))))
      session.batches := by
  induction reached with
  | start begins =>
    subst begins
    exact ⟨⟨rfl, rfl⟩, trivial⟩
  | @next session after action _ _ moved ih =>
    obtain ⟨tracks, batches⟩ := ih
    refine ⟨tracks.step moved, ?_⟩
    rcases step_cases moved with ⟨_, _, _, same⟩ | ⟨states, line, rest, rfl, lines, rfl⟩ | ⟨place, rfl⟩
    · rw [same]
      exact batches
    · rw [(handleLine_frame outOfRange states { session with lines := rest } line).2.2]
      exact batches
    · refine ⟨?_, batches⟩
      intro motor
      rw [← tracks.active]
      rfl

def qMax (config : ArmConfig) (motor : Fin config.motors.length) : ℚ :=
  (limitParam (toDamiaoModel (config.motors.get motor).model)).qMax

theorem qMax_pos (motor : Fin config.motors.length) : 0 < qMax config motor := (limitParam_pos _).1

/-- The position codes that a motor gets, in order. -/
def positionCodes (config : ArmConfig) (motor : Fin config.motors.length) (frames : List TxFrame) : List (BitVec 16) :=
  frames.filterMap fun frame =>
    if frame.id = (config.motors.get motor).canId then (readMit frame.data).map MitCodes.q else none

theorem positionCodes_append (motor : Fin config.motors.length) (first second : List TxFrame) :
    positionCodes config motor (first ++ second) =
      positionCodes config motor first ++ positionCodes config motor second :=
  List.filterMap_append

/-- Every motor owns its CAN ID. -/
def Owned (config : ArmConfig) : Prop :=
  ∀ motor : Fin config.motors.length, resolve config (config.motors.get motor).canId = some motor

instance (config : ArmConfig) : Decidable (Owned config) := inferInstanceAs (Decidable (∀ _, _))

theorem Owned.injective (owned : Owned config) {motor other : Fin config.motors.length}
    (same : (config.motors.get motor).canId = (config.motors.get other).canId) : motor = other := by
  have leads := owned motor
  rw [same, owned other] at leads
  exact (Option.some.inj leads).symm

theorem plan_owned (owned : Owned config) {commands : List MitCommand} (same : commands.length = config.motors.length) :
    plan config platform commands = List.ofFn fun motor : Fin config.motors.length =>
      ownFrame platform (config.motors.get motor) (commands.get (motor.cast same.symm)) := by
  apply List.ext_getElem?
  intro index
  by_cases inside : index < config.motors.length
  · have here := plan_get platform same ⟨index, inside⟩
    rw [frameOf_own platform (owned ⟨index, inside⟩)] at here
    rw [List.getElem?_ofFn, dif_pos inside]
    exact here
  · rw [List.getElem?_ofFn, dif_neg inside, List.getElem?_eq_none_iff, length_plan platform same]
    exact Nat.le_of_not_lt inside

/-- Of several things one gives a value. -/
theorem filterMap_single {α β : Type} {gives : α → Option β} {items : List α} {chosen : α} {value : β}
    (member : chosen ∈ items) (distinct : items.Nodup) (here : gives chosen = some value)
    (others : ∀ item, item ≠ chosen → gives item = none) : items.filterMap gives = [value] := by
  induction items with
  | nil => cases member
  | cons item rest ih =>
    obtain ⟨fresh, later⟩ := List.nodup_cons.mp distinct
    by_cases same : item = chosen
    · subst same
      have absent : rest.filterMap gives = [] := by
        rw [List.filterMap_eq_nil_iff]
        intro other inside
        apply others
        intro equal
        exact fresh (equal ▸ inside)
      rw [List.filterMap_cons_some here, absent]
    · rw [List.filterMap_cons_none (others item same)]
      exact ih ((List.mem_cons.mp member).resolve_left fun equal => same equal.symm) later

/-- A batch brings each motor one code. -/
theorem positionCodes_plan (owned : Owned config) {commands : List MitCommand}
    (same : commands.length = config.motors.length) (motor : Fin config.motors.length) :
    positionCodes config motor (plan config platform commands) =
      [floatToUint platform (commands.get (motor.cast same.symm)).q (-qMax config motor) (qMax config motor) 16] := by
  rw [plan_owned owned same, List.ofFn_eq_map, positionCodes, List.filterMap_map]
  apply filterMap_single (List.mem_finRange motor) (List.nodup_finRange _)
  · have here (command : MitCommand) :
        (ownFrame platform (config.motors.get motor) command).id = (config.motors.get motor).canId := add_offset_mit _
    rw [Function.comp_apply, if_pos (here _)]
    exact congrArg (Option.map MitCodes.q) (readMit_mitData _ _ _ _ _)
  · intro other different
    have elsewhere : (ownFrame platform (config.motors.get other)
        (commands.get (other.cast same.symm))).id ≠ (config.motors.get motor).canId := by
      intro equal
      exact different (owned.injective ((add_offset_mit _).symm.trans equal))
    rw [Function.comp_apply, if_neg elsewhere]

/-- How far apart two position codes in a row may be. Rounding to a code adds at most one; single
precision, which is not modelled, could add to that. -/
def InStep (config : ArmConfig) (motor : Fin config.motors.length) (before after : BitVec 16) : Prop :=
  |(after.toNat : ℚ) - before.toNat| ≤
    rampStep config / Library.Quantise.step (-qMax config motor) (qMax config motor) 65535 + 1

theorem length_handed (narrowing : Narrowing) (sent : Batch config.motors.length) :
    (handed narrowing sent).length = config.motors.length :=
  List.length_ofFn

theorem handed_q (sent : Batch config.motors.length) {motor : Fin config.motors.length} {position : ℚ}
    (commanded : sent.commands motor = mitCommand (.finite position)) :
    ((handed narrowing sent).get (motor.cast (length_handed narrowing sent).symm)).q = position := by
  rw [List.get_eq_getElem]
  simp only [handed, List.getElem_ofFn]
  change (Command.toMit narrowing (sent.commands motor)).q = position
  rw [commanded]
  exact narrowing.number_finite position

/-- The codes of a position in the range of the motor. -/
theorem toNat_code (platform : Platform) {motor : Fin config.motors.length} {position : ℚ}
    (above : -qMax config motor ≤ position) (below : position ≤ qMax config motor) :
    (floatToUint platform position (-qMax config motor) (qMax config motor) 16).toNat =
      encode (-qMax config motor) (qMax config motor) 65535 position := by
  have ordered : -qMax config motor < qMax config motor := neg_lt_self (qMax_pos motor)
  have top : scaled (-qMax config motor) (qMax config motor) (2 ^ 16 - 1) position ≤ (2 ^ 16 - 1 : Nat) :=
    scaled_le_top ordered below
  exact toNat_floatToUint platform (scaled_nonneg ordered above) (top.trans (by norm_num))

/-- As long as the requested targets stay in its range, a motor gets codes that follow the ramp. -/
theorem codes_in_step (owned : Owned config) {motor : Fin config.motors.length}
    (starts : -qMax config motor ≤ pose motor ∧ pose motor ≤ qMax config motor) {reported : BitVec 16}
    (told : reported.toNat = encode (-qMax config motor) (qMax config motor) 65535 (pose motor))
    {batches : List (Batch config.motors.length)}
    (ramps : Throughout (fun sent earlier => ∀ motor, sent.commands motor =
      mitCommand (approachTarget (lastSent pose earlier motor) (sent.requested motor) (.finite (rampStep config)))) batches)
    (inside : ∀ sent ∈ batches, InRange config motor (sent.requested motor)) :
    ∃ position code, lastSent pose batches motor = .finite position ∧
      (-qMax config motor ≤ position ∧ position ≤ qMax config motor) ∧
      (reported :: positionCodes config motor (wire platform narrowing batches)).getLast? = some code ∧
      code.toNat = encode (-qMax config motor) (qMax config motor) 65535 position ∧
      (reported :: positionCodes config motor (wire platform narrowing batches)).IsChain (InStep config motor) := by
  induction batches with
  | nil => exact ⟨pose motor, reported, rfl, starts, rfl, told, .singleton _⟩
  | cons sent earlier ih =>
    obtain ⟨position, code, last, within, ends, coded, chain⟩ :=
      ih ramps.2 fun other member => inside other (List.mem_cons_of_mem _ member)
    obtain ⟨target, requested, least, most⟩ := inside sent List.mem_cons_self
    have nonneg := rampStep_nonneg config
    have ordered : -qMax config motor < qMax config motor := neg_lt_self (qMax_pos motor)
    have next : sent.commands motor = mitCommand (.finite (approach position target (rampStep config))) := by
      rw [ramps.1 motor, last, requested, approachTarget_finite]
    have between : approach position target (rampStep config) ∈ Set.uIcc position target := approach_between nonneg
    obtain ⟨above, below⟩ := Set.uIcc_subset_Icc within ⟨least, most⟩ between
    have arrives : positionCodes config motor (plan config platform (handed narrowing sent)) =
        [floatToUint platform (approach position target (rampStep config)) (-qMax config motor) (qMax config motor) 16] := by
      rw [positionCodes_plan owned (length_handed narrowing sent), handed_q sent next]
    have codes := toNat_code platform above below
    refine ⟨_, _, congrArg Command.q next, ⟨above, below⟩, ?_, codes, ?_⟩
    · rw [wire_cons, positionCodes_append, arrives, ← List.cons_append, List.getLast?_concat]
    · rw [wire_cons, positionCodes_append, arrives, ← List.cons_append, List.isChain_append]
      refine ⟨chain, .singleton _, ?_⟩
      intro before member after inList
      rw [ends, Option.mem_some_iff] at member
      rw [List.head?_cons, Option.mem_some_iff] at inList
      subst member
      subst inList
      rw [InStep, codes, coded]
      have apart := @abs_encode_sub_le _ _ _ _ 65535 _ _ _ ordered _ _ within.1 above
      have step : 0 < Library.Quantise.step (-qMax config motor) (qMax config motor) 65535 :=
        div_pos (sub_pos.mpr ordered) (by norm_num)
      exact apart.trans (add_le_add_left (div_le_div_of_nonneg_right (approach_step nonneg) step.le) 1)

theorem uintToFloat_between {limit : ℚ} (positive : 0 < limit) (code : BitVec 16) :
    -limit ≤ uintToFloat code (-limit) limit 16 ∧ uintToFloat code (-limit) limit 16 ≤ limit := by
  have least : (0 : ℚ) ≤ code.toNat / (2 ^ 16 - 1 : Nat) := by positivity
  have most : (code.toNat : ℚ) / (2 ^ 16 - 1 : Nat) ≤ 1 := by
    have bound : code.toNat ≤ 2 ^ 16 - 1 := Nat.le_of_lt_succ code.isLt
    exact div_le_one_of_le₀ (by exact_mod_cast bound) (by positivity)
  unfold uintToFloat
  dsimp only
  constructor <;> nlinarith

theorem shown_between (owned : Owned config) (seen : List Reception) (motor : Fin config.motors.length) :
    -qMax config motor ≤ shownPosition config seen motor ∧ shownPosition config seen motor ≤ qMax config motor := by
  have positive := qMax_pos motor
  rw [shownPosition, owned motor]
  dsimp only
  rw [funext (pose_eq_taken motor), latest_map]
  cases latest (taken config motor) seen with
  | none => exact ⟨neg_nonpos.mpr positive.le, positive.le⟩
  | some data => exact uintToFloat_between positive _

end DmOpenarm.WireRamp
