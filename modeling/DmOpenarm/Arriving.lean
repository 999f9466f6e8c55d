import DmOpenarm.Ramping

/-! When the ramp of arm_mit_control reaches a requested target that no longer changes. Its step
comes from the loop period, and the loader lets a period of 0 ms through. -/

namespace DmOpenarm.Arriving
open Types hiding ControlMode
open YamlLoader CommandLine ArmMitControl Ramping Library.Ieee Library.Runs Library.Ramp

variable {config : ArmConfig}

theorem rampStep_pos_iff : 0 < rampStep config ↔ config.loopPeriod ≠ 0 := by
  rw [rampStep, kMaxTargetVelocityRadPerSec, Nat.ne_zero_iff_zero_lt]
  constructor
  · intro positive
    by_contra zero
    have none : config.loopPeriod = 0 := by omega
    rw [none] at positive
    norm_num at positive
  · intro positive
    have period : (0 : ℚ) < config.loopPeriod := by exact_mod_cast positive
    positivity

/-- Ticks change neither the requested targets nor the other motors' active ones. -/
theorem tick_iterate {session : Session config.motors.length} {motor : Fin config.motors.length} {current target : ℚ}
    (active : session.activeTargets motor = .finite current)
    (requested : session.requestedTargets motor = .finite target) (count : ℕ) :
    ((tick config)^[count] session).activeTargets motor =
        .finite ((approach · target (rampStep config))^[count] current) ∧
      ((tick config)^[count] session).requestedTargets motor = .finite target := by
  induction count with
  | zero => exact ⟨active, requested⟩
  | succ count ih =>
    rw [Function.iterate_succ_apply', Function.iterate_succ_apply']
    exact ⟨ramp_finite ih.1 ih.2, ih.2⟩

theorem arrived_iff {session : Session config.motors.length} {motor : Fin config.motors.length} {current target : ℚ}
    (active : session.activeTargets motor = .finite current)
    (requested : session.requestedTargets motor = .finite target) (count : ℕ) :
    ((tick config)^[count] session).activeTargets motor = .finite target ↔
      |current - target| ≤ count * rampStep config := by
  rw [(tick_iterate active requested count).1, Double.finite.injEq, approach_arrived (rampStep_nonneg config),
    nsmul_eq_mul]

/-- After as many ticks as the distance has steps the motor is sent its requested target, and so
it is from then on. -/
def Arrives (session : Session config.motors.length) (current target : Fin config.motors.length → ℚ) : Prop :=
  ∀ motor count, ⌈|current motor - target motor| / rampStep config⌉₊ ≤ count →
    ((tick config)^[count] session).activeTargets motor = .finite (target motor)

/-- The ramp arrives exactly when the loop has a period or nothing is left to do. -/
theorem ramp_arrives_iff {session : Session config.motors.length} {current target : Fin config.motors.length → ℚ}
    (active : ∀ motor, session.activeTargets motor = .finite (current motor))
    (requested : ∀ motor, session.requestedTargets motor = .finite (target motor)) :
    (Arrives session current target ↔ config.loopPeriod ≠ 0 ∨ current = target) ∧
      ((∀ motor, ∃ count, ((tick config)^[count] session).activeTargets motor = .finite (target motor)) ↔
        config.loopPeriod ≠ 0 ∨ current = target) := by
  have arrives : config.loopPeriod ≠ 0 ∨ current = target → Arrives session current target := by
    intro given motor count enough
    rw [arrived_iff (active motor) (requested motor)]
    rcases given with period | same
    · have positive : 0 < rampStep config := rampStep_pos_iff.mpr period
      rw [Nat.ceil_le, div_le_iff₀ positive] at enough
      exact enough
    · rw [same, sub_self, abs_zero]
      exact mul_nonneg (Nat.cast_nonneg count) (rampStep_nonneg config)
  have needed (reaches : ∀ motor, ∃ count, ((tick config)^[count] session).activeTargets motor = .finite (target motor)) :
      config.loopPeriod ≠ 0 ∨ current = target := by
    by_contra neither
    obtain ⟨period, different⟩ := not_or.mp neither
    have still : rampStep config = 0 := by
      have zero := mt rampStep_pos_iff.mp period
      exact le_antisymm (not_lt.mp zero) (rampStep_nonneg config)
    apply different
    funext motor
    obtain ⟨count, arrived⟩ := reaches motor
    rw [arrived_iff (active motor) (requested motor), still, mul_zero] at arrived
    exact sub_eq_zero.mp (abs_eq_zero.mp (le_antisymm arrived (abs_nonneg _)))
  have eventually : Arrives session current target →
      ∀ motor, ∃ count, ((tick config)^[count] session).activeTargets motor = .finite (target motor) :=
    fun holds motor => ⟨_, holds motor _ le_rfl⟩
  exact ⟨⟨fun holds => needed (eventually holds), arrives⟩, ⟨needed, fun given => eventually (arrives given)⟩⟩

/-- One joint whose requested target is a tenth of a radian away. -/
theorem joint_arrives : ∃ session : Session (joints [(1, 0x11)]).motors.length,
    Reach (machine (fun _ => false) (joints [(1, 0x11)]) fun _ => 0) Anything session ∧
    ∀ motor, ((tick (joints [(1, 0x11)]))^[167] session).activeTargets motor = .finite (1 / 10) := by
  have ran : ((machine (fun _ => false) (joints [(1, 0x11)]) fun _ => 0).run (fun _ _ => true)
      ((turn "move 0x01 0.1\n").take 2) (Session.begin fun _ => 0)).map (fun session =>
        decide ((∀ motor, session.activeTargets motor = .finite 0) ∧
          ∀ motor, session.requestedTargets motor = .finite (1 / 10))) = some true := by decide +kernel
  obtain ⟨session, reached, active, requested⟩ := Machine.reach_checked rfl ran
  have arrives := (ramp_arrives_iff active requested).1.mpr (.inl (by decide))
  refine ⟨session, reached.anything, fun motor => arrives motor 167 ?_⟩
  rw [Nat.ceil_le, rampStep, kMaxTargetVelocityRadPerSec]
  norm_num [joints]

/-- One joint and a loop period of 0 ms. -/
def unpaced : ArmConfig := { joints [(1, 0x11)] with loopPeriod := 0 }

theorem unpaced_accepted : Accepted unpaced :=
  ⟨"arm.yaml", .ok (.map [("usb", .map [("serial", .scalar "DM"), ("nominal_baud", .scalar "1000000"),
      ("data_baud", .scalar "5000000")]), ("control", .map [("loop_period_ms", .scalar "0")]),
    ("motors", .sequence [motorEntry "0x01" "0x11"])]), by decide +kernel⟩

/-- Without a period the accepted move never begins. -/
theorem unpaced_joint_stays : Accepted unpaced ∧ ∃ session : Session unpaced.motors.length,
    Reach (machine (fun _ => false) unpaced fun _ => 0) Anything session ∧
    (∀ motor, session.activeTargets motor = .finite 0) ∧ (∀ motor, session.requestedTargets motor = .finite (1 / 10)) ∧
    ¬Arrives session (fun _ => 0) (fun _ => 1 / 10) ∧
    ∀ motor count, ((tick unpaced)^[count] session).activeTargets motor ≠ .finite (1 / 10) := by
  have ran : ((machine (fun _ => false) unpaced fun _ => 0).run (fun _ _ => true)
      ((turn "move 0x01 0.1\n").take 2) (Session.begin fun _ => 0)).map (fun session =>
        decide ((∀ motor, session.activeTargets motor = .finite 0) ∧
          ∀ motor, session.requestedTargets motor = .finite (1 / 10))) = some true := by decide +kernel
  obtain ⟨session, reached, active, requested⟩ := Machine.reach_checked rfl ran
  have never (motor : Fin unpaced.motors.length) (count : ℕ) :
      ((tick unpaced)^[count] session).activeTargets motor ≠ .finite (1 / 10) := by
    intro arrived
    rw [arrived_iff (active motor) (requested motor), rampStep] at arrived
    norm_num [unpaced] at arrived
  exact ⟨unpaced_accepted, session, reached.anything, active, requested,
    fun arrives => never ⟨0, by decide⟩ _ (arrives ⟨0, by decide⟩ _ le_rfl), never⟩

end DmOpenarm.Arriving
