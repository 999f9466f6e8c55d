import DmOpenarm.Operations

/-! Runs on a bus where no send throws: every operation of the SDK returns, and none of its
process-ending branches is taken. -/

namespace DmOpenarm.ReliableBus
open Types hiding ControlMode
open Damiao Registry MotorBus Backend Traffic Operations Library.FirstWins Library.Effect Library.Runs

/-- A script in which no send throws. -/
def Reliable (script : List Slot) : Prop := ∀ slot ∈ script, slot.throws = false

instance (script : List Slot) : Decidable (Reliable script) :=
  inferInstanceAs (Decidable (∀ slot ∈ script, slot.throws = false))

theorem Reliable.take {script : List Slot} (reliable : Reliable script) (count : Nat) :
    Reliable (script.take count) :=
  fun slot member => reliable slot (List.mem_of_mem_take member)

theorem reliable_take_succ {script : List Slot} {count : Nat} :
    Reliable (script.take (count + 1)) ↔ Reliable (script.take 1) ∧ Reliable (script.tail.take count) := by
  cases script with
  | nil => simp [Reliable]
  | cons slot rest => simp [Reliable]

section Bus
variable {n : Nat}

theorem throwsNext_reliable {host : Host n} (reliable : Reliable (host.usb.script.take 1)) :
    host.throwsNext = false := by
  unfold Host.throwsNext
  cases script : host.usb.script with
  | nil => rfl
  | cons slot rest => exact reliable slot (by simp [script])

/-- A wait sends nothing and uses up one slot. -/
theorem advance_usb (host : Host n) :
    host.advance.usb.sent = host.usb.sent ∧ host.advance.usb.script = host.usb.script.tail := by
  unfold Host.advance
  cases script : host.usb.script with
  | nil => simp [script]
  | cons slot rest =>
    have arrivals : ∀ (list : List Arrival) (start : Host n),
        (list.foldl Host.receive start).usb.sent = start.usb.sent ∧
          (list.foldl Host.receive start).usb.script = start.usb.script := by
      intro list
      induction list with
      | nil => exact fun _ => ⟨rfl, rfl⟩
      | cons arrival later ih => exact fun start => ih (start.receive arrival)
    exact arrivals slot.arrivals (host.withScript rest)

theorem reliable_advance {host : Host n} (reliable : Reliable host.usb.script) :
    Reliable host.advance.usb.script := by
  rw [(advance_usb host).2]
  exact fun slot member => reliable slot (List.mem_of_mem_tail member)

theorem exec_fdcanFrameSend_reliable {host : Host n} (reliable : Reliable (host.usb.script.take 1))
    (frame : TxFrame) :
    exec (fdcanFrameSend frame) host = (.ok (), host.advance.emit frame) := by
  rw [exec_fdcanFrameSend, throwsNext_reliable reliable]
  rfl

/-- A host as built, on a bus where no send throws. -/
def Steady (data : Fin n → DmActData) (host : Host n) : Prop :=
  Built data host.control ∧ Reliable host.usb.script

variable {data : Fin n → DmActData}

theorem fdcanFrameSend_succeeds (frame : TxFrame) : Succeeds (Steady data) (fdcanFrameSend frame) :=
  fun _ steady => ⟨(), _, exec_fdcanFrameSend_reliable (steady.2.take 1) frame,
    built_advance data steady.1, reliable_advance steady.2⟩

theorem usleep_succeeds : Succeeds (Steady data) usleep :=
  .modify fun _ steady => ⟨built_advance data steady.1, reliable_advance steady.2⟩

theorem expectReply_succeeds : Succeeds (Steady data) (modify Host.expectReply : Sdk n Unit) :=
  .modify fun _ steady => ⟨(bus data).kept _ _ (.expect _) steady.1, steady.2⟩

theorem motorCanId_succeeds (motor : Fin n) : Succeeds (Steady data) (motorCanId motor) :=
  .get_bind fun _ _ => .pure _

theorem motorMode_succeeds (motor : Fin n) : Succeeds (Steady data) (motorMode motor) :=
  .get_bind fun _ _ => .pure _

theorem command_succeeds (motor : Fin n) (cmd : Byte) :
    Succeeds (Steady data) (commandId motor >>= fun command => controlCmd command cmd) :=
  .bind (.get_bind fun _ _ => .pure _) fun _ => fdcanFrameSend_succeeds _

theorem fiveTimes_succeeds {body : Sdk n Unit} (each : Succeeds (Steady data) body) :
    Succeeds (Steady data) (fiveTimes body) :=
  .forM _ fun _ _ => each

theorem readMotorParam_succeeds (motor : Fin n) (rid : Byte) :
    Succeeds (Steady data) (readMotorParam motor rid) :=
  expectReply_succeeds.bind fun _ => (motorCanId_succeeds motor).bind fun _ =>
    (fdcanFrameSend_succeeds _).bind fun _ => usleep_succeeds

/-- A motor's own CAN ID is always registered, so the mode switch never ends the process. -/
theorem switchControlMode_succeeds (motor : Fin n) (code : Byte) :
    Succeeds (Steady data) (switchControlMode motor code) := by
  have written : Succeeds (Steady data) (writeMotorParam motor 10 [code, 0, 0, 0]) :=
    expectReply_succeeds.bind fun _ => (motorCanId_succeeds motor).bind fun _ => fdcanFrameSend_succeeds _
  apply written.bind
  intro _
  apply Succeeds.get_bind
  intro host steady
  obtain ⟨other, known⟩ := exists_find?_canId data motor
  rw [steady.1.motors, steady.1.canId, known]
  exact .pure _

theorem enableAll_succeeds (platform : Platform) : Succeeds (Steady data) (enableAll platform) := by
  apply Succeeds.bind (.get_bind fun _ _ => .pure _)
  intro motors
  apply Succeeds.bind
  · apply Succeeds.forM
    intro motor _
    exact (motorMode_succeeds motor).bind fun _ => (switchControlMode_succeeds motor _).bind fun _ => usleep_succeeds
  intro _
  apply Succeeds.bind
  · apply Succeeds.forM
    intro motor _
    exact fiveTimes_succeeds ((readMotorParam_succeeds motor 10).bind fun _ => usleep_succeeds)
  intro _
  apply Succeeds.forM
  intro motor _
  exact fiveTimes_succeeds ((command_succeeds motor 0xFC).bind fun _ => usleep_succeeds)

end Bus

variable {config : ArmConfig}

/-- Connecting succeeds on a reliable bus, whatever is received meanwhile. -/
theorem connect_reliable (platform : Platform) (usb : Usb) (reliable : Reliable usb.script) :
    ∃ host : Host config.motors.length,
      exec (usleep >>= fun _ => enableAll platform)
          ⟨MotorControl.new (initData config) usb.clock, { usb with sent := [], received := [] }⟩ = (.ok (), host) ∧
        exec (connect platform) ⟨none, usb⟩ = (.ok (), ⟨some host.control, host.usb⟩) := by
  have program : Succeeds (Steady (initData config)) (usleep >>= fun _ => enableAll platform) :=
    usleep_succeeds.bind fun _ => enableAll_succeeds platform
  obtain ⟨value, host, returned, _⟩ := program
    ⟨MotorControl.new (initData config) usb.clock, { usb with sent := [], received := [] }⟩
    ⟨.new _, reliable⟩
  refine ⟨host, returned, ?_⟩
  have idle : ¬(⟨none, usb⟩ : DmSerialBackend config).connected = true := Bool.false_ne_true
  rw [connect, exec_get_bind, if_neg idle, exec_modify_bind, exec_tryCatch, exec_onControl_some, returned]

/-- Nothing arrives while the script is empty. -/
theorem silent_path {n : Nat} {data : Fin n → DmActData} {before after : Host n} (built : Built data before.control)
    (path : (bus data).Path before after) (silent : before.usb.script = [] ∧ before.usb.received = []) :
    after.usb.script = [] ∧ after.usb.received = [] := by
  have waits (host : Host n) (none : host.usb.script = []) : host.advance = host := by
    rw [Host.advance, none]
  have kept : ∀ host later : Host n, Built data host.control → Primitive data host later →
      (host.usb.script = [] ∧ host.usb.received = []) → later.usb.script = [] ∧ later.usb.received = [] := by
    intro host later _ step still
    cases step with
    | wait =>
      rw [waits host still.1]
      exact still
    | send frame addressed =>
      rw [waits host still.1]
      exact still
    | expect => exact still
  exact ((bus data).keeps _ kept path built silent).2

/-- A connect during which nothing throws and nothing is received. -/
theorem exists_quiet (platform : Platform) (config : ArmConfig) : ∃ host : Host config.motors.length,
    exec (usleep >>= fun _ => enableAll platform) ⟨MotorControl.new (initData config) 0, {}⟩ = (.ok (), host) ∧
      act platform {} (.operate .connect []) = some ⟨some host.control, host.usb⟩ ∧ host.usb.received = [] := by
  obtain ⟨host, enabled, returned⟩ := @connect_reliable config platform {} (by simp [Reliable])
  have moved : act platform {} (.operate .connect []) = some ⟨some host.control, host.usb⟩ := by
    change survive (exec (connect platform) ⟨none, {}⟩) = _
    rw [returned]
    rfl
  have path := (usleep_follows.bind fun _ => enableAll_follows platform)
    ⟨MotorControl.new (initData config) 0, {}⟩ (.new _)
  rw [enabled] at path
  exact ⟨host, enabled, moved, (silent_path (.new _) path ⟨rfl, rfl⟩).2⟩

theorem reach_connect {platform : Platform} {script : List Slot} {backend : DmSerialBackend config}
    (moved : act platform {} (.operate .connect script) = some backend) :
    Reach (machine platform config) Anything backend := by
  have idle : Reach (machine platform config) Anything {} := .start rfl
  have stepped : (machine platform config).step {} (.operate .connect script) = some backend := moved
  exact idle.next trivial stepped

/-- Some run of the backend leaves it connected. -/
theorem exists_connected (platform : Platform) (config : ArmConfig) :
    ∃ backend, Reach (machine platform config) Anything backend ∧ backend.connected = true := by
  obtain ⟨host, _, moved, _⟩ := exists_quiet platform config
  exact ⟨_, reach_connect moved, rfl⟩

end DmOpenarm.ReliableBus
