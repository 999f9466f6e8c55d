import DmOpenarm.Dispatch
import DmOpenarm.Faults

/-! A batch of MIT commands is all or nothing. Every configured CAN ID leads to a motor, and the
CAN ID of that motor leads to one again, however the identifiers collide. So what refuses a batch
refuses it before the first frame. -/

namespace DmOpenarm.Batches
open Types hiding ControlMode
open MotorBus Backend Operations ReliableBus Dispatch Faults YamlLoader
open Library.Effect Library.Runs
variable {config : ArmConfig}

/-- Nothing has changed and the call has thrown, or each configured motor has got one frame. -/
inductive Complete (platform : Platform) (commands : List MitCommand) (before : DmSerialBackend config) :
    Except Fault Unit × DmSerialBackend config → Prop where
  | idle (idle : before.connected = false) : Complete platform commands before (.error notConnected, before)
  | count (connected : before.connected = true) (wrong : commands.length ≠ config.motors.length) :
      Complete platform commands before (.error countMismatch, before)
  | sent {after : DmSerialBackend config} {frames : List TxFrame} (connected : before.connected = true)
      (each : List.Forall₂ (Dispatched config platform) (config.motors.zip commands) frames)
      (one : frames.length = config.motors.length) (grown : after.usb.sent = before.usb.sent ++ frames) :
      Complete platform commands before (.ok (), after)

theorem sendMitAll_complete (platform : Platform) (commands : List MitCommand) {backend : DmSerialBackend config}
    (built : Consistent backend) (reliable : Reliable backend.usb.script) :
    Complete platform commands backend (exec (sendMitAll platform commands) backend) := by
  have asked := exec_requireConnected backend
  cases connected : backend.connected with
  | false =>
    rw [connected, if_neg Bool.false_ne_true] at asked
    rw [sendMitAll, exec_bind_error asked]
    exact .idle connected
  | true =>
    rw [connected, if_pos rfl] at asked
    by_cases same : commands.length = config.motors.length
    · obtain ⟨frames, after, returned, each, grown⟩ :=
        exec_sendMitAll platform same built connected (reliable.take _)
      rw [returned]
      refine .sent connected each ?_ grown
      rw [← each.length_eq, List.length_zip, same, Nat.min_self]
    · rw [sendMitAll, exec_bind_ok asked, if_pos same]
      exact .count connected same

/-- A batch is all or nothing while sends succeed. Whatever the sends do, it is not refused for
want of a motor and does not end the process. -/
theorem batch_all_or_nothing (platform : Platform) (commands : List MitCommand) {backend : DmSerialBackend config}
    (reached : Reach (machine platform config) Anything backend) (script : List Slot) :
    (Reliable script → Complete platform commands (backend.withScript script)
      (exec (sendMitAll platform commands) (backend.withScript script))) ∧
    (∀ fault, (exec (sendMitAll platform commands) (backend.withScript script)).1 = .error fault →
      fault = .usb ∨ fault = notConnected ∨ fault = countMismatch) := by
  have built := reach_built reached
  have ready : Consistent (backend.withScript script) := built
  refine ⟨sendMitAll_complete platform commands ready, ?_⟩
  intro fault thrown
  rcases sendMitAll_throws platform commands _ ready fault thrown with count | lost | idle
  · exact .inr (.inr count)
  · exact .inl lost
  · exact .inr (.inl idle)

/-- Two motors with the same identifiers, all four of them equal. -/
theorem colliding_batch :
    ∃ backend, Reach (machine Platform.wrapping (joints [(1, 1), (1, 1)])) Anything backend ∧
      backend.connected = true ∧ Complete Platform.wrapping [{}, {}] (backend.withScript [])
        (exec (sendMitAll Platform.wrapping [{}, {}]) (backend.withScript [])) := by
  obtain ⟨backend, reached, connected⟩ := exists_connected Platform.wrapping (joints [(1, 1), (1, 1)])
  exact ⟨backend, reached, connected, (batch_all_or_nothing Platform.wrapping _ reached []).1 (by decide)⟩

end DmOpenarm.Batches
