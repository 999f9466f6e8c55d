import DmOpenarm.Library.Readings
import DmOpenarm.Library.Runs

/-! Histories that keep to a protocol. What may come next depends on a phase, which the history so far
determines; histories are kept newest first. -/

namespace Library.Phases
open Library.Readings Library.Runs
variable {φ ε σ α : Type}

structure Protocol (φ ε : Type) where
  first : φ
  next : φ → ε → Option φ

namespace Protocol
variable (protocol : Protocol φ ε)

/-- Where a history has led to, if each of its events was allowed. -/
def phase : List ε → Option φ
  | [] => some protocol.first
  | event :: earlier => (phase earlier).bind fun before => protocol.next before event

variable {protocol}

theorem phase_cons {earlier : List ε} {phase : φ} (before : protocol.phase earlier = some phase) (event : ε) :
    protocol.phase (event :: earlier) = protocol.next phase event := by
  rw [Protocol.phase, before, Option.bind_some]

/-- An event that leaves every phase as it is. -/
theorem phase_passes {event : ε} (aside : ∀ phase, protocol.next phase event = some phase) :
    Passes protocol.phase event := by
  intro earlier
  rw [Protocol.phase]
  cases protocol.phase earlier with
  | none => rfl
  | some phase => exact aside phase

/-- A machine keeps to a protocol if every step leads from a phase that fits to one that fits. -/
theorem kept_by_reach {machine : Machine σ α} {allowed : σ → α → Prop} {log : σ → List ε} {fits : σ → φ → Prop}
    (base : ∀ state, machine.initial state → log state = [] ∧ fits state protocol.first)
    (step : ∀ state action after phase, Reach machine allowed state → machine.step state action = some after →
      fits state phase → protocol.phase (log state) = some phase →
      ∃ next, protocol.phase (log after) = some next ∧ fits after next)
    {state : σ} (reached : Reach machine allowed state) :
    ∃ phase, protocol.phase (log state) = some phase ∧ fits state phase := by
  induction reached with
  | start begins =>
    obtain ⟨empty, fitting⟩ := base _ begins
    exact ⟨protocol.first, by rw [empty]; rfl, fitting⟩
  | next earlier _ moved ih =>
    obtain ⟨phase, before, fitting⟩ := ih
    exact step _ _ _ phase earlier moved fitting before

end Protocol

end Library.Phases
