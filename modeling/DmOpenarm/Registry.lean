import DmOpenarm.Damiao
import Mathlib.Data.List.FinRange

/-! Which motor the registry finds. Every motor is inserted under two identifiers and an
insertion never overwrites, so an identifier belongs to the first motor that uses it, whether
as its CAN ID or as its master ID. -/

namespace DmOpenarm.Registry
open Types Damiao Library.FirstWins
variable {n : Nat} (data : Fin n → DmActData)

def Uses (motor : Fin n) (id : Id) : Prop := id = (data motor).canId ∨ id = (data motor).mstId

instance (motor : Fin n) (id : Id) : Decidable (Uses data motor id) :=
  inferInstanceAs (Decidable (_ ∨ _))

private theorem find?_addMotor (motors : FirstMap Id (Fin n)) (motor : Fin n) (id : Id) :
    (MotorControl.addMotor motors data motor).find? id =
      (motors.find? id).or (if Uses data motor id then some motor else none) := by
  rw [MotorControl.addMotor, FirstMap.find?_insert, FirstMap.find?_insert, Option.or_assoc]
  congr 1
  by_cases can : id = (data motor).canId
  · simp [Uses, can]
  · simp [Uses, can]

private theorem find?_foldl_addMotor (order : List (Fin n)) (motors : FirstMap Id (Fin n)) (id : Id) :
    (order.foldl (fun motors motor => MotorControl.addMotor motors data motor) motors).find? id =
      (motors.find? id).or (order.find? fun motor => decide (Uses data motor id)) := by
  induction order generalizing motors with
  | nil => simp
  | cons motor rest ih =>
    rw [List.foldl_cons, ih, find?_addMotor, Option.or_assoc, List.find?_cons]
    by_cases uses : Uses data motor id
    · simp [uses]
    · simp [uses]

theorem find?_registry (id : Id) :
    (MotorControl.registry data).find? id =
      (List.finRange n).find? fun motor => decide (Uses data motor id) := by
  rw [MotorControl.registry, find?_foldl_addMotor]
  rfl

/-- An identifier belongs to the first motor that uses it. -/
theorem find?_registry_eq_some_iff (id : Id) (motor : Fin n) :
    (MotorControl.registry data).find? id = some motor ↔
      Uses data motor id ∧ ∀ earlier < motor, ¬Uses data earlier id := by
  rw [find?_registry, List.find?_eq_some_iff_getElem]
  simp only [decide_eq_true_eq, List.getElem_finRange, List.length_finRange, Bool.not_eq_eq_eq_not,
    Bool.not_true, decide_eq_false_iff_not]
  refine and_congr_right fun _ => ⟨?_, ?_⟩
  · intro found earlier before
    obtain ⟨position, _, same, absent⟩ := found
    subst same
    exact absent earlier.val before
  · intro absent
    exact ⟨motor.val, motor.isLt, rfl, fun position before => absent _ before⟩

theorem find?_registry_eq_none_iff (id : Id) :
    (MotorControl.registry data).find? id = none ↔ ∀ motor, ¬Uses data motor id := by
  rw [find?_registry, List.find?_eq_none]
  simp

/-- Every configured CAN ID is found, whatever the configuration. -/
theorem exists_find?_canId (motor : Fin n) :
    ∃ found, (MotorControl.registry data).find? (data motor).canId = some found := by
  apply Option.ne_none_iff_exists'.mp
  rw [Ne, find?_registry_eq_none_iff]
  exact fun absent => absent motor (.inl rfl)

/-- With distinct CAN IDs a motor is found under its own CAN ID unless an earlier motor has it
as its master ID. -/
theorem find?_canId_iff (distinct : Function.Injective fun motor => (data motor).canId)
    (motor : Fin n) :
    (MotorControl.registry data).find? (data motor).canId = some motor ↔
      ∀ earlier < motor, (data earlier).mstId ≠ (data motor).canId := by
  rw [find?_registry_eq_some_iff]
  refine ⟨?_, ?_⟩
  · intro found earlier before same
    exact found.2 earlier before (.inr same.symm)
  · intro apart
    refine ⟨.inl rfl, ?_⟩
    intro earlier before uses
    rcases uses with can | mst
    · exact absurd (distinct can.symm) before.ne
    · exact apart earlier before mst.symm

/-- No identifier is used by two motors. -/
def Unambiguous : Prop := ∀ id first second, Uses data first id → Uses data second id → first = second

variable {data}

theorem Unambiguous.find?_eq_some (apart : Unambiguous data) {motor : Fin n} {id : Id}
    (uses : Uses data motor id) : (MotorControl.registry data).find? id = some motor := by
  rw [find?_registry_eq_some_iff]
  exact ⟨uses, fun earlier before other => before.ne (apart id earlier motor other uses)⟩

end DmOpenarm.Registry
