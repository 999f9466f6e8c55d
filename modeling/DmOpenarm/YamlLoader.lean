import DmOpenarm.Strtoul
import DmOpenarm.Library.Effect
import Mathlib.Data.List.Nodup
import Mathlib.Data.List.Forall2

/-! The configuration loader, over the node tree that the YAML parser returns. -/

namespace DmOpenarm.YamlLoader
open Types Strtoul Library.Effect

/-- A parsed document. Map keys that are not scalars can never be looked up and are left out. -/
inductive Node where
  | null
  | scalar (text : String)
  | sequence (items : List Node)
  | map (entries : List (String × Node))

/-- Lookup by name: undefined in a null or a sequence, an exception on a scalar. -/
def Node.get (node : Node) (key : String) : Except Fault (Option Node) :=
  match node with
  | .map entries => .ok (entries.lookup key)
  | .scalar _ => .error .badSubscript
  | _ => .ok none

def requireNode (node : Node) (key path : String) : Except Fault Node := do
  match ← node.get key with
  | some child => pure child
  | none => throw (.runtimeError ("missing required config field: " ++ path ++ "." ++ key))

def scalarString (node : Node) (path : String) : Except Fault String :=
  match node with
  | .scalar text => pure text
  | _ => throw (.runtimeError ("config field must be scalar: " ++ path))

def parseUint32 (node : Node) (path : String) : Except Fault Nat := do
  let text ← scalarString node path
  match stoul text.toList with
  | .error _ => throw (.runtimeError ("config field must be an unsigned integer: " ++ path))
  | .ok (value, rest) =>
      if rest ≠ [] ∨ 2 ^ 32 ≤ value then
        throw (.runtimeError ("config field is outside uint32 range: " ++ path))
      else pure value

def parseUint16 (node : Node) (path : String) : Except Fault Id := do
  let value ← parseUint32 node path
  if 2 ^ 16 ≤ value then
    throw (.runtimeError ("config field is outside uint16 range: " ++ path))
  else pure (BitVec.ofNat 16 value)

def parseModel (node : Node) (path : String) : Except Fault MotorModel := do
  let value ← scalarString node path
  if value = "DM4310" then pure .DM4310
  else if value = "DM8009" then pure .DM8009
  else if value = "DM8009P" then
    throw (.runtimeError ("unknown motor model DM8009P in " ++ path ++ "; use DM8009"))
  else throw (.runtimeError ("unknown motor model in " ++ path ++ ": " ++ value))

def parseMode (node : Node) (path : String) : Except Fault ControlMode := do
  let value ← scalarString node path
  if value = "MIT" then pure .MIT
  else throw (.runtimeError ("only MIT mode is supported in " ++ path ++ ": " ++ value))

def hex (value : Id) : String := String.ofList (Nat.toDigits 16 value.toNat)

/-- One element of the motor list. -/
def loadMotor (motor : Node) (place : String) : Except Fault MotorConfig := do
  let name ← scalarString (← requireNode motor "name" place) (place ++ ".name")
  let model ← parseModel (← requireNode motor "model" place) (place ++ ".model")
  let mode ← parseMode (← requireNode motor "mode" place) (place ++ ".mode")
  let canId ← parseUint16 (← requireNode motor "can_id" place) (place ++ ".can_id")
  let mstId ← parseUint16 (← requireNode motor "mst_id" place) (place ++ ".mst_id")
  pure { name, model, mode, canId, mstId }

/-- The loop over the motor list, with the identifiers seen so far. -/
def loadMotors : Nat → List Node → List Id → List Id → Except Fault (List MotorConfig)
  | _, [], _, _ => pure []
  | index, motor :: rest, canIds, mstIds => do
      let config ← loadMotor motor ("motors[" ++ toString index ++ "]")
      if config.canId ∈ canIds then
        throw (.runtimeError ("duplicate CAN ID: 0x" ++ hex config.canId))
      else if config.mstId ∈ mstIds then
        throw (.runtimeError ("duplicate MST ID: 0x" ++ hex config.mstId))
      else
        let others ← loadMotors (index + 1) rest (config.canId :: canIds) (config.mstId :: mstIds)
        pure (config :: others)

def throwIf (refused : Prop) [Decidable refused] (what : String) : Except Fault Unit :=
  if refused then throw (.runtimeError what) else pure ()

/-- `file` is what reading and parsing the file at `path` gave. -/
def loadFile (path : String) (file : Except String Node) : Except Fault Node :=
  match file with
  | .ok root => pure root
  | .error what => throw (.runtimeError ("failed to load arm config " ++ path ++ ": " ++ what))

def sequenceItems (motors : Node) : Except Fault (List Node) :=
  match motors with
  | .sequence items => pure items
  | _ => throw (.runtimeError "config field must be a sequence: motors")

def loadArmConfig (path : String) (file : Except String Node) : Except Fault ArmConfig := do
  let root ← loadFile path file
  let usb ← requireNode root "usb" "root"
  let control ← requireNode root "control" "root"
  let motors ← requireNode root "motors" "root"
  let items ← sequenceItems motors
  let usbSerial ← scalarString (← requireNode usb "serial" "usb") "usb.serial"
  throwIf (usbSerial = "") "usb.serial must not be empty"
  let nomBaud ← parseUint32 (← requireNode usb "nominal_baud" "usb") "usb.nominal_baud"
  let datBaud ← parseUint32 (← requireNode usb "data_baud" "usb") "usb.data_baud"
  let loopPeriod ← parseUint32 (← requireNode control "loop_period_ms" "control") "control.loop_period_ms"
  let loaded ← loadMotors 0 items [] []
  throwIf (loaded = []) "motors must contain at least one motor"
  pure { usbSerial, nomBaud := BitVec.ofNat 32 nomBaud, datBaud := BitVec.ofNat 32 datBaud,
         loopPeriod, motors := loaded }

/-- The node found by following names down from a node, through maps only. -/
def Node.descend : Node → List String → Option Node
  | node, [] => some node
  | .map entries, key :: rest => (entries.lookup key).bind (descend · rest)
  | _, _ :: _ => none

/-- The field holds a scalar that reads, to its end, as the value. -/
def Reads (node : Node) (keys : List String) (value : Nat) : Prop :=
  ∃ text, node.descend keys = some (.scalar text) ∧ stoul text.toList = .ok (value, [])

def modelName : MotorModel → String
  | .DM4310 => "DM4310"
  | .DM8009 => "DM8009"

/-- What an element of the motor list has to say for a motor to be read from it. -/
structure Entry (node : Node) (motor : MotorConfig) : Prop where
  name : node.descend ["name"] = some (.scalar motor.name)
  model : node.descend ["model"] = some (.scalar (modelName motor.model))
  mode : node.descend ["mode"] = some (.scalar "MIT")
  canId : Reads node ["can_id"] motor.canId.toNat
  mstId : Reads node ["mst_id"] motor.mstId.toNat

/-- A well-formed document, and the configuration it spells out. -/
structure Describes (root : Node) (config : ArmConfig) : Prop where
  serial : root.descend ["usb", "serial"] = some (.scalar config.usbSerial)
  named : config.usbSerial ≠ ""
  nomBaud : Reads root ["usb", "nominal_baud"] config.nomBaud.toNat
  datBaud : Reads root ["usb", "data_baud"] config.datBaud.toNat
  loopPeriod : Reads root ["control", "loop_period_ms"] config.loopPeriod
  periodFits : config.loopPeriod < 2 ^ 32
  motors : ∃ items, root.descend ["motors"] = some (.sequence items) ∧
    List.Forall₂ Entry items config.motors
  present : config.motors ≠ []
  canIds : (config.motors.map MotorConfig.canId).Nodup
  mstIds : (config.motors.map MotorConfig.mstId).Nodup

theorem descend_cons (node : Node) (key : String) (rest : List String) :
    node.descend (key :: rest) = (node.descend [key]).bind (Node.descend · rest) := by
  cases node with
  | map entries => simp only [Node.descend, Option.bind_some, Option.bind_assoc]
  | _ => rfl

theorem requireNode_ok {node child : Node} {key path : String} :
    requireNode node key path = .ok child ↔ node.descend [key] = some child := by
  cases node with
  | map entries =>
    cases found : entries.lookup key with
    | none => simp [requireNode, Node.get, Node.descend, bind_eq_ok, found]
    | some value => simp [requireNode, Node.get, Node.descend, bind_eq_ok, pure_eq_ok, found]
  | _ => simp [requireNode, Node.get, Node.descend, bind_eq_ok]

theorem scalarString_ok {node : Node} {path text : String} :
    scalarString node path = .ok text ↔ node = .scalar text := by
  cases node with
  | scalar found => simp [scalarString, pure_eq_ok]
  | _ => simp [scalarString]

theorem parseUint32_ok {node : Node} {path : String} {value : Nat} :
    parseUint32 node path = .ok value ↔
      ∃ text, node = .scalar text ∧ stoul text.toList = .ok (value, []) ∧ value < 2 ^ 32 := by
  simp only [parseUint32, bind_eq_ok, scalarString_ok]
  apply exists_congr
  intro text
  apply and_congr_right
  intro _
  rcases stoul text.toList with fault | ⟨number, rest⟩
  · exact iff_of_false throw_ne_ok fun parsed => by cases parsed.1
  · simp only [check_eq_ok, pure_eq_ok, not_or, not_not, not_le, Except.ok.injEq, Prod.mk.injEq]
    constructor
    · intro given
      obtain ⟨⟨ended, fits⟩, same⟩ := given
      exact ⟨⟨same, ended⟩, same ▸ fits⟩
    · intro given
      obtain ⟨⟨same, ended⟩, fits⟩ := given
      exact ⟨⟨ended, same ▸ fits⟩, same⟩

theorem parseUint16_ok {node : Node} {path : String} {value : Id} :
    parseUint16 node path = .ok value ↔
      ∃ text, node = .scalar text ∧ stoul text.toList = .ok (value.toNat, []) := by
  simp only [parseUint16, bind_eq_ok, parseUint32_ok, check_eq_ok, pure_eq_ok, not_le]
  constructor
  · intro given
    obtain ⟨number, ⟨text, isScalar, parsed, _⟩, narrow, same⟩ := given
    subst same
    refine ⟨text, isScalar, ?_⟩
    rw [BitVec.toNat_ofNat, Nat.mod_eq_of_lt narrow]
    exact parsed
  · intro given
    obtain ⟨text, isScalar, parsed⟩ := given
    have narrow : value.toNat < 2 ^ 16 := value.isLt
    refine ⟨value.toNat, ⟨text, isScalar, parsed, narrow.trans (by decide)⟩, narrow, ?_⟩
    rw [BitVec.ofNat_toNat, BitVec.setWidth_eq]

theorem parseModel_ok {node : Node} {path : String} {model : MotorModel} :
    parseModel node path = .ok model ↔ node = .scalar (modelName model) := by
  simp only [parseModel, bind_eq_ok, scalarString_ok]
  constructor
  · intro given
    obtain ⟨text, isScalar, parsed⟩ := given
    by_cases small : text = "DM4310"
    · rw [if_pos small, pure_eq_ok] at parsed
      rw [isScalar, small, ← parsed, modelName]
    by_cases large : text = "DM8009"
    · rw [if_neg small, if_pos large, pure_eq_ok] at parsed
      rw [isScalar, large, ← parsed, modelName]
    rw [if_neg small, if_neg large] at parsed
    split at parsed
    · exact absurd parsed throw_ne_ok
    · exact absurd parsed throw_ne_ok
  · intro isScalar
    refine ⟨modelName model, isScalar, ?_⟩
    cases model <;> rfl

theorem parseMode_ok {node : Node} {path : String} {mode : ControlMode} :
    parseMode node path = .ok mode ↔ node = .scalar "MIT" := by
  simp only [parseMode, bind_eq_ok, scalarString_ok]
  constructor
  · intro given
    obtain ⟨text, isScalar, parsed⟩ := given
    by_cases mit : text = "MIT"
    · rw [isScalar, mit]
    · rw [if_neg mit] at parsed
      exact absurd parsed throw_ne_ok
  · intro isScalar
    refine ⟨"MIT", isScalar, ?_⟩
    cases mode
    rfl

theorem loadMotor_ok {node : Node} {place : String} {motor : MotorConfig} :
    loadMotor node place = .ok motor ↔ Entry node motor := by
  simp only [loadMotor, bind_eq_ok, requireNode_ok, scalarString_ok, parseModel_ok, parseMode_ok,
    parseUint16_ok, pure_eq_ok]
  constructor
  · intro given
    obtain ⟨_, hasName, name, rfl, _, hasModel, model, rfl, _, hasMode, mode, rfl,
      _, hasCan, canId, ⟨canText, rfl, canRead⟩, _, hasMst, mstId, ⟨mstText, rfl, mstRead⟩, rfl⟩ := given
    exact ⟨hasName, hasModel, hasMode, ⟨canText, hasCan, canRead⟩, ⟨mstText, hasMst, mstRead⟩⟩
  · intro given
    obtain ⟨hasName, hasModel, hasMode, ⟨canText, hasCan, canRead⟩, ⟨mstText, hasMst, mstRead⟩⟩ := given
    exact ⟨_, hasName, motor.name, rfl, _, hasModel, motor.model, rfl, _, hasMode, motor.mode, rfl,
      _, hasCan, motor.canId, ⟨canText, rfl, canRead⟩, _, hasMst, motor.mstId, ⟨mstText, rfl, mstRead⟩, rfl⟩

/-- No key is repeated, and none has been seen before. -/
def Fresh {α β : Type} (key : α → β) (seen : List β) (items : List α) : Prop :=
  (items.map key).Nodup ∧ ∀ item ∈ items, key item ∉ seen

theorem fresh_cons {α β : Type} {key : α → β} {seen : List β} {head : α} {rest : List α} :
    Fresh key seen (head :: rest) ↔ key head ∉ seen ∧ Fresh key (key head :: seen) rest := by
  simp only [Fresh, List.map_cons, List.nodup_cons, List.mem_map, not_exists, not_and, List.mem_cons,
    forall_eq_or_imp, not_or]
  constructor
  · intro given
    obtain ⟨⟨other, distinct⟩, new, later⟩ := given
    exact ⟨new, distinct, fun item member => ⟨other item member, later item member⟩⟩
  · intro given
    obtain ⟨new, distinct, later⟩ := given
    exact ⟨⟨fun item member => (later item member).1, distinct⟩, new, fun item member => (later item member).2⟩

theorem fresh_nil {α β : Type} {key : α → β} {items : List α} : Fresh key [] items ↔ (items.map key).Nodup :=
  and_iff_left fun _ _ => List.not_mem_nil

/-- The loop keeps exactly the lists whose identifiers are new and pairwise distinct. -/
theorem loadMotors_ok {items : List Node} {index : Nat} {canIds mstIds : List Id} {motors : List MotorConfig} :
    loadMotors index items canIds mstIds = .ok motors ↔
      List.Forall₂ Entry items motors ∧ Fresh MotorConfig.canId canIds motors ∧ Fresh MotorConfig.mstId mstIds motors := by
  induction items generalizing index canIds mstIds motors with
  | nil =>
    rw [loadMotors, pure_eq_ok, List.forall₂_nil_left_iff]
    constructor
    · intro same
      subst same
      simp [Fresh]
    · exact fun empty => empty.1.symm
  | cons item rest ih =>
    simp only [loadMotors, bind_eq_ok, loadMotor_ok, check_eq_ok, pure_eq_ok, ih]
    constructor
    · intro given
      obtain ⟨config, entry, newCan, newMst, others, ⟨entries, cans, msts⟩, same⟩ := given
      subst same
      exact ⟨.cons entry entries, fresh_cons.mpr ⟨newCan, cans⟩, fresh_cons.mpr ⟨newMst, msts⟩⟩
    · intro given
      obtain ⟨entries, cans, msts⟩ := given
      cases entries with
      | @cons _ config _ others entry entries =>
        rw [fresh_cons] at cans msts
        exact ⟨config, entry, cans.1, msts.1, others, ⟨entries, cans.2, msts.2⟩, rfl⟩

theorem throwIf_ok {refused : Prop} [Decidable refused] {what : String} {done : Unit} :
    throwIf refused what = .ok done ↔ ¬refused := by
  rw [throwIf, check_eq_ok, pure_eq_ok]
  exact and_iff_left rfl

theorem sequenceItems_ok {motors : Node} {items : List Node} :
    sequenceItems motors = .ok items ↔ motors = .sequence items := by
  cases motors with
  | sequence found => simp [sequenceItems, pure_eq_ok]
  | _ => simp [sequenceItems]

theorem loadArmConfig_ok {path : String} {root : Node} {config : ArmConfig} :
    loadArmConfig path (.ok root) = .ok config ↔ Describes root config := by
  simp only [loadArmConfig, loadFile, pure_bind, bind_eq_ok, requireNode_ok, sequenceItems_ok,
    scalarString_ok, throwIf_ok, parseUint32_ok, loadMotors_ok, fresh_nil, pure_eq_ok]
  constructor
  · intro given
    obtain ⟨usb, hasUsb, control, hasControl, motors, hasMotors, items, rfl, _, hasSerial, serial, rfl,
      _, named, _, hasNominal, nominal, ⟨nominalText, rfl, nominalRead, nominalFits⟩,
      _, hasData, data, ⟨dataText, rfl, dataRead, dataFits⟩,
      _, hasPeriod, period, ⟨periodText, rfl, periodRead, periodFits⟩,
      loaded, ⟨entries, canIds, mstIds⟩, _, present, rfl⟩ := given
    have below {parent child : Node} {key rest : String} (hasParent : root.descend [key] = some parent)
        (hasChild : parent.descend [rest] = some child) : root.descend [key, rest] = some child := by
      rw [descend_cons, hasParent, Option.bind_some, hasChild]
    refine ⟨below hasUsb hasSerial, named, ⟨nominalText, below hasUsb hasNominal, ?_⟩,
      ⟨dataText, below hasUsb hasData, ?_⟩, ⟨periodText, below hasControl hasPeriod, periodRead⟩,
      periodFits, ⟨items, hasMotors, entries⟩, present, canIds, mstIds⟩
    · rw [BitVec.toNat_ofNat, Nat.mod_eq_of_lt nominalFits, nominalRead]
    · rw [BitVec.toNat_ofNat, Nat.mod_eq_of_lt dataFits, dataRead]
  · intro given
    obtain ⟨serial, named, ⟨nominalText, hasNominal, nominalRead⟩, ⟨dataText, hasData, dataRead⟩,
      ⟨periodText, hasPeriod, periodRead⟩, periodFits, ⟨items, hasMotors, entries⟩, present, canIds, mstIds⟩ := given
    rw [descend_cons, Option.bind_eq_some_iff] at serial hasNominal hasData hasPeriod
    obtain ⟨usb, hasUsb, hasSerial⟩ := serial
    obtain ⟨control, hasControl, hasPeriod⟩ := hasPeriod
    have sameUsb {other : Node} (hasOther : root.descend ["usb"] = some other) : other = usb :=
      Option.some.inj (hasOther.symm.trans hasUsb)
    obtain ⟨other, hasOther, hasNominal⟩ := hasNominal
    cases sameUsb hasOther
    obtain ⟨other, hasOther, hasData⟩ := hasData
    cases sameUsb hasOther
    refine ⟨usb, hasUsb, control, hasControl, _, hasMotors, items, rfl, _, hasSerial, _, rfl, (), named,
      _, hasNominal, config.nomBaud.toNat, ⟨nominalText, rfl, nominalRead, config.nomBaud.isLt⟩,
      _, hasData, config.datBaud.toNat, ⟨dataText, rfl, dataRead, config.datBaud.isLt⟩,
      _, hasPeriod, config.loopPeriod, ⟨periodText, rfl, periodRead, periodFits⟩,
      config.motors, ⟨entries, canIds, mstIds⟩, (), present, ?_⟩
    simp only [BitVec.ofNat_toNat, BitVec.setWidth_eq]

/-- The loader accepts the well-formed documents, reads from each the one configuration that it
spells out, and throws on every other. -/
theorem accepts_exactly (path : String) (root : Node) :
    (∀ config, loadArmConfig path (.ok root) = .ok config ↔ Describes root config) ∧
      ((∃ fault, loadArmConfig path (.ok root) = .error fault) ↔ ∀ config, ¬Describes root config) := by
  refine ⟨fun config => loadArmConfig_ok, ?_⟩
  constructor
  · intro given config described
    obtain ⟨fault, thrown⟩ := given
    rw [loadArmConfig_ok.mpr described] at thrown
    cases thrown
  · intro none
    rcases outcome : loadArmConfig path (.ok root) with fault | config
    · exact ⟨fault, rfl⟩
    · exact absurd (loadArmConfig_ok.mp outcome) (none config)

/-- A configuration that some file loads to. -/
def Accepted (config : ArmConfig) : Prop :=
  ∃ path file, loadArmConfig path file = .ok config

theorem accepted_described {config : ArmConfig} (accepted : Accepted config) :
    ∃ root, Describes root config := by
  obtain ⟨path, file, loaded⟩ := accepted
  cases file with
  | error what => cases loaded
  | ok root => exact ⟨root, loadArmConfig_ok.mp loaded⟩

theorem accepted_distinct {config : ArmConfig} (accepted : Accepted config) :
    (config.motors.map MotorConfig.canId).Nodup ∧ (config.motors.map MotorConfig.mstId).Nodup := by
  obtain ⟨root, described⟩ := accepted_described accepted
  exact ⟨described.canIds, described.mstIds⟩

/-- An entry of the motor list, and a whole document around such entries. -/
def motorEntry (canId mstId : String) : Node :=
  .map [("name", .scalar "joint"), ("model", .scalar "DM4310"), ("mode", .scalar "MIT"),
    ("can_id", .scalar canId), ("mst_id", .scalar mstId)]

def document (motors : List Node) : Node :=
  .map [("usb", .map [("serial", .scalar "DM"), ("nominal_baud", .scalar "1000000"),
      ("data_baud", .scalar "5000000")]),
    ("control", .map [("loop_period_ms", .scalar "1")]), ("motors", .sequence motors)]

/-- An arm of DM4310 joints with the given CAN and master IDs. -/
def joints (ids : List (Id × Id)) : ArmConfig :=
  { usbSerial := "DM", datBaud := 5000000
    motors := ids.map fun id => { name := "joint", canId := id.1, mstId := id.2 } }

theorem joint_accepted : Accepted (joints [(1, 0x11)]) :=
  ⟨"arm.yaml", .ok (document [motorEntry "0x01" "0x11"]), by decide +kernel⟩

theorem separate_accepted : Accepted (joints [(1, 0x11), (2, 0x12)]) :=
  ⟨"arm.yaml", .ok (document [motorEntry "0x01" "0x11", motorEntry "0x02" "0x12"]), by decide +kernel⟩

end DmOpenarm.YamlLoader
