import DmOpenarm.MitFrame
import DmOpenarm.Records

/-! Register accesses of the SDK, and what its getters answer after them. A float is its pattern
of 32 bits, which is what a register access carries. -/

namespace DmOpenarm.RegisterAccess
open Types hiding ControlMode
open Damiao Registry Reception MotorBus Traffic ReliableBus Feedback Records
open Library.FirstWins Library.Effect Library.Latest

/-- The number that a single precision pattern stands for, unless it is an infinity or NaN. -/
def floatValue (bits : BitVec 32) : Option ℚ :=
  let exponent := bits.toNat / 2 ^ 23 % 256
  let fraction : ℚ := (bits.toNat % 2 ^ 23 : Nat)
  let magnitude := if exponent = 0 then fraction / 2 ^ 149 else (2 ^ 23 + fraction) * 2 ^ exponent / 2 ^ 150
  if exponent = 255 then none
  else if bits.msb then some (-magnitude)
  else some magnitude

section Programs
variable {n : Nat} (unspecified : BitVec 32 → BitVec 32)

/-- Truncation. A number outside the range of the result has no specified conversion. -/
def floatToUint32 (value : BitVec 32) : BitVec 32 :=
  match floatValue value with
  | some number => if -1 < number ∧ number < 2 ^ 32 then BitVec.ofNat 32 ⌊number⌋₊ else unspecified value
  | none => unspecified value

/-- The bytes of a word in memory, lowest first. -/
def bytes (word : BitVec 32) : List Byte :=
  [word.setWidth 8, (word >>> 8).setWidth 8, (word >>> 16).setWidth 8, (word >>> 24).setWidth 8]

/-- What a float is turned into for a register: integer registers get its integer part. -/
def registerWord (rid : Byte) (value : BitVec 32) : BitVec 32 :=
  if isInRanges rid then floatToUint32 unspecified value else value

def changeMotorParam (motor : Fin n) (rid : Byte) (value : BitVec 32) : Sdk n Bool := do
  writeMotorParam motor rid (bytes (registerWord unspecified rid value))
  let host ← get
  match host.control.motors.find? (host.control.objects motor).canId with
  | none => throw .exit
  | some _ => pure true

def Motor.isHaveParam (motor : Motor) (key : Byte) : Bool := (motor.paramMap key).isSome

def Motor.getParamAsFloat (motor : Motor) (key : Byte) : BitVec 32 :=
  match motor.paramMap key with
  | some value => if value.isFloat then value.bits else 0
  | none => 0

def Motor.getParamAsUint32 (motor : Motor) (key : Byte) : BitVec 32 :=
  match motor.paramMap key with
  | some value => if value.isFloat then 0 else value.bits
  | none => 0

/-- The four functions that access a register of a motor. -/
inductive Access (n : Nat) where
  | read (motor : Fin n) (rid : Byte)
  | write (motor : Fin n) (rid : Byte) (word : BitVec 32)
  | change (motor : Fin n) (rid : Byte) (value : BitVec 32)
  | switch (motor : Fin n) (code : Byte)

def Access.perform : Access n → Sdk n Unit
  | .read motor rid => readMotorParam motor rid
  | .write motor rid word => writeMotorParam motor rid (bytes word)
  | .change motor rid value => do
      let _ ← changeMotorParam unspecified motor rid value
  | .switch motor code => switchControlMode motor code

def Access.motor : Access n → Fin n
  | .read motor _ => motor
  | .write motor _ _ => motor
  | .change motor _ _ => motor
  | .switch motor _ => motor

def Access.rid : Access n → Byte
  | .read _ rid => rid
  | .write _ rid _ => rid
  | .change _ rid _ => rid
  | .switch _ _ => 10

/-- The value that an access writes. -/
def Access.written : Access n → Option (BitVec 32)
  | .read _ _ => none
  | .write _ _ word => some word
  | .change _ rid value => some (registerWord unspecified rid value)
  | .switch _ code => some (code.setWidth 32)

/-- An access, the frames that come between the flag and the send, those before the answer, the
answer, and those after it. -/
structure Exchange (n : Nat) where
  access : Access n
  early : List Arrival := []
  late : List Arrival := []
  answer : Arrival
  idle : List Arrival := []

def Exchange.script (exchange : Exchange n) : List Slot :=
  [{ arrivals := exchange.early }, { arrivals := exchange.late ++ exchange.answer :: exchange.idle }]

/-- The access, and a sleep in which the answer comes. -/
def Exchange.run (exchange : Exchange n) : Sdk n Unit := do
  modify fun host => host.withScript exchange.script
  exchange.access.perform unspecified
  usleep

def session (exchanges : List (Exchange n)) : Sdk n Unit := exchanges.forM fun exchange => exchange.run unspecified

end Programs

section Answers
variable {n : Nat} (unspecified : BitVec 32 → BitVec 32) (data : Fin n → DmActData)

/-- What an access puts on the bus. -/
def Access.request (access : Access n) : TxFrame :=
  match access.written unspecified with
  | none => registerFrame (data access.motor).canId [0x33, access.rid, 0, 0, 0, 0]
  | some word => registerFrame (data access.motor).canId ([0x55, access.rid] ++ bytes word)

/-- A frame from a known motor that is marked as the answer to some access. -/
def Marked (frame : CanFrame) : Prop :=
  ((MotorControl.registry data).find? (frame.id.setWidth 16)).isSome = true ∧
    (frame.data 2 = 0x33 ∨ frame.data 2 = 0x55 ∨ frame.data 2 = 0xAA)

instance (frame : CanFrame) : Decidable (Marked data frame) := inferInstanceAs (Decidable (_ ∧ _))

def firstBytes (frame : CanFrame) : List Byte :=
  [frame.data 0, frame.data 1, frame.data 2, frame.data 3, frame.data 4, frame.data 5, frame.data 6, frame.data 7]

/-- A motor repeats a request to write, and the head of a request to read. -/
def Repeats (access : Access n) (frame : CanFrame) : Prop :=
  match access.written unspecified with
  | none => (firstBytes frame).take 4 = (access.request unspecified data).data.take 4
  | some _ => firstBytes frame = (access.request unspecified data).data

instance (access : Access n) (frame : CanFrame) : Decidable (Repeats unspecified data access frame) := by
  unfold Repeats
  cases access.written unspecified with
  | none => exact inferInstance
  | some word => exact inferInstance

/-- Nothing is marked as an answer before the answer comes. -/
structure Answered (exchange : Exchange n) : Prop where
  early : ∀ arrival ∈ exchange.early, ¬Marked data arrival.frame
  late : ∀ arrival ∈ exchange.late, ¬Marked data arrival.frame
  known : ((MotorControl.registry data).find? (exchange.answer.frame.id.setWidth 16)).isSome = true
  repeats : Repeats unspecified data exchange.access exchange.answer.frame

instance (exchange : Exchange n) : Decidable (Answered unspecified data exchange) :=
  decidable_of_iff ((∀ arrival ∈ exchange.early, ¬Marked data arrival.frame) ∧
      (∀ arrival ∈ exchange.late, ¬Marked data arrival.frame) ∧
      ((MotorControl.registry data).find? (exchange.answer.frame.id.setWidth 16)).isSome = true ∧
      Repeats unspecified data exchange.access exchange.answer.frame)
    ⟨fun all => ⟨all.1, all.2.1, all.2.2.1, all.2.2.2⟩,
      fun answered => ⟨answered.early, answered.late, answered.known, answered.repeats⟩⟩

/-- What an exchange says of a register: the value that was written, or else the one read. It is
kept for the motor that the CAN ID leads to. -/
def Exchange.reading (exchange : Exchange n) : Reading n :=
  match (MotorControl.registry data).find? (data exchange.access.motor).canId with
  | none => .nothing
  | some target => .register target exchange.access.rid
      ((exchange.access.written unspecified).getD (word32 exchange.answer.frame.data))

/-- An exchange, and the feedback that comes after its answer. -/
def Exchange.readings (exchange : Exchange n) : List (Reading n) :=
  exchange.reading unspecified data ::
    exchange.idle.map fun arrival => Records.reading data ⟨arrival.frame, arrival.reply, false⟩

def transcript (exchanges : List (Exchange n)) : List (Reading n) :=
  exchanges.flatMap fun exchange => exchange.readings unspecified data

end Answers

section Words

/-- A byte put back in its place shows the bits of the word there, and no others. -/
theorem getLsbD_byte (word : BitVec 32) (shift : Nat) {place : Nat} (inside : place < 32) :
    (((word >>> shift).setWidth 8).setWidth 32 <<< shift).getLsbD place =
      (decide (shift ≤ place ∧ place < shift + 8) && word.getLsbD place) := by
  simp only [BitVec.getLsbD_shiftLeft, BitVec.getLsbD_setWidth, BitVec.getLsbD_ushiftRight]
  by_cases below : place < shift
  · have outside : ¬(shift ≤ place ∧ place < shift + 8) := by omega
    simp only [below, outside, decide_true, Bool.not_true, decide_false, Bool.and_false, Bool.false_and]
  · have split : shift + (place - shift) = place := by omega
    have range : (shift ≤ place ∧ place < shift + 8) ↔ place - shift < 8 := by omega
    have near : place - shift < 32 := by omega
    simp only [inside, below, near, split, range, decide_true, decide_false, Bool.not_false, Bool.true_and]

theorem word32_bytes {received : Fin 64 → Byte} {word : BitVec 32}
    (same : [received 4, received 5, received 6, received 7] = bytes word) : word32 received = word := by
  simp only [bytes, List.cons.injEq, and_true] at same
  obtain ⟨first, second, third, fourth⟩ := same
  apply BitVec.eq_of_getLsbD_eq
  intro place inside
  have lowest := getLsbD_byte word 0 inside
  rw [BitVec.ushiftRight_zero, BitVec.shiftLeft_zero] at lowest
  rw [word32, first, second, third, fourth, BitVec.getLsbD_or, BitVec.getLsbD_or, BitVec.getLsbD_or,
    getLsbD_byte word 24 inside, getLsbD_byte word 16 inside, getLsbD_byte word 8 inside, lowest,
    ← Bool.and_or_distrib_right, ← Bool.and_or_distrib_right, ← Bool.and_or_distrib_right]
  have covered : (((24 ≤ place ∧ place < 24 + 8) ∨ (16 ≤ place ∧ place < 16 + 8)) ∨ (8 ≤ place ∧ place < 8 + 8)) ∨
      (0 ≤ place ∧ place < 0 + 8) := by omega
  rw [← Bool.decide_or, ← Bool.decide_or, ← Bool.decide_or, decide_eq_true covered, Bool.true_and]

theorem bytes_byte (code : Byte) : bytes (code.setWidth 32) = [code, 0, 0, 0] := by
  have bound := code.isLt
  have above (shift : Nat) (far : 8 ≤ shift) : ((code.setWidth 32 >>> shift).setWidth 8 : Byte) = 0 := by
    apply BitVec.eq_of_getLsbD_eq
    intro place inside
    have outside : code.getLsbD (shift + place) = false := BitVec.getLsbD_of_ge code _ (by omega)
    simp [BitVec.getLsbD_ushiftRight, BitVec.getLsbD_setWidth, outside]
  have same : ((code.setWidth 32).setWidth 8 : Byte) = code := by
    rw [BitVec.setWidth_setWidth_of_le _ (by decide), BitVec.setWidth_eq]
  rw [bytes, same, above 8 (by decide), above 16 (by decide), above 24 (by decide)]

theorem word16_bytes (id : Id) : word16 ((id >>> 8).setWidth 8) (id.setWidth 8) = id := by
  have bound := id.isLt
  apply BitVec.eq_of_toNat_eq
  rw [MitFrame.toNat_word16, BitVec.toNat_setWidth, BitVec.toNat_setWidth, BitVec.toNat_ushiftRight,
    Nat.shiftRight_eq_div_pow]
  omega

end Words

section Bus
variable {n : Nat} {unspecified : BitVec 32 → BitVec 32} {data : Fin n → DmActData}

/-- The motors before and after some readings, oldest first. -/
structure Tells (readings : List (Reading n)) (before after : MotorControl n) : Prop where
  pose : ∀ motor, measured after motor = (latest (Reading.pose motor) readings).getD (measured before motor)
  mode : ∀ motor, (after.objects motor).mode = (latest (Reading.mode motor) readings).getD (before.objects motor).mode
  params : ∀ motor rid, (after.objects motor).paramMap rid =
    (latest (Reading.value motor rid) readings).or ((before.objects motor).paramMap rid)

theorem Tells.refl (control : MotorControl n) : Tells [] control control :=
  ⟨fun _ => rfl, fun _ => rfl, fun _ _ => rfl⟩

theorem Tells.one {read : Reading n} {before after : MotorControl n} (applied : Applied read before after) :
    Tells [read] before after := by
  have only {α : Type} (gives : Reading n → Option α) : latest gives [read] = gives read :=
    (latest_append gives [] read).trans (Option.or_none)
  refine ⟨fun motor => ?_, fun motor => ?_, fun motor rid => ?_⟩
  · rw [only, applied.pose]
  · rw [only, applied.mode]
  · rw [only, applied.params]

theorem Tells.trans {earlier later : List (Reading n)} {first second third : MotorControl n}
    (before : Tells earlier first second) (after : Tells later second third) : Tells (earlier ++ later) first third := by
  refine ⟨fun motor => ?_, fun motor => ?_, fun motor rid => ?_⟩
  · rw [latest_append_list, Option.getD_or, after.pose, before.pose]
  · rw [latest_append_list, Option.getD_or, after.mode, before.mode]
  · rw [latest_append_list, Option.or_assoc, after.params, before.params]

/-- While an access is pending, a frame that is not marked as an answer changes nothing. -/
theorem receive_unmarked {host : Host n} (built : Built data host.control) (pending : host.control.readWriteSave = true)
    {arrival : Arrival} (unmarked : ¬Marked data arrival.frame) : (host.receive arrival).control = host.control := by
  change host.control.canframeCallback _ arrival.frame = host.control
  unfold MotorControl.canframeCallback
  dsimp only
  cases found : host.control.motors.find? (arrival.frame.id.setWidth 16) with
  | none => simp only [Option.isSome_none, Bool.and_false, Bool.false_eq_true, ↓reduceIte]
  | some motor =>
    have other : ¬(arrival.frame.data 2 = 0x33 ∨ arrival.frame.data 2 = 0x55 ∨ arrival.frame.data 2 = 0xAA) := by
      intro marked
      refine unmarked ⟨?_, marked⟩
      rw [← built.motors, found]
      rfl
    simp only [pending, Option.isSome_some, Bool.and_self, ↓reduceIte, if_neg other]

theorem receive_all_unmarked {arrivals : List Arrival} {host : Host n} (built : Built data host.control)
    (pending : host.control.readWriteSave = true) (unmarked : ∀ arrival ∈ arrivals, ¬Marked data arrival.frame) :
    (arrivals.foldl Host.receive host).control = host.control := by
  induction arrivals generalizing host with
  | nil => rfl
  | cons arrival rest ih =>
    have same := receive_unmarked built pending (unmarked arrival List.mem_cons_self)
    have later := fun other member => unmarked other (List.mem_cons_of_mem arrival member)
    rw [List.foldl_cons, ih (same ▸ built) (same ▸ pending) later, same]

/-- An answer ends the access. -/
theorem receive_marked {host : Host n} (built : Built data host.control) (pending : host.control.readWriteSave = true)
    {arrival : Arrival} (marked : Marked data arrival.frame) :
    (host.receive arrival).control.readWriteSave = false := by
  change (host.control.canframeCallback _ arrival.frame).readWriteSave = false
  have expected : (host.control.readWriteSave && (host.control.motors.find? (arrival.frame.id.setWidth 16)).isSome) = true := by
    rw [pending, built.motors, marked.1]
    rfl
  unfold MotorControl.canframeCallback
  simp only [if_pos expected, if_pos marked.2]

theorem receive_idle {host : Host n} (idle : host.control.readWriteSave = false) (arrival : Arrival) :
    (host.receive arrival).control.readWriteSave = false := by
  change (host.control.canframeCallback _ arrival.frame).readWriteSave = false
  unfold MotorControl.canframeCallback
  simp only [idle, Bool.false_and, Bool.false_eq_true, ↓reduceIte]
  cases host.control.motors.find? (arrival.frame.id.setWidth 16) with
  | none => exact idle
  | some motor => exact idle

/-- While no access is pending, all frames are taken for feedback. -/
theorem receive_all_idle {arrivals : List Arrival} {host : Host n} (built : Built data host.control)
    (idle : host.control.readWriteSave = false) :
    Tells (arrivals.map fun arrival => Records.reading data ⟨arrival.frame, arrival.reply, false⟩) host.control
      (arrivals.foldl Host.receive host).control := by
  induction arrivals generalizing host with
  | nil => exact .refl host.control
  | cons arrival rest ih =>
    have first := Tells.one (applied_receive built arrival)
    rw [idle] at first
    exact first.trans (ih (built.receive arrival) (receive_idle idle arrival))

theorem exec_writeMotorParam {host : Host n} (built : Built data host.control)
    (reliable : Reliable (host.usb.script.take 1)) (motor : Fin n) (rid : Byte) (value : List Byte) :
    exec (writeMotorParam motor rid value) host = (.ok (), host.expectReply.advance.emit
      (registerFrame (data motor).canId ([0x55, rid] ++ value))) := by
  have still : Reliable (host.expectReply.usb.script.take 1) := reliable
  rw [writeMotorParam, exec_modify_bind, exec_bind_ok (exec_motorCanId motor _), exec_fdcanFrameSend_reliable still,
    ← built.canId]
  rfl

/-- Every CAN ID is registered, so no access ends the process. -/
theorem registered_canId {host : Host n} (built : Built data host.control) (motor : Fin n) :
    ∃ found, host.control.motors.find? (host.control.objects motor).canId = some found := by
  rw [built.motors, built.canId]
  exact exists_find?_canId data motor

/-- An access sends its request and returns, after a sleep if it reads. -/
theorem exec_perform {host : Host n} (built : Built data host.control) (reliable : Reliable (host.usb.script.take 1))
    (access : Access n) : ∃ last, exec (access.perform unspecified) host = (.ok (), last) ∧
      (last = host.expectReply.advance.emit (access.request unspecified data) ∨
        last = (host.expectReply.advance.emit (access.request unspecified data)).advance) := by
  have after (frame : TxFrame) : Built data (host.expectReply.advance.emit frame).control :=
    built_advance data ((bus data).kept _ _ (.expect host) built)
  cases access with
  | read motor rid =>
    have still : Reliable (host.expectReply.usb.script.take 1) := reliable
    refine ⟨_, ?_, .inr rfl⟩
    rw [Access.perform, readMotorParam, exec_modify_bind, exec_bind_ok (exec_motorCanId motor _),
      exec_bind_ok (exec_fdcanFrameSend_reliable still _)]
    change exec usleep (host.expectReply.advance.emit (registerFrame (host.control.objects motor).canId _)) = _
    rw [built.canId]
    rfl
  | write motor rid word => exact ⟨_, exec_writeMotorParam built reliable motor rid _, .inl rfl⟩
  | change motor rid value =>
    refine ⟨_, ?_, .inl rfl⟩
    obtain ⟨found, known⟩ := registered_canId (after (registerFrame (data motor).canId
      ([0x55, rid] ++ bytes (registerWord unspecified rid value)))) motor
    have sent := exec_writeMotorParam built reliable motor rid (bytes (registerWord unspecified rid value))
    have returned : exec (changeMotorParam unspecified motor rid value) host =
        (.ok true, host.expectReply.advance.emit (Access.request unspecified data (.change motor rid value))) := by
      rw [changeMotorParam, exec_bind_ok sent, exec_get_bind, known]
      rfl
    rw [Access.perform, exec_bind_ok returned]
    rfl
  | switch motor code =>
    refine ⟨_, ?_, .inl rfl⟩
    have same : bytes (code.setWidth 32) = [code, 0, 0, 0] := bytes_byte code
    obtain ⟨found, known⟩ := registered_canId (after (registerFrame (data motor).canId
      ([0x55, 10] ++ [code, 0, 0, 0]))) motor
    have sent := exec_writeMotorParam built reliable motor 10 [code, 0, 0, 0]
    rw [Access.perform, switchControlMode, exec_bind_ok sent, exec_get_bind, known, ← same]
    rfl

/-- What the answer to an access names. -/
theorem repeats_request {access : Access n} {frame : CanFrame} (repeats : Repeats unspecified data access frame) :
    word16 (frame.data 1) (frame.data 0) = (data access.motor).canId ∧ (frame.data 2 = 0x33 ∨ frame.data 2 = 0x55) ∧
      frame.data 3 = access.rid ∧ word32 frame.data = (access.written unspecified).getD (word32 frame.data) := by
  unfold Repeats Access.request at repeats
  cases written : access.written unspecified with
  | none =>
    simp only [written, firstBytes, registerFrame, List.take, List.cons_append, List.nil_append, List.cons.injEq,
      and_true] at repeats
    obtain ⟨low, high, command, rid⟩ := repeats
    refine ⟨?_, .inl command, rid, rfl⟩
    rw [low, high, word16_bytes]
  | some word =>
    simp only [written, firstBytes, registerFrame, List.cons_append, List.nil_append, List.cons.injEq] at repeats
    obtain ⟨low, high, command, rid, value⟩ := repeats
    refine ⟨?_, .inr command, rid, ?_⟩
    · rw [low, high, word16_bytes]
    · change word32 frame.data = word
      exact word32_bytes (by simpa only [bytes, List.cons.injEq] using value)

theorem reading_answer {exchange : Exchange n} (answered : Answered unspecified data exchange) :
    Records.reading data ⟨exchange.answer.frame, exchange.answer.reply, true⟩ = exchange.reading unspecified data := by
  obtain ⟨id, command, rid, value⟩ := repeats_request answered.repeats
  obtain ⟨sender, found⟩ := Option.isSome_iff_exists.mp answered.known
  unfold Records.reading Exchange.reading
  cases target : (MotorControl.registry data).find? (data exchange.access.motor).canId with
  | none => simp only [found, if_pos command, id, target, ↓reduceIte]
  | some motor => simp only [found, if_pos command, id, target, rid, ↓reduceIte, ← value]

theorem advance_slot {host : Host n} {slot : Slot} {rest : List Slot} (script : host.usb.script = slot :: rest) :
    host.advance = slot.arrivals.foldl Host.receive (host.withScript rest) := by
  rw [Host.advance, script]

theorem advance_unmarked {host : Host n} {slot : Slot} {rest : List Slot} (script : host.usb.script = slot :: rest)
    (built : Built data host.control) (pending : host.control.readWriteSave = true)
    (unmarked : ∀ arrival ∈ slot.arrivals, ¬Marked data arrival.frame) : host.advance.control = host.control := by
  have placed : Built data (host.withScript rest).control := built
  rw [advance_slot script]
  exact receive_all_unmarked placed pending unmarked

/-- In the sleep the frames before the answer change nothing, the answer says its value, and what
follows is feedback. -/
theorem advance_answered {exchange : Exchange n} (answered : Answered unspecified data exchange) {host : Host n}
    (script : host.usb.script = [{ arrivals := exchange.late ++ exchange.answer :: exchange.idle }])
    (built : Built data host.control) (pending : host.control.readWriteSave = true) :
    Tells (exchange.readings unspecified data) host.control host.advance.control := by
  have placed : Built data (host.withScript []).control := built
  have quiet := receive_all_unmarked placed pending answered.late
  have same : (host.withScript []).control = host.control := rfl
  rw [advance_slot script, List.foldl_append, List.foldl_cons]
  rw [same] at quiet
  generalize exchange.late.foldl Host.receive (host.withScript []) = before at quiet
  rw [← quiet] at built pending ⊢
  have applied := applied_receive built exchange.answer
  rw [pending, reading_answer answered] at applied
  have marked : Marked data exchange.answer.frame :=
    ⟨answered.known, (repeats_request answered.repeats).2.1.imp id .inl⟩
  exact (Tells.one applied).trans (receive_all_idle (built.receive exchange.answer) (receive_marked built pending marked))

/-- One exchange returns, sends one request, and changes what it says. -/
theorem exec_run {exchange : Exchange n} (answered : Answered unspecified data exchange) {host : Host n}
    (built : Built data host.control) : ∃ last, exec (exchange.run unspecified) host = (.ok (), last) ∧
      last.usb.sent = host.usb.sent ++ [exchange.access.request unspecified data] ∧ Built data last.control ∧
      Tells (exchange.readings unspecified data) host.control last.control := by
  have placed : Built data (host.withScript exchange.script).control := built
  have reliable : Reliable ((host.withScript exchange.script).usb.script.take 1) := by
    simp [Reliable, Host.withScript, Exchange.script]
  obtain ⟨middle, performed, ways⟩ := @exec_perform n unspecified data _ placed reliable exchange.access
  have expects : Built data (host.withScript exchange.script).expectReply.control :=
    (bus data).kept _ _ (.expect _) placed
  have quiet : (host.withScript exchange.script).expectReply.advance.control =
      (host.withScript exchange.script).expectReply.control := advance_unmarked rfl expects rfl answered.early
  have usb := advance_usb (host.withScript exchange.script).expectReply
  generalize (host.withScript exchange.script).expectReply.advance = sent at ways quiet usb
  have ready : Built data (sent.emit (exchange.access.request unspecified data)).control := quiet ▸ expects
  have pending : (sent.emit (exchange.access.request unspecified data)).control.readWriteSave = true := by
    change sent.control.readWriteSave = true
    rw [quiet]
    rfl
  have script : (sent.emit (exchange.access.request unspecified data)).usb.script =
      [{ arrivals := exchange.late ++ exchange.answer :: exchange.idle }] := usb.2
  have told := advance_answered answered script ready pending
  have after := advance_usb (sent.emit (exchange.access.request unspecified data))
  refine ⟨(sent.emit (exchange.access.request unspecified data)).advance, ?_, ?_, built_advance data ready, ?_⟩
  · have slept : middle.advance = (sent.emit (exchange.access.request unspecified data)).advance := by
      rcases ways with same | same
      · rw [same]
      · have empty : (sent.emit (exchange.access.request unspecified data)).advance.usb.script = [] := by
          rw [after.2, script]
          rfl
        rw [same, Host.advance, empty]
    rw [Exchange.run, exec_modify_bind, exec_bind_ok performed, ← slept]
    rfl
  · rw [after.1]
    change sent.usb.sent ++ _ = _
    rw [usb.1]
    rfl
  · have begins : (sent.emit (exchange.access.request unspecified data)).control =
        (host.withScript exchange.script).expectReply.control := quiet
    rw [begins] at told
    exact ⟨told.pose, told.mode, told.params⟩

/-- What the getters give for a register that holds a value: integer registers are not read as
floats, nor the others as integers. -/
structure Gives (motor : Motor) (rid : Byte) (bits : BitVec 32) : Prop where
  present : Motor.isHaveParam motor rid = true
  uint32 : Motor.getParamAsUint32 motor rid = if isInRanges rid then bits else 0
  float : Motor.getParamAsFloat motor rid = if isInRanges rid then 0 else bits

theorem gives_value {motor : Motor} {rid : Byte} {value : ValueType} (held : motor.paramMap rid = some value)
    (typed : value.isFloat = !isInRanges rid) : Gives motor rid value.bits := by
  refine ⟨?_, ?_, ?_⟩
  · rw [Motor.isHaveParam, held]
    rfl
  · rw [Motor.getParamAsUint32, held]
    cases ranged : isInRanges rid with
    | false => simp [typed, ranged]
    | true => simp [typed, ranged]
  · rw [Motor.getParamAsFloat, held]
    cases ranged : isInRanges rid with
    | false => simp [typed, ranged]
    | true => simp [typed, ranged]

/-- Which kind of value a register holds is settled by its number. -/
theorem value_typed {motor : Fin n} {rid : Byte} {readings : List (Reading n)} {value : ValueType}
    (found : latest (Reading.value motor rid) readings = some value) : value.isFloat = !isInRanges rid := by
  obtain ⟨_, read, _, _, given, _⟩ := latest_eq_some found
  cases read with
  | nothing => cases given
  | feedback target pose => cases given
  | register target written bits =>
    rw [Reading.value] at given
    split at given
    · cases given
      rfl
    · cases given

theorem session_tells {exchanges : List (Exchange n)} (answered : ∀ exchange ∈ exchanges, Answered unspecified data exchange)
    {host : Host n} (built : Built data host.control) :
    ∃ last, exec (session unspecified exchanges) host = (.ok (), last) ∧
      last.usb.sent = host.usb.sent ++ exchanges.map (fun exchange => exchange.access.request unspecified data) ∧
      Tells (transcript unspecified data exchanges) host.control last.control := by
  induction exchanges generalizing host with
  | nil => exact ⟨host, rfl, (List.append_nil _).symm, .refl host.control⟩
  | cons exchange rest ih =>
    obtain ⟨middle, ran, sent, still, told⟩ := exec_run (answered exchange List.mem_cons_self) built
    obtain ⟨last, others, more, after⟩ :=
      ih (fun other member => answered other (List.mem_cons_of_mem exchange member)) still
    refine ⟨last, (exec_bind_ok ran _).trans others, ?_, told.trans after⟩
    rw [more, sent, List.append_assoc]
    rfl

/-- A session of register accesses, each answered before the next, returns. It sends its requests
and no other frame. Afterwards each getter gives the latest value that was written to or read from
the register, and each motor shows the latest mode that was written or read, and the latest of the
feedback that came between the exchanges. -/
theorem getters_follow_exchanges (unspecified : BitVec 32 → BitVec 32) {exchanges : List (Exchange n)}
    (answered : ∀ exchange ∈ exchanges, Answered unspecified data exchange) {host : Host n}
    (built : Built data host.control) :
    ∃ last, exec (session unspecified exchanges) host = (.ok (), last) ∧
      last.usb.sent = host.usb.sent ++ exchanges.map (fun exchange => exchange.access.request unspecified data) ∧
      (∀ motor, measured last.control motor =
          (latest (Reading.pose motor) (transcript unspecified data exchanges)).getD (measured host.control motor) ∧
        (last.control.objects motor).mode =
          (latest (Reading.mode motor) (transcript unspecified data exchanges)).getD (host.control.objects motor).mode) ∧
      ∀ motor rid,
        (∀ value, latest (Reading.value motor rid) (transcript unspecified data exchanges) = some value →
          Gives (last.control.objects motor) rid value.bits) ∧
        (latest (Reading.value motor rid) (transcript unspecified data exchanges) = none →
          (last.control.objects motor).paramMap rid = (host.control.objects motor).paramMap rid) := by
  obtain ⟨last, ran, sent, told⟩ := session_tells answered built
  refine ⟨last, ran, sent, fun motor => ⟨told.pose motor, told.mode motor⟩, ?_⟩
  intro motor rid
  have held := told.params motor rid
  refine ⟨?_, ?_⟩
  · intro value found
    rw [found, Option.some_or] at held
    exact gives_value held (value_typed found)
  · intro silent
    rw [silent, Option.none_or] at held
    exact held

end Bus

/-- Two motors, the frame a motor sends, and a session: the first motor gets a new time limit while
it still reports its state, and the second changes its mode. -/
def pair : Fin 2 → DmActData
  | 0 => ⟨.DM4310, .MIT_MODE, 1, 0x11⟩
  | 1 => ⟨.DM8009, .MIT_MODE, 2, 0x12⟩

def answerFrame (id : Id) (payload : List Byte) : CanFrame where
  id := id.setWidth 32
  data place := payload.getD place 0

def pairExchanges : List (Exchange 2) :=
  [{ access := .change 0 9 0x42480000, early := [{ frame := answerFrame 0x11 [0, 0x80, 0, 0, 0, 0] }],
     answer := { frame := answerFrame 0x11 [1, 0, 0x55, 9, 50, 0, 0, 0], reply := true } },
    { access := .switch 1 2, late := [{ frame := answerFrame 0x7 [0, 0, 0x33] }],
      answer := { frame := answerFrame 0x12 [2, 0, 0x55, 10, 2, 0, 0, 0], reply := true },
      idle := [{ frame := answerFrame 0x11 [0, 0x33, 0x33, 0, 0, 0] }] }]

theorem pair_gives : ∃ last : Host 2,
    exec (session (fun _ => 0) pairExchanges) ⟨MotorControl.new pair 0, {}⟩ = (.ok (), last) ∧
      Motor.getParamAsUint32 (last.control.objects 0) 9 = 50 ∧ (last.control.objects 1).mode = .POS_VEL_MODE ∧
      last.usb.sent.length = 2 := by
  have answered : ∀ exchange ∈ pairExchanges, Answered (fun _ => 0) pair exchange := by decide +kernel
  have written : latest (Reading.value 0 9) (transcript (fun _ => 0) pair pairExchanges) = some ⟨50, false⟩ := by
    decide +kernel
  have switched : latest (Reading.mode 1) (transcript (fun _ => 0) pair pairExchanges) = some .POS_VEL_MODE := by
    decide +kernel
  obtain ⟨last, ran, sent, motors, registers⟩ :=
    @getters_follow_exchanges 2 pair (fun _ => 0) pairExchanges answered ⟨MotorControl.new pair 0, {}⟩ (.new 0)
  refine ⟨last, ran, ?_, ?_, ?_⟩
  · exact ((registers 0 9).1 _ written).uint32
  · rw [(motors 1).2, switched]
    rfl
  · rw [sent]
    rfl

end DmOpenarm.RegisterAccess
