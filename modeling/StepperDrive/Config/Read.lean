import StepperDrive.Command.Parameters
import StepperDrive.Config.Validate
import StepperDrive.Toml.Document
/-!
# Configuration documents

The library's own TOML reader (`Toml.parse`) and the decoding below stand in for the TOML
library and the deserializer generated for the configuration; together they make the
configuration reader `ConfigReader.toml`.

A configuration is written in TOML: one table per part (`envelope`, `defaults`, `coils`,
`emergency`, `intake`, `timing`), each field optional with its power-on value. Keys the
configuration does not know are ignored, at any level; a known key with a value of the wrong
kind is an error.

A part may also be given as an array, whose items are its fields in order (`Node.fields`):
missing items leave the last fields at their power-on values and extra items are ignored. A
date-time read as a part gives no fields.

Fields take values as follows. Integer fields take integers only, in the field's range: bytes
`0..255`, 32-bit counts `0..2^32-1`, positions the signed 64-bit range. Rate fields take floats,
narrowed from double to single precision, or integers, rounded to single precision directly.
Flags take booleans. A step mode is its name `wave`, `full` or `half`, or a table of one key,
the name, holding an empty array or table. A coil cycle is an array of at least four (eight for
half stepping) items, of which that many are read, as byte integers.

A motor command can be read the same way, from the keys `current_position`,
`final_position`, `dwell_time`, `rotational_speed`, `rotational_accel`, `rotational_decel` and
`step_mode` of a document's root table.
-/

namespace StepperDrive

set_option autoImplicit false

/-- Where the fields of a record are read from. A table names them; an array gives them in
the record's field order, the first item to the first field. -/
inductive FieldSource where
  /-- Fields by key. -/
  | byName (es : Entries)
  /-- Fields by position. -/
  | byPosition (items : List Node)

/-- The fields a value holds when read as a record: a table by key, an array or an array of
tables by position, a date-time none at all. -/
def Node.fields : Node → TomlResult FieldSource
  | .table _ es => .ok (.byName es)
  | .array items => .ok (.byPosition items)
  | .tables items => .ok (.byPosition (items.map (Node.table .header)))
  | .datetime _ => .ok (.byName [])
  | _ => tomlFail "expected a table"

/-- The value given for the field at position `index` with key `k`, if any. -/
def FieldSource.get? : FieldSource → Nat → String → Option Node
  | .byName es, _, k => es.get? k
  | .byPosition items, index, _ => items[index]?

/-- The field at position `index` with key `k` read by `read`, or `dflt` when it is not
given. -/
def FieldSource.field {α : Type} (src : FieldSource) (index : Nat) (k : String) (dflt : α)
    (read : Node → TomlResult α) : TomlResult α :=
  match src.get? index k with
  | none => .ok dflt
  | some n => read n

/-- Whether a value is an empty array, table or array of tables. -/
def Node.isEmpty : Node → Bool
  | .array [] | .table _ [] | .tables [] => true
  | _ => false

namespace Toml

/-- An integer in `[lo, hi]`. -/
def asIntIn (lo hi : Int) : Node → TomlResult Int
  | .integer i => if lo ≤ i && i ≤ hi then .ok i else tomlFail "integer out of range"
  | _ => tomlFail "expected an integer"

/-- A signed 64-bit integer. -/
def asInt64 : Node → TomlResult Int := asIntIn (-9223372036854775808) 9223372036854775807

/-- A byte. -/
def asUInt8 (n : Node) : TomlResult Nat := Int.toNat <$> asIntIn 0 255 n

/-- An unsigned 32-bit count. -/
def asUInt32 (n : Node) : TomlResult Nat := Int.toNat <$> asIntIn 0 4294967295 n

/-- A single-precision rate: a float narrowed from double precision, or an integer rounded. -/
def asBinary32 : Node → TomlResult Binary32
  | .float x => .ok x.toBinary32
  | .integer i => .ok (Binary.ofInt i)
  | _ => tomlFail "expected a number"

/-- A boolean. -/
def asBool : Node → TomlResult Bool
  | .boolean b => .ok b
  | _ => tomlFail "expected a boolean"

/-- A step mode by name. -/
def stepModeNamed (s : String) : TomlResult StepMode :=
  match StepMode.ofName? s with
  | some m => .ok m
  | none => tomlFail "unknown step mode"

/-- A step mode: its name, or a table whose one key is the name and whose value is empty. -/
def asStepMode : Node → TomlResult StepMode
  | .string s => stepModeNamed s
  | .table _ [(k, v)] =>
    if v.isEmpty then stepModeNamed k else tomlFail "a step mode holds no value"
  | .table _ _ => tomlFail "expected exactly one step mode"
  | _ => tomlFail "expected a step mode"

/-- The first `n` of a list of values read as coil patterns; more are not looked at. -/
def firstPatterns (n : Nat) (items : List Node) : TomlResult (Vector CoilPattern n) := do
  let bytes ← (items.take n).mapM asUInt8
  if h : bytes.length = n then
    .ok ⟨(bytes.map fun b => CoilPattern.mk (UInt8.ofNat b)).toArray, by simpa using h⟩
  else tomlFail "too few coil patterns"

/-- The first `n` coil patterns of an array. -/
def asPatterns (n : Nat) : Node → TomlResult (Vector CoilPattern n)
  | .array items => firstPatterns n items
  | .tables items => firstPatterns n (items.map (Node.table .header))
  | _ => tomlFail "expected an array"

end Toml

open Toml

/-- The envelope from its value. -/
def Envelope.ofToml (n : Node) : TomlResult Envelope := do
  let src ← n.fields
  let d := Envelope.standard
  return ⟨← src.field 0 "max_position" d.maxPosition asInt64,
    ← src.field 1 "max_speed" d.maxSpeed asBinary32,
    ← src.field 2 "max_acceleration" d.maxAcceleration asBinary32⟩

/-- The motor defaults from their value. -/
def MotorDefaults.ofToml (n : Node) : TomlResult MotorDefaults := do
  let src ← n.fields
  let d := MotorDefaults.standard
  return ⟨← src.field 0 "speed" d.speed asBinary32,
    ← src.field 1 "acceleration" d.acceleration asBinary32,
    ← src.field 2 "deceleration" d.deceleration asBinary32,
    ← src.field 3 "step_mode" d.stepMode asStepMode⟩

/-- The coil table from its value. -/
def CoilTable.ofToml (n : Node) : TomlResult CoilTable := do
  let src ← n.fields
  let d := CoilTable.standard
  return ⟨← src.field 0 "wave" d.wave (asPatterns 4),
    ← src.field 1 "full" d.full (asPatterns 4),
    ← src.field 2 "half" d.half (asPatterns 8)⟩

/-- The emergency settings from their value. -/
def EmergencyConfig.ofToml (n : Node) : TomlResult EmergencyConfig := do
  let src ← n.fields
  let d := EmergencyConfig.standard
  return ⟨← src.field 0 "debounce_polls" d.debouncePolls asUInt8,
    ← src.field 1 "poll_period_ms" d.pollPeriodMs asUInt32,
    ← src.field 2 "alarm_toggle_ms" d.alarmToggleMs asUInt32⟩

/-- The intake settings from their value. -/
def IntakeConfig.ofToml (n : Node) : TomlResult IntakeConfig := do
  let src ← n.fields
  let d := IntakeConfig.standard
  return ⟨← src.field 0 "retry_attempts" d.retryAttempts asUInt8,
    ← src.field 1 "retry_backoff_ms" d.retryBackoffMs asUInt32,
    ← src.field 2 "hold_during_emergency" d.holdDuringEmergency asBool⟩

/-- The timing from its value. -/
def Timing.ofToml (n : Node) : TomlResult Timing := do
  let src ← n.fields
  let d := Timing.standard
  return ⟨← src.field 0 "idle_poll_ms" d.idlePollMs asUInt32,
    ← src.field 1 "sleep_threshold_ms" d.sleepThresholdMs asUInt32,
    ← src.field 2 "lookahead_ms" d.lookaheadMs asUInt32⟩

/-- The configuration from a document's root table. -/
def SystemConfig.ofToml (es : Entries) : TomlResult SystemConfig := do
  let src := FieldSource.byName es
  let d := SystemConfig.standard
  return ⟨← src.field 0 "envelope" d.envelope Envelope.ofToml,
    ← src.field 1 "defaults" d.defaults MotorDefaults.ofToml,
    ← src.field 2 "coils" d.coils CoilTable.ofToml,
    ← src.field 3 "emergency" d.emergency EmergencyConfig.ofToml,
    ← src.field 4 "intake" d.intake IntakeConfig.ofToml,
    ← src.field 5 "timing" d.timing Timing.ofToml⟩

/-- The configuration reader of this library: its TOML reader, then the decoding above. -/
def ConfigReader.toml : ConfigReader where
  decode text := (Toml.parse text >>= SystemConfig.ofToml).mapError TomlError.message
  decode_empty := rfl

/-- A motor command from a document's root table; absent keys are zero and wave stepping. -/
def MotorParameters.ofToml (es : Entries) : TomlResult MotorParameters := do
  let src := FieldSource.byName es
  let d := MotorParameters.zero
  return ⟨← src.field 0 "current_position" d.currentPosition asInt64,
    ← src.field 1 "final_position" d.finalPosition asInt64,
    ← src.field 2 "dwell_time" d.dwellMs asInt64,
    ← src.field 3 "rotational_speed" d.speed asBinary32,
    ← src.field 4 "rotational_accel" d.acceleration asBinary32,
    ← src.field 5 "rotational_decel" d.deceleration asBinary32,
    ← src.field 6 "step_mode" d.stepMode asStepMode⟩

/-- A motor command read from TOML text. -/
def MotorParameters.parseToml (text : String) : TomlResult MotorParameters :=
  Toml.parse text >>= MotorParameters.ofToml

end StepperDrive
