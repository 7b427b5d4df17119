import StepperDrive.Config.System
import StepperDrive.Error
/-!
# Validating and loading a configuration

A configuration read from a document is checked before use, and the first failed check is
reported, in this order:

1. the envelope: a positive position bound, then a positive speed bound, then a positive
   acceleration bound (NaN is not positive);
2. the defaults: positive speed, acceleration and deceleration;
3. the coil table: the first invalid pattern, wave before full before half;
4. a debounce count of at least one;
5. non-zero periods: the button poll, the alarm toggle, the idle poll.

`SystemConfig.parse` decodes and validates a document's text. Decoding is what the TOML
library and the deserializer generated for the configuration do together; it is a parameter,
a `ConfigReader`, and a document it cannot decode is a parse error carrying its message.
-/

namespace StepperDrive

set_option autoImplicit false

namespace SystemConfig

/-- The first failed check of the envelope. -/
def checkEnvelope (e : Envelope) : Except ConfigError Unit :=
  if e.maxPosition ≤ 0 then .error (.invalidMaxPosition e.maxPosition)
  else if !Binary.lt 0 e.maxSpeed then .error (.invalidMaxSpeed e.maxSpeed)
  else if !Binary.lt 0 e.maxAcceleration then .error (.invalidMaxAcceleration e.maxAcceleration)
  else .ok ()

/-- The first power-on rate that is not positive. -/
def checkDefaults (d : MotorDefaults) : Except ConfigError Unit :=
  if !Binary.lt 0 d.speed then .error (.invalidDefault .speed d.speed)
  else if !Binary.lt 0 d.acceleration then .error (.invalidDefault .acceleration d.acceleration)
  else if !Binary.lt 0 d.deceleration then .error (.invalidDefault .deceleration d.deceleration)
  else .ok ()

/-- The first invalid coil pattern. -/
def checkCoils (t : CoilTable) : Except ConfigError Unit :=
  match t.firstInvalid? with
  | some p => .error (.invalidCoilPattern p.bits)
  | none => .ok ()

/-- The debounce count and the periods. -/
def checkTiming (c : SystemConfig) : Except ConfigError Unit :=
  if c.emergency.debouncePolls = 0 then .error (.invalidDebounce 0)
  else if c.emergency.pollPeriodMs = 0 then .error (.invalidPeriod .emergencyPoll)
  else if c.emergency.alarmToggleMs = 0 then .error (.invalidPeriod .alarmToggle)
  else if c.timing.idlePollMs = 0 then .error (.invalidPeriod .idlePoll)
  else .ok ()

/-- All checks, in order. -/
def validate (c : SystemConfig) : Except ConfigError Unit := do
  checkEnvelope c.envelope
  checkDefaults c.defaults
  checkCoils c.coils
  checkTiming c

end SystemConfig

/-- What the configuration takes from the TOML library and from the deserializer generated for
it: the text of a document decoded into a configuration, or the message of the first problem.
Every section is optional, so a document without tables is the power-on configuration. -/
structure ConfigReader where
  /-- A document's text decoded into a configuration, or the message of the first problem. -/
  decode : String → Except String SystemConfig
  /-- The empty document leaves every section at its power-on value. -/
  decode_empty : decode "" = .ok SystemConfig.standard

/-- The validated configuration a document's text decodes to. -/
def SystemConfig.parse (reader : ConfigReader) (text : String) : Except ConfigError SystemConfig :=
  match reader.decode text with
  | .error e => .error (.parse (Text.takeBytes e detailBudget))
  | .ok c => do
    c.validate
    return c

end StepperDrive
