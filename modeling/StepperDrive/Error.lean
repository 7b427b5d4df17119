import StepperDrive.Command.Parameters
import StepperDrive.Decimal.Layout
/-!
# Errors of the drive

The module starts with the text helpers the messages and the number reader need: white space
and cutting a text to a byte budget.

An error is a cause, and its wording lives in one place, `DriveError.message`. Three families
exist: configuration errors (a bad document or a bad value in it), motor errors (a coil output
refused a write) and intake errors (a command that cannot be accepted).

Values inside messages follow fixed formats: single-precision numbers in their shortest plain
form (`-1`, `0.5`, `NaN`, `inf`), coil patterns as `0b` and at least four binary digits. Texts
that come from outside are cut to what a fixed buffer holds: a field name to 32 bytes and an I/O
message to 128 bytes, never inside a character.
-/

namespace StepperDrive

set_option autoImplicit false

/-!
## Text helpers: white space and cutting to a byte budget

`isWhiteSpace` is the Unicode `White_Space` property, the set a value is trimmed of before it
is read as a number: the ASCII blanks and controls `\t` to `\r`, the space, and the fifteen
other spaces and separators of Unicode.

`takeBytes` keeps the longest prefix of a text whose UTF-8 encoding fits a byte budget, never
cutting inside a character. Names and messages that are stored in fixed-size buffers are cut
this way.
-/

namespace Text

/-- The Unicode `White_Space` property. -/
def isWhiteSpace (c : Char) : Bool :=
  let n := c.toNat
  (0x09 ≤ n && n ≤ 0x0D) || n == 0x20 || n == 0x85 || n == 0xA0 || n == 0x1680 ||
    (0x2000 ≤ n && n ≤ 0x200A) || n == 0x2028 || n == 0x2029 || n == 0x202F ||
    n == 0x205F || n == 0x3000

/-- The text without white space at either end. -/
def trim (s : String) : String :=
  String.ofList ((s.toList.dropWhile isWhiteSpace).reverse.dropWhile isWhiteSpace).reverse

/-- The longest prefix of the characters whose UTF-8 encoding has at most `budget` bytes. -/
def takeBytesList : List Char → Nat → List Char
  | [], _ => []
  | c :: cs, budget =>
    if c.utf8Size ≤ budget then c :: takeBytesList cs (budget - c.utf8Size) else []

/-- The longest prefix of `s` whose UTF-8 encoding has at most `budget` bytes; a character that
would not fit whole is dropped with everything after it. -/
def takeBytes (s : String) (budget : Nat) : String := String.ofList (takeBytesList s.toList budget)

end Text

/-- The power-on kinematic settings, named in messages. -/
inductive DefaultSetting where
  /-- The cruise speed. -/
  | speed
  | acceleration
  | deceleration
  deriving DecidableEq, Repr

/-- The name of a kinematic setting. -/
def DefaultSetting.name : DefaultSetting → String
  | .speed => "speed"
  | .acceleration => "acceleration"
  | .deceleration => "deceleration"

/-- The configured periods that must not be zero. -/
inductive PeriodSetting where
  /-- The emergency button's poll period. -/
  | emergencyPoll
  /-- The alarm blinker's half period. -/
  | alarmToggle
  /-- The motor task's idle poll period. -/
  | idlePoll
  deriving DecidableEq, Repr

/-- The configuration key of a period. -/
def PeriodSetting.key : PeriodSetting → String
  | .emergencyPoll => "emergency.poll_period_ms"
  | .alarmToggle => "emergency.alarm_toggle_ms"
  | .idlePoll => "timing.idle_poll_ms"

/-- Why a configuration was refused. -/
inductive ConfigError where
  /-- The document is not a configuration. -/
  | parse (detail : String)
  /-- The envelope's position bound is not positive. -/
  | invalidMaxPosition (value : Int)
  /-- The envelope's speed bound is not positive. -/
  | invalidMaxSpeed (value : Binary32)
  /-- The envelope's acceleration bound is not positive. -/
  | invalidMaxAcceleration (value : Binary32)
  /-- A power-on rate is not positive. -/
  | invalidDefault (setting : DefaultSetting) (value : Binary32)
  /-- A coil pattern energises nothing or uses bits above the fourth. -/
  | invalidCoilPattern (bits : UInt8)
  /-- The debounce count is zero. -/
  | invalidDebounce (count : Nat)
  /-- A period is zero. -/
  | invalidPeriod (setting : PeriodSetting)
  /-- A part needed to build something was not supplied. -/
  | missingComponent (name : String)
  /-- The configuration file could not be read. -/
  | io (detail : String)
  deriving DecidableEq, Repr

/-- Why a coil output failed. -/
inductive MotorError where
  /-- An output pin refused a write. -/
  | pin
  deriving DecidableEq, Repr

/-- Why a command was not accepted. -/
inductive IntakeError where
  /-- No field has this name. -/
  | unrecognizedField (name : String)
  /-- A rate of the command is not positive, so no ramp can be planned. -/
  | degenerateKinematics (field : ParameterField)
  /-- The command queue stayed full. -/
  | queueFull
  /-- An emergency stop is active and commands are dropped. -/
  | halted
  deriving DecidableEq, Repr

/-- Any error of the drive. -/
inductive DriveError where
  /-- A configuration error. -/
  | config (e : ConfigError)
  /-- A motor error. -/
  | motor (e : MotorError)
  /-- An intake error. -/
  | intake (e : IntakeError)
  deriving DecidableEq, Repr

/-- The plain text of a single-precision value: shortest digits, no exponent. -/
def plainText (x : Binary32) : String := Layout.plain.binaryText .up x

/-- A byte in binary after `0b`, padded with zeros to at least four digits. -/
def binaryByteText (b : UInt8) : String :=
  let digits := Nat.toDigits 2 b.toNat
  "0b" ++ padding (4 - digits.length) '0' ++ String.ofList digits

/-- The longest text a name in an error can have, in bytes. -/
def nameBudget : Nat := 32

/-- The longest text a detail in an error can have, in bytes. -/
def detailBudget : Nat := 128

namespace ConfigError

/-- A read failure, its text cut to the detail budget. -/
def ofIo (detail : String) : ConfigError := .io (Text.takeBytes detail detailBudget)

/-- The text of a configuration error. -/
def message : ConfigError → String
  | .parse detail => "Parse error: " ++ detail
  | .invalidMaxPosition v => s!"Invalid max position: {v}. Must be > 0"
  | .invalidMaxSpeed v => "Invalid max speed: " ++ plainText v ++ ". Must be > 0"
  | .invalidMaxAcceleration v => "Invalid max acceleration: " ++ plainText v ++ ". Must be > 0"
  | .invalidDefault s v => "Invalid default " ++ s.name ++ ": " ++ plainText v ++ ". Must be > 0"
  | .invalidCoilPattern b =>
    "Invalid coil pattern: " ++ binaryByteText b ++ ". Must be non-zero and at most 0b1111"
  | .invalidDebounce n => s!"Invalid debounce count: {n}. Must be >= 1"
  | .invalidPeriod s => "Invalid period '" ++ s.key ++ "': must be > 0 ms"
  | .missingComponent name => "Missing required component: " ++ name
  | .io detail => "I/O error: " ++ detail

end ConfigError

/-- The text of a motor error. -/
def MotorError.message : MotorError → String
  | .pin => "GPIO pin operation failed"

namespace IntakeError

/-- An unknown field name, cut to the name budget. -/
def ofUnknownKey (key : String) : IntakeError := .unrecognizedField (Text.takeBytes key nameBudget)

/-- The text of an intake error. -/
def message : IntakeError → String
  | .unrecognizedField name => "Unrecognized parameter: " ++ name
  | .degenerateKinematics f => "Parameter '" ++ f.name ++ "' is zero, no motion profile possible"
  | .queueFull => "Command queue full, command dropped"
  | .halted => "Emergency stop active, command dropped"

end IntakeError

/-- The text of any error, prefixed by its family. -/
def DriveError.message : DriveError → String
  | .config e => "Configuration error: " ++ e.message
  | .motor e => "Motor error: " ++ e.message
  | .intake e => "Intake error: " ++ e.message

end StepperDrive
