import StepperDrive.Command.Parameters
import StepperDrive.Config.System
import StepperDrive.Decimal.Read
import StepperDrive.Error
import StepperDrive.Word
/-!
# The command intake

Commands are assembled in a template, field by field, from `name=value` pairs; the template
keeps the values of earlier commands for the fields a new one does not name.

* A value is read leniently: blanks around it are dropped, the rest is read as a decimal
  number in double precision (`inf`, `nan`, `.5`, `5.` and a leading `+` included), and text
  that is not a number counts as `0`. Rates are then rounded to single precision, positions
  and the dwell truncated and saturated to 64-bit counts, and the step mode taken by index,
  anything but `0`, `1`, `2` meaning wave stepping.
* A query (`GET /path?rs=50&fis=400 HTTP/1.1`) is read from after its first `?` up to its
  first space; its `&`-separated pieces without `=` and the empty ones are skipped, and each
  other piece sets one field, unknown names being counted as not applied.

Before a command is sent it is clamped into the operating envelope: positions by
`Envelope.clampPosition`, a negative dwell to zero, rates by the envelope and then to their
magnitude. A command whose speed, acceleration or deceleration is then not positive cannot be
planned and is refused, naming the first such field.
-/

namespace StepperDrive

set_option autoImplicit false

/-- A value's text read as a double-precision number; text that is not a number reads as `0`. -/
def readNumber (value : String) : Binary Format.binary64 :=
  match Numeral.read? (Text.trim value) with
  | some n => n.toBinary Format.binary64
  | none => 0

/-- The command with every field forced into the envelope. -/
def clampParameters (e : Envelope) (p : MotorParameters) : MotorParameters where
  currentPosition := e.clampPosition p.currentPosition
  finalPosition := e.clampPosition p.finalPosition
  dwellMs := max p.dwellMs 0
  speed := (e.clampSpeed p.speed).abs
  acceleration := (e.clampAcceleration p.acceleration).abs
  deceleration := (e.clampAcceleration p.deceleration).abs
  stepMode := p.stepMode

/-- The first rate of the command that is not positive, in the order speed, acceleration,
deceleration, as a refusal. -/
def checkKinematics (p : MotorParameters) : Except IntakeError Unit :=
  if !Binary.lt 0 p.speed then .error (.degenerateKinematics .speed)
  else if !Binary.lt 0 p.acceleration then .error (.degenerateKinematics .acceleration)
  else if !Binary.lt 0 p.deceleration then .error (.degenerateKinematics .deceleration)
  else .ok ()

/-- The signed travel of a command. -/
def MotorParameters.travel (p : MotorParameters) : Except Overflow Int :=
  Word.subInt64 p.finalPosition p.currentPosition

/-- The command with one field set from a number. -/
def MotorParameters.setField (p : MotorParameters) (f : ParameterField)
    (x : Binary Format.binary64) : MotorParameters :=
  match f with
  | .speed => { p with speed := x.toBinary32 }
  | .acceleration => { p with acceleration := x.toBinary32 }
  | .deceleration => { p with deceleration := x.toBinary32 }
  | .currentPosition => { p with currentPosition := x.toInt64 }
  | .finalPosition => { p with finalPosition := x.toInt64 }
  | .dwellTime => { p with dwellMs := x.toInt64 }
  | .stepMode => { p with stepMode := (StepMode.ofIndex? x.toInt64).getD .wave }

/-- The `key=value` pieces of a query: the text after the first `?` (all of it when there is
none), up to the first space, split at `&`; empty pieces and pieces without `=` are skipped,
and a piece is split at its first `=`. -/
def queryPairs (query : String) : List (String × String) :=
  let cs := query.toList
  let afterMark := match cs.span (· != '?') with
    | (_, _ :: rest) => rest
    | (all, []) => all
  let request := afterMark.takeWhile (· != ' ')
  (request.splitOn '&').filterMap fun piece =>
    match piece.span (· != '=') with
    | (k, _ :: v) => some (String.ofList k, String.ofList v)
    | (_, []) => none

/-- Parses, clamps and checks commands against an envelope. -/
structure Intake where
  /-- The envelope commands are clamped into. -/
  envelope : Envelope
  /-- How submissions behave. -/
  config : IntakeConfig
  /-- The command being assembled. -/
  template : MotorParameters
  deriving DecidableEq, Repr

namespace Intake

/-- An intake with an all-zero template. -/
def new (envelope : Envelope) (config : IntakeConfig) : Intake := ⟨envelope, config, .zero⟩

/-- An intake for a configuration. -/
def ofConfig (c : SystemConfig) : Intake := new c.envelope c.intake

/-- Sets one field of the template from its text; an unknown name is refused. -/
def applyField (i : Intake) (key value : String) : Except IntakeError (Intake × ParameterField) :=
  match ParameterField.ofKey? key with
  | none => .error (.ofUnknownKey key)
  | some f => .ok ({ i with template := i.template.setField f (readNumber value) }, f)

/-- Applies the pieces of a query in order, counting the fields applied. -/
def applyPairs (i : Intake) : List (String × String) → Intake × Nat
  | [] => (i, 0)
  | (k, v) :: rest =>
    match i.applyField k v with
    | .ok (next, _) =>
      let (final, n) := next.applyPairs rest
      (final, n + 1)
    | .error _ => i.applyPairs rest

/-- Applies a query to the template: the intake after it and the number of fields applied. -/
def applyQuery (i : Intake) (query : String) : Intake × Nat := i.applyPairs (queryPairs query)

/-- Clamps the template in place and returns it when a ramp can be planned for it. -/
def prepare (i : Intake) : Intake × Except IntakeError MotorParameters :=
  let t := clampParameters i.envelope i.template
  let i := { i with template := t }
  match checkKinematics t with
  | .ok () => (i, .ok t)
  | .error e => (i, .error e)

end Intake

end StepperDrive
