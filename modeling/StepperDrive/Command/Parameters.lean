import StepperDrive.Binary.Convert
import StepperDrive.Motion.StepMode
/-!
# Motor commands

A command names where the motor is declared to be, where it should go, how long to pause
afterwards, and the kinematics of the move. Commands are assembled field by field from
`name=value` pairs; each field has a long name and a short form key.
-/

namespace StepperDrive

set_option autoImplicit false

/-- One motor command. -/
structure MotorParameters where
  /-- The position the motor is declared to be at before moving. -/
  currentPosition : Int
  /-- The absolute goal position. -/
  finalPosition : Int
  /-- The pause after the move, ms. -/
  dwellMs : Int
  /-- Cruise speed, steps/s. -/
  speed : Binary32
  /-- Acceleration, steps/s². -/
  acceleration : Binary32
  /-- Deceleration, steps/s². -/
  deceleration : Binary32
  stepMode : StepMode
  deriving DecidableEq, Repr

namespace MotorParameters

/-- The all-zero command in wave stepping. -/
def zero : MotorParameters := ⟨0, 0, 0, 0, 0, 0, .wave⟩

instance : Inhabited MotorParameters := ⟨zero⟩

end MotorParameters

/-- The fields of a command that can be set by name. -/
inductive ParameterField where
  /-- `rotational_speed`, key `rs`. -/
  | speed
  /-- `rotational_accel`, key `ra`. -/
  | acceleration
  /-- `rotational_decel`, key `rd`. -/
  | deceleration
  /-- `current_position`, key `cis`. -/
  | currentPosition
  /-- `final_position`, key `fis`. -/
  | finalPosition
  /-- `step_mode`, key `sm`. -/
  | stepMode
  /-- `dwell_time`, key `dt`. -/
  | dwellTime
  deriving DecidableEq, Repr

namespace ParameterField

/-- The field named by a long name or a short key. -/
def ofKey? : String → Option ParameterField
  | "rotational_speed" | "rs" => some .speed
  | "rotational_accel" | "ra" => some .acceleration
  | "rotational_decel" | "rd" => some .deceleration
  | "current_position" | "cis" => some .currentPosition
  | "final_position" | "fis" => some .finalPosition
  | "step_mode" | "sm" => some .stepMode
  | "dwell_time" | "dt" => some .dwellTime
  | _ => none

/-- The long name of the field. -/
def name : ParameterField → String
  | .speed => "rotational_speed"
  | .acceleration => "rotational_accel"
  | .deceleration => "rotational_decel"
  | .currentPosition => "current_position"
  | .finalPosition => "final_position"
  | .stepMode => "step_mode"
  | .dwellTime => "dwell_time"

theorem ofKey?_name (p : ParameterField) : ofKey? p.name = some p := by
  cases p <;> rfl

end ParameterField

end StepperDrive
