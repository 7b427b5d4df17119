import StepperDrive.Motion.Controller
/-!
# Building a controller step by step

A builder collects the parts of a controller, each with its standard value except the coil
output, which must be supplied. Building checks, in this order, that the coils were supplied,
that every pattern of the table is valid (the first invalid one is reported), and that the
speed, acceleration and deceleration are positive.
-/

namespace StepperDrive

set_option autoImplicit false

/-- The parts of a controller being assembled. -/
structure ControllerBuilder (σ : Type) where
  /-- The coil output, once supplied. -/
  coils : Option σ
  /-- The coil table. -/
  table : CoilTable
  /-- The power-on kinematics. -/
  defaults : MotorDefaults
  timing : Timing

namespace ControllerBuilder

variable {σ : Type}

/-- A builder with standard parts and no coil output. -/
def new : ControllerBuilder σ := ⟨none, .standard, .standard, .standard⟩

/-- Takes the table, defaults and timing of a configuration. -/
def withConfig (b : ControllerBuilder σ) (config : SystemConfig) : ControllerBuilder σ :=
  { b with table := config.coils, defaults := config.defaults, timing := config.timing }

/-- The first power-on rate that is not positive, in the order speed, acceleration,
deceleration. -/
def firstBadRate? (d : MotorDefaults) : Option (DefaultSetting × Binary32) :=
  [(DefaultSetting.speed, d.speed), (.acceleration, d.acceleration), (.deceleration, d.deceleration)].find?
    (fun (_, v) => !Binary.lt 0 v)

/-- The controller, or the first thing wrong with the parts. -/
def build (b : ControllerBuilder σ) : Except ConfigError (Controller σ) :=
  match b.coils with
  | none => .error (.missingComponent "coils")
  | some coils =>
    match b.table.firstInvalid? with
    | some p => .error (.invalidCoilPattern p.bits)
    | none =>
      match firstBadRate? b.defaults with
      | some (s, v) => .error (.invalidDefault s v)
      | none => .ok (Controller.withParts coils b.table b.defaults b.timing)

end ControllerBuilder

end StepperDrive
