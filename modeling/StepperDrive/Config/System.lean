import StepperDrive.Coil.Pattern
import StepperDrive.Config.Envelope
/-!
# The system configuration

Everything the drive is configured with, each part with power-on values:

* the operating envelope (positions up to 2048, 100 steps/s, 100 steps/s²);
* the motor's defaults: a quarter revolution per second in full stepping (512 steps/s), full
  speed reached in 2.5 s (acceleration and deceleration 2048 / 10 steps/s² in single
  precision), wave stepping;
* the coil table;
* the emergency input: three agreeing polls, polled every 100 ms, the alarm toggling every
  250 ms;
* the command intake: five retries 100 ms apart when the queue is full, and commands held
  rather than dropped during an emergency;
* task timing: idle polls every 100 ms, sleep hints only for periods above 2 ms, woken 1 ms early.
-/

namespace StepperDrive

set_option autoImplicit false

/-- Power-on kinematics of the motor. -/
structure MotorDefaults where
  /-- Cruise speed, steps/s. -/
  speed : Binary32
  /-- Acceleration, steps/s². -/
  acceleration : Binary32
  /-- Deceleration, steps/s². -/
  deceleration : Binary32
  stepMode : StepMode
  deriving DecidableEq, Repr

namespace MotorDefaults

/-- A quarter revolution per second in full stepping, reached in 2.5 s, wave stepping. -/
def standard : MotorDefaults :=
  let steps : Binary32 := Binary.ofNat StepMode.full.stepsPerRevolution
  { speed := steps / 4, acceleration := steps / 10, deceleration := steps / 10, stepMode := .wave }

instance : Inhabited MotorDefaults := ⟨standard⟩

end MotorDefaults

/-- Debouncing and alarm timing of the emergency input. -/
structure EmergencyConfig where
  /-- Consecutive agreeing polls before the button counts as pressed (a byte). -/
  debouncePolls : Nat
  /-- Period between polls of the button, ms. -/
  pollPeriodMs : Nat
  /-- Half period of the alarm blinker, ms. -/
  alarmToggleMs : Nat
  deriving DecidableEq, Repr

/-- The standard emergency timing: 3 polls, 100 ms, 250 ms. -/
def EmergencyConfig.standard : EmergencyConfig := ⟨3, 100, 250⟩

instance : Inhabited EmergencyConfig := ⟨EmergencyConfig.standard⟩

/-- Behaviour of the command intake. -/
structure IntakeConfig where
  /-- Retries of a submission on a full queue (a byte). -/
  retryAttempts : Nat
  /-- Pause between retries, ms. -/
  retryBackoffMs : Nat
  /-- Whether commands wait in the queue during an emergency instead of being dropped. -/
  holdDuringEmergency : Bool
  deriving DecidableEq, Repr

/-- The standard intake: 5 retries, 100 ms apart, holding during emergencies. -/
def IntakeConfig.standard : IntakeConfig := ⟨5, 100, true⟩

instance : Inhabited IntakeConfig := ⟨IntakeConfig.standard⟩

/-- Timing of the motor task. -/
structure Timing where
  /-- Poll period while nothing moves, ms. -/
  idlePollMs : Nat
  /-- Step periods up to this many ms get no sleep hint. -/
  sleepThresholdMs : Nat
  /-- How much earlier than the next step a sleeper is woken, ms. -/
  lookaheadMs : Nat
  deriving DecidableEq, Repr

/-- The standard timing: 100 ms idle polls, threshold 2 ms, lookahead 1 ms. -/
def Timing.standard : Timing := ⟨100, 2, 1⟩

instance : Inhabited Timing := ⟨Timing.standard⟩

/-- The whole configuration. -/
structure SystemConfig where
  /-- Bounds for commands. -/
  envelope : Envelope
  /-- Power-on kinematics. -/
  defaults : MotorDefaults
  /-- Coil patterns. -/
  coils : CoilTable
  /-- Emergency input timing. -/
  emergency : EmergencyConfig
  /-- Command intake behaviour. -/
  intake : IntakeConfig
  /-- Task timing. -/
  timing : Timing
  deriving DecidableEq, Repr

/-- Every part at its power-on value. -/
def SystemConfig.standard : SystemConfig :=
  ⟨.standard, .standard, .standard, .standard, .standard, .standard⟩

instance : Inhabited SystemConfig := ⟨SystemConfig.standard⟩

end StepperDrive
