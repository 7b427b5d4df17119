import StepperDrive.Motion.Builder
import StepperDrive.Decimal.Layout
/-!
# A single move, start to finish

The demonstration plans a quarter turn (512 full steps at 90 steps/s, accelerating at 100 and
braking at 40 steps/s²) and reports the profile; it then builds a controller on four
in-memory coil pins with the same kinematics, runs an absolute move to 512 on a delay that
only counts, runs a relative move of -1024 half steps, and reports where the motor ended and
that the coils were released.

Its result is a `Transcript`: the lines it printed and the failure that ended it early, if
any. Numbers with places are rounded from their exact value, a half going to the even
neighbour.
-/

namespace StepperDrive

set_option autoImplicit false

/-- What a demonstration printed, and the failure that stopped it, if any. -/
structure Transcript where
  /-- The lines printed, in order. -/
  lines : List String
  /-- The failure that ended the run early. -/
  failure : Option DriveError

namespace Demo

/-- The name a direction is printed with. -/
def directionName : Direction → String
  | .clockwise => "Clockwise"
  | .counterClockwise => "CounterClockwise"

/-- A number with `places` digits after the point. -/
def fixed {f : Format} (places : Nat) (x : Binary f) : String := x.toFixed places .toEven

/-- The text of a flag. -/
def flag (b : Bool) : String := if b then "true" else "false"

/-- The lines reporting a profile. -/
def profileLines (p : Profile) : List String :=
  ["=== Motion Profile ===",
    "Total steps: " ++ toString p.totalSteps,
    "Direction: " ++ directionName p.direction,
    "Cruise speed: " ++ fixed 1 p.cruiseSpeed ++ " steps/s (clamped: " ++ flag p.speedClamped ++ ")",
    "First step period: " ++ fixed 1 p.initialStepPeriod ++ " ms",
    "Cruise step period: " ++ fixed 1 p.cruiseStepPeriod ++ " ms",
    "Stop margin: " ++ toString p.stopMargin ++ " steps",
    "Triangular: " ++ flag p.isTriangular]

/-- Four in-memory coil pins that never refuse a write. -/
abbrev DemoCoils := FourPinCoils BudgetPins

/-- Seconds waited, from the milliseconds waited, in double precision. -/
def seconds (ms : Nat) : Binary64 := Binary.ofNat (ms * 1000000) / Binary.ofNat 1000000000

/-- The pin levels as a list. -/
def levelsText (levels : List Bool) : String := "[" ++ ", ".intercalate (levels.map flag) ++ "]"

/-- The single-move demonstration. -/
def singleMove : Except Overflow Transcript := do
  let profile ← Profile.plan 512 90 100 40
  let shown := ["=== Single Move Example ===", ""] ++ profileLines profile
  let builder : ControllerBuilder DemoCoils :=
    { (ControllerBuilder.new : ControllerBuilder DemoCoils) with
      coils := some (FourPinCoils.new (BudgetPins.new none))
      defaults := { MotorDefaults.standard with
        speed := 90
        acceleration := 100
        deceleration := 40
        stepMode := .full } }
  match builder.build with
  | .error e => return ⟨shown, some (.config e)⟩
  | .ok c =>
    let shown := shown ++ ["", "=== Absolute Move ==="]
    let (c, d, r) ← c.moveToBlocking 512 DelayTally.zero
    match r with
    | .error e => return ⟨shown, some (.motor e)⟩
    | .ok () =>
      let shown := shown ++ ["Position: " ++ toString c.motion.position ++ " steps",
        "Elapsed: " ++ fixed 2 (seconds d.totalMs) ++ " s",
        "", "=== Relative Move (half stepping) ==="]
      let c ← { c with stepMode := .half }.moveBy (-1024)
      let (c, _, r) ← c.runToCompletion d
      match r with
      | .error e => return ⟨shown, some (.motor e)⟩
      | .ok () =>
        return ⟨shown ++ ["Position: " ++ toString c.motion.position ++ " steps",
          "Phase: " ++ toString c.sequencer.phase,
          "Coils released: " ++ levelsText c.coils.pins.levels.toList,
          "", "=== Example Complete ==="], none⟩

end Demo

end StepperDrive
