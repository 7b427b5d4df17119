import StepperDrive.Binary.Convert
import StepperDrive.Motion.Sequencer
import StepperDrive.Word
/-!
# Ramp profiles

A move of `n` steps at cruise speed `v` (steps/s) with acceleration `a` and deceleration `d`
(steps/s²) is planned as a trapezoid: speed up, cruise, slow down. All arithmetic is single
precision, in the order written below.

* The fastest speed the distance allows, starting and ending at rest, solves
  `v² (1/2a + 1/2d) = n`: `reachable = √(((2·a)·d)·n / (a + d))`. A requested speed above it is
  lowered to it, and the profile records that it was (`speedClamped`).
* The stop margin is the number of steps needed to brake from cruise speed,
  `round(v² / (2·d))` with halves away from zero, then truncated to a count. When twice the
  margin reaches the whole distance, the move is a triangle and the margin is half of it.
  Doubling a margin of `2 ^ 63` or more overflows.
* The first step's period is `1000 / √(2·a)` ms, the cruise period `1000 / v` ms, and the rates
  per ms² are `a / 10⁶` and `d / 10⁶`.

No motion is planned for zero steps or when any rate is not positive (NaN included): the zero
profile has infinite periods and zeros elsewhere, keeping only the direction.
-/

namespace StepperDrive

set_option autoImplicit false

/-- The constants of one planned move. -/
structure Profile where
  /-- Steps to move, without sign. -/
  totalSteps : Nat
  /-- The direction of the move. -/
  direction : Direction
  /-- The cruise speed actually used, steps/s. -/
  cruiseSpeed : Binary32
  /-- Whether the requested speed was lowered to fit the distance. -/
  speedClamped : Bool
  /-- Period of the first step leaving rest, ms. -/
  initialStepPeriod : Binary32
  /-- Period at cruise speed, ms; the ramp never goes below it. -/
  cruiseStepPeriod : Binary32
  /-- Steps needed to brake from cruise speed to rest. -/
  stopMargin : Nat
  /-- Acceleration in steps per ms². -/
  accelRate : Binary32
  /-- Deceleration in steps per ms². -/
  decelRate : Binary32
  deriving DecidableEq, Repr

namespace Profile

/-- The profile of no motion in the given direction. -/
def zero (direction : Direction) : Profile where
  totalSteps := 0
  direction := direction
  cruiseSpeed := 0
  speedClamped := false
  initialStepPeriod := .inf false
  cruiseStepPeriod := .inf false
  stopMargin := 0
  accelRate := 0
  decelRate := 0

/-- One million, the factor between steps/s² and steps/ms². -/
def million : Binary32 := 1000000

/-- The period in ms of one step at `speed` steps/s. -/
def periodOf (speed : Binary32) : Binary32 := 1000 / speed

/-- Whether a rate allows planning: positive, and not NaN. -/
def usable (rate : Binary32) : Bool := Binary.lt 0 rate

/-- Plans a move of `steps` signed steps. The only failure is the overflow of doubling a stop
margin of `2 ^ 63` or more. -/
def plan (steps : Int) (speed acceleration deceleration : Binary32) : Except Overflow Profile := do
  let direction := Direction.ofSteps steps
  let n := steps.natAbs
  if n = 0 || !usable speed || !usable acceleration || !usable deceleration then
    return zero direction
  let distance : Binary32 := Binary.ofNat n
  let reachable :=
    Binary.sqrt (2 * acceleration * deceleration * distance / (acceleration + deceleration))
  let clamped := Binary.lt reachable speed
  let cruise := if clamped then reachable else speed
  let margin := (Binary.roundHalfAway (cruise * cruise / (2 * deceleration))).toUInt64
  let doubled ← Word.mulUInt64 margin 2
  let margin := if n ≤ doubled then n / 2 else margin
  return {
    totalSteps := n
    direction := direction
    cruiseSpeed := cruise
    speedClamped := clamped
    initialStepPeriod := 1000 / Binary.sqrt (2 * acceleration)
    cruiseStepPeriod := periodOf cruise
    stopMargin := margin
    accelRate := acceleration / million
    decelRate := deceleration / million }

/-- Plans a move whose deceleration equals its acceleration. -/
def symmetric (steps : Int) (speed acceleration : Binary32) : Except Overflow Profile :=
  plan steps speed acceleration acceleration

/-- Whether the profile moves nothing. -/
def isZero (p : Profile) : Bool := p.totalSteps == 0

/-- Whether the profile has no cruise phase: twice the stop margin covers the distance. -/
def isTriangular (p : Profile) : Bool := !p.isZero && p.totalSteps ≤ p.stopMargin * 2

end Profile

end StepperDrive
