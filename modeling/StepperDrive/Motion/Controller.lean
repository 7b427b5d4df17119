import StepperDrive.Coil.Output
import StepperDrive.Config.System
import StepperDrive.Motion.Profile
import StepperDrive.Motion.Sequencer
/-!
# The motion controller

Waiting goes through a `Delay`, of which `DelayTally` only counts the time waited.

The controller executes one planned move at a time on a periodic tick, at most one coil step
per tick. Its clock is the caller's: every tick brings the current time in ms.

A move is planned by `moveTo` from the current position. The first step is taken on the first
tick; after that a step is due once the next step period has passed since the last step. Each
step

1. switches once to braking (`accelRate := -decelRate`) as soon as the distance to go is within
   the stop margin,
2. advances the sequencer and writes its pattern to the coils, and only if that write succeeds
3. moves the position one step toward the goal and updates the period by the ramp recurrence
   `p' = p · (1 - (a · p) · p)`, never below the cruise period.

A failed write leaves the phase advanced and the braking switch made, but not the position.

`requestStop` shortens the move to the steps needed to brake, `runToCompletion` ticks against a
delay until the move is over and then releases the coils, and `timeToNextStep` says how long a
caller may sleep. Integer arithmetic is checked: an operation that would overflow stops with an
`Overflow` instead of returning a controller.
-/

namespace StepperDrive

set_option autoImplicit false

/-!
## Blocking delays

Code that waits does so through a `Delay`: waiting `n` ms takes the delay from one state to
the next, and nothing else is observable. `DelayTally` is the delay that only adds up: the
total time waited and the number of waits, which is what a simulation of waiting can show.
-/

/-- Something that can be waited on for a number of milliseconds. -/
class Delay (δ : Type) where
  /-- The state after waiting `ms` milliseconds. -/
  waitMs : δ → Nat → δ

/-- A delay that only counts: the milliseconds waited in all and the number of waits. -/
structure DelayTally where
  /-- Milliseconds waited in all. -/
  totalMs : Nat
  /-- Number of waits. -/
  calls : Nat
  deriving DecidableEq, Repr

/-- No waiting yet. -/
def DelayTally.zero : DelayTally := ⟨0, 0⟩

instance : Delay DelayTally := ⟨fun d ms => ⟨d.totalMs + ms, d.calls + 1⟩⟩

/-- The state after `n` waits of `ms` milliseconds each. -/
def Delay.waitTimes {δ : Type} [Delay δ] (d : δ) (ms : Nat) : Nat → δ
  | 0 => d
  | n + 1 => Delay.waitTimes (Delay.waitMs d ms) ms n

/-- A tally after `n` waits of `ms` ms has added `n * ms` ms and `n` waits. -/
theorem DelayTally.waitTimes_eq (t : DelayTally) (ms n : Nat) :
    Delay.waitTimes t ms n = ⟨t.totalMs + n * ms, t.calls + n⟩ := by
  induction n generalizing t with
  | zero =>
    cases t
    simp [Delay.waitTimes]
  | succ n ih =>
    rw [Delay.waitTimes, ih]
    show DelayTally.mk (t.totalMs + ms + n * ms) (t.calls + 1 + n) = _
    rw [Nat.succ_mul, Nat.add_assoc, Nat.add_comm ms, Nat.add_assoc t.calls, Nat.add_comm 1]

/-- Where the controller is in its life cycle. -/
inductive ControllerState where
  /-- No move was planned since the position was set. -/
  | idle
  /-- A move is under way. -/
  | ramping
  /-- The last move is over. -/
  | complete
  deriving DecidableEq, Repr

/-- What one tick did. -/
inductive Tick where
  /-- The next step is not due yet. -/
  | pending
  /-- One step was taken and more follow; a caller may sleep the hinted ms. -/
  | stepped (sleepHintMs : Option Nat)
  /-- The step just taken reached the goal. -/
  | arrived
  /-- No move is under way. -/
  | complete
  deriving DecidableEq, Repr

/-- Whether a tick ended the move. -/
def Tick.isDone : Tick → Bool
  | .arrived | .complete => true
  | _ => false

/-- The state of the current move. -/
structure Motion where
  /-- The position now. -/
  position : Int
  /-- The position the move ends at. -/
  goal : Int
  /-- The direction of the move. -/
  direction : Direction
  /-- The period of the step just taken, ms; zero at rest. -/
  currentStepPeriod : Binary32
  /-- The period before the next step, ms. -/
  nextStepPeriod : Binary32
  /-- The cruise period, ms; the ramp never goes below it. -/
  cruiseStepPeriod : Binary32
  /-- Steps per ms² added to the speed; negative once braking. -/
  accelRate : Binary32
  /-- Steps per ms² taken from the speed when braking. -/
  decelRate : Binary32
  /-- Steps needed to brake. -/
  stopMargin : Nat
  /-- Whether no tick has seen this move yet. -/
  isNewMove : Bool
  /-- The time of the last step, ms. -/
  lastStepMs : Nat
  deriving DecidableEq, Repr

namespace Motion

/-- No motion, at the given position. -/
def atRest (position : Int) : Motion :=
  ⟨position, position, .clockwise, 0, 0, 0, 0, 0, 0, false, 0⟩

/-- Steps left to the goal: the signed 64-bit difference of goal and position, checked, made
unsigned. -/
def distanceToGo (m : Motion) : Except Overflow Nat := do
  let travel ← Word.subInt64 m.goal m.position
  return travel.natAbs

/-- Steps the position can still take in the move's direction before it leaves the signed
64-bit range. -/
def stepsToLimit (m : Motion) : Nat :=
  match m.direction with
  | .clockwise => (Word.int64Max - m.position).toNat
  | .counterClockwise => (m.position - Word.int64Min).toNat

/-- Steps needed to brake from the current speed: `round(v² / (2·d))` for the speed `v = 1 / p`
of the step just taken; zero at rest or without a positive deceleration. -/
def brakingDistance (m : Motion) : Nat :=
  if Binary.le m.currentStepPeriod 0 || !Binary.lt 0 m.decelRate then 0
  else
    let speed := 1 / m.currentStepPeriod
    (Binary.roundHalfAway (speed * speed / (2 * m.decelRate))).toUInt64

/-- Whether the move is braking. -/
def isDecelerating (m : Motion) : Bool := Binary.lt m.accelRate 0

/-- The period after a step of period `p = nextStepPeriod`: the ramp recurrence
`p · (1 - (a · p) · p)`, floored at the cruise period. -/
def rampedPeriod (m : Motion) : Binary32 :=
  let p := m.nextStepPeriod
  let next := p * (1 - m.accelRate * p * p)
  if Binary.lt next m.cruiseStepPeriod then m.cruiseStepPeriod else next

/-- The motion of a move from `start` to `target` planned by `profile`, before its first tick.
Slow cruise speeds start at cruise, never faster. -/
def planned (start target : Int) (profile : Profile) : Motion :=
  { atRest start with
    goal := target
    direction := profile.direction
    nextStepPeriod := Binary.max profile.initialStepPeriod profile.cruiseStepPeriod
    cruiseStepPeriod := profile.cruiseStepPeriod
    accelRate := profile.accelRate
    decelRate := profile.decelRate
    stopMargin := profile.stopMargin
    isNewMove := true }

/-- The fewest steps the move can stop in with `toGo` steps left: the least of the stop margin,
the braking distance and `toGo`. -/
def stopDistanceAt (m : Motion) (toGo : Nat) : Nat :=
  Nat.min (Nat.min m.stopMargin m.brakingDistance) toGo

/-- The motion as a tick at `now` sees it: a new move starts its clock then. -/
def seenAt (m : Motion) (now : Nat) : Motion :=
  if m.isNewMove then { m with lastStepMs := now, isNewMove := false } else m

/-- The motion with the one-way switch to braking made once the `toGo` steps left are within
the stop margin. -/
def brakedAt (m : Motion) (toGo : Nat) : Motion :=
  if toGo ≤ m.stopMargin then { m with accelRate := -m.decelRate } else m

/-- The motion after a step to `position` taken at `now`: the period just waited becomes the
current one and the ramp gives the next. -/
def steppedTo (m : Motion) (position : Int) (now : Nat) : Motion :=
  { m with
    position := position
    currentStepPeriod := m.nextStepPeriod
    nextStepPeriod := m.rampedPeriod
    lastStepMs := now }

end Motion

/-- A motion controller driving the coil output `σ`. -/
structure Controller (σ : Type) where
  /-- The coil output. -/
  coils : σ
  /-- The coil cycle and its phase. -/
  sequencer : Sequencer
  /-- The step mode of the next steps. -/
  stepMode : StepMode
  /-- Cruise speed of the next move, steps/s. -/
  speed : Binary32
  /-- Acceleration of the next move, steps/s². -/
  acceleration : Binary32
  /-- Deceleration of the next move, steps/s². -/
  deceleration : Binary32
  /-- Sleep hint timing. -/
  timing : Timing
  /-- The current move. -/
  motion : Motion
  /-- The life-cycle state. -/
  state : ControllerState
  deriving DecidableEq, Repr

namespace Controller

variable {σ : Type}

/-! ## Construction and settings -/

/-- A controller at rest at position zero, sequencer at phase zero. -/
def withParts (coils : σ) (table : CoilTable) (defaults : MotorDefaults) (timing : Timing) :
    Controller σ where
  coils := coils
  sequencer := .start table
  stepMode := defaults.stepMode
  speed := defaults.speed
  acceleration := defaults.acceleration
  deceleration := defaults.deceleration
  timing := timing
  motion := .atRest 0
  state := .idle

/-- A controller with the standard table, defaults and timing. -/
def new (coils : σ) : Controller σ := withParts coils .standard .standard .standard

/-- A controller with the configured table, defaults and timing. -/
def ofConfig (coils : σ) (config : SystemConfig) : Controller σ :=
  withParts coils config.coils config.defaults config.timing

/-- Declares the motor to be at `position`, abandoning any move. -/
def setPosition (c : Controller σ) (position : Int) : Controller σ :=
  { c with motion := .atRest position, state := .idle }

/-- Abandons any move where it stands. -/
def abort (c : Controller σ) : Controller σ :=
  { c with motion := .atRest c.motion.position, state := .idle }

/-- The signed speed of the step just taken, steps/s; zero at rest. -/
def currentSpeed (c : Controller σ) : Binary32 :=
  if Binary.eq c.motion.currentStepPeriod 0 then 0
  else Binary.ofInt c.motion.direction.sign * 1000 / c.motion.currentStepPeriod

/-- Whether the position is the goal. -/
def isComplete (c : Controller σ) : Bool := c.motion.position == c.motion.goal

/-! ## Planning and stopping -/

/-- Plans a move from the current position to `target` with the controller's kinematics. A move
of no steps, or with a rate that is not positive, completes at once where it stands. -/
def moveTo (c : Controller σ) (target : Int) : Except Overflow (Controller σ) := do
  let start := c.motion.position
  let travel ← Word.subInt64 target start
  let profile ← Profile.plan travel c.speed c.acceleration c.deceleration
  if profile.isZero then
    return { c with motion := .atRest start, state := .complete }
  return { c with motion := .planned start target profile, state := .ramping }

/-- Plans a move by `delta` steps from the current position. -/
def moveBy (c : Controller σ) (delta : Int) : Except Overflow (Controller σ) := do
  let target ← Word.addInt64 c.motion.position delta
  c.moveTo target

/-- Shortens a move under way to the fewest steps it can stop in: the least of the stop
margin, the braking distance and the distance to go, which becomes the new stop margin. -/
def requestStop (c : Controller σ) : Except Overflow (Controller σ) := do
  if c.state ≠ .ramping then return c
  let m := c.motion
  let margin := m.stopDistanceAt (← m.distanceToGo)
  let offset ← Word.mulInt64 m.direction.sign (Word.wrapInt64 margin)
  let goal ← Word.addInt64 m.position offset
  return { c with motion := { m with stopMargin := margin, goal := goal } }

/-! ## Ticking -/

/-- The sleep hint after a step: the rounded next period less the lookahead, when it is above
the threshold. -/
def sleepHint (timing : Timing) (next : Binary32) : Option Nat :=
  let rounded := Binary.roundHalfAway next
  if Binary.lt (Binary.ofNat timing.sleepThresholdMs) rounded then
    some (rounded.toUInt32 - timing.lookaheadMs)
  else none

variable [CoilOutput σ]

/-- One tick at time `now`: takes a step if one is due. On a failed coil write the controller
is returned with the error, its phase advanced and its braking switch made. -/
def tick (c : Controller σ) (now : Nat) : Except Overflow (Controller σ × Except MotorError Tick) := do
  if c.state ≠ .ramping then return (c, .ok .complete)
  let m := c.motion
  if m.position = m.goal then
    return ({ c with motion := { m with currentStepPeriod := 0 }, state := .complete }, .ok .complete)
  let m := m.seenAt now
  if now - m.lastStepMs < m.nextStepPeriod.toUInt64 then
    return ({ c with motion := m }, .ok .pending)
  let m := m.brakedAt (← m.distanceToGo)
  let (sequencer, pattern) := c.sequencer.advance c.stepMode m.direction
  let (coils, written) := CoilOutput.write c.coils pattern
  let c := { c with sequencer := sequencer, coils := coils, motion := m }
  match written with
  | .error e => return (c, .error e)
  | .ok () =>
    let position ← Word.addInt64 m.position m.direction.sign
    let m := m.steppedTo position now
    if position = m.goal then
      return ({ c with motion := { m with currentStepPeriod := 0 }, state := .complete }, .ok .arrived)
    return ({ c with motion := m }, .ok (.stepped (sleepHint c.timing m.nextStepPeriod)))

/-- Releases the coils by writing the all-off pattern. -/
def disable (c : Controller σ) : Controller σ × Except MotorError Unit :=
  let (coils, r) := CoilOutput.write c.coils .off
  ({ c with coils := coils }, r)

/-- How long a caller may sleep before the next step is due, in ms up to the 32-bit range;
zero when no move is under way. -/
def timeToNextStep (c : Controller σ) (now : Nat) : Except Overflow Nat := do
  if c.state ≠ .ramping then return 0
  if c.motion.isNewMove then return c.motion.nextStepPeriod.toUInt32
  let due ← Word.addUInt64 c.motion.lastStepMs c.motion.nextStepPeriod.toUInt64
  return Nat.min (due - now) Word.uint32Max

/-! ## Running a move to its end -/

variable {δ : Type} [Delay δ]

/-- Ticks from time `now` on, sleeping as the ticks suggest, until the move ends, then
releases the coils; at most `fuel` ticks. -/
def runFrom (fuel : Nat) (c : Controller σ) (now : Nat) (d : δ) :
    Except Overflow (Controller σ × δ × Except MotorError Unit) :=
  match fuel with
  | 0 => return (c, d, .ok ())
  | fuel + 1 => do
    let (c, r) ← c.tick now
    let sleepFor (ms : Nat) : Except Overflow (Controller σ × δ × Except MotorError Unit) :=
      if ms = 0 then runFrom fuel c now d
      else do
        let later ← Word.addUInt64 now ms
        runFrom fuel c later (Delay.waitMs d ms)
    match r with
    | .error e => return (c, d, .error e)
    | .ok .arrived | .ok .complete =>
      let (c, r) := c.disable
      return (c, d, r)
    | .ok .pending =>
      let wait ← c.timeToNextStep now
      sleepFor (Nat.max wait 1)
    | .ok (.stepped hint) => sleepFor (hint.getD 0)

/-- Enough ticks for any run from time zero: each tick that does not end the run either steps
toward the edge of the signed 64-bit range or moves the clock on, which overflows past the
64-bit range. -/
def runFuel (c : Controller σ) : Nat := c.motion.stepsToLimit + Word.uint64Max + 2

/-- Runs the move under way to its end on a clock starting at zero, then releases the coils. -/
def runToCompletion (c : Controller σ) (d : δ) :
    Except Overflow (Controller σ × δ × Except MotorError Unit) :=
  runFrom c.runFuel c 0 d

/-- Plans a move to `target` and runs it to its end. -/
def moveToBlocking (c : Controller σ) (target : Int) (d : δ) :
    Except Overflow (Controller σ × δ × Except MotorError Unit) := do
  let c ← c.moveTo target
  c.runToCompletion d

end Controller

end StepperDrive
