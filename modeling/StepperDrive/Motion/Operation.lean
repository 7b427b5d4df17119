import StepperDrive.Motion.Controller
/-!
# Operations on a controller

Everything a caller can do to a controller, as data: `ControllerOp` lists the operations and
`Controller.apply` performs one, returning the controller after it and what it reported. A whole
session is a list of operations applied in order (`Controller.applyAll`), which is where
statements about every reachable controller start.

Besides the single operations there is `tickSpan`: a tick every millisecond over a span of
time, stopping early when the move ends, when a tick fails, or when a chosen position is
reached, with a summary of what the ticks did.
-/

namespace StepperDrive

set_option autoImplicit false

/-- What a run of ticks over a span of time did. -/
structure TickSpan where
  /-- Ticks made. -/
  polled : Nat
  /-- Ticks that found no step due. -/
  pending : Nat
  /-- The time and sleep hint of each tick that stepped, in order. -/
  stepped : List (Nat × Option Nat)
  /-- The tick that ended the move, if one did. -/
  done : Option Tick
  /-- The failure that stopped the run, if one did. -/
  error : Option MotorError
  /-- The time of the tick that ended or failed, otherwise the first time not ticked. -/
  lastNow : Nat
  deriving DecidableEq, Repr

/-- One operation on a controller. -/
inductive ControllerOp where
  /-- Sets the cruise speed of later moves. -/
  | setSpeed (v : Binary32)
  /-- Sets the acceleration of later moves. -/
  | setAcceleration (v : Binary32)
  /-- Sets the deceleration of later moves. -/
  | setDeceleration (v : Binary32)
  /-- Sets the step mode. -/
  | setStepMode (m : StepMode)
  /-- Declares the position. -/
  | setPosition (p : Int)
  /-- Abandons the move. -/
  | abort
  /-- Shortens the move to its braking distance. -/
  | requestStop
  /-- Plans a move to a position. -/
  | moveTo (target : Int)
  /-- Plans a move by a number of steps. -/
  | moveBy (delta : Int)
  /-- One tick. -/
  | tick (now : Nat)
  /-- A tick every millisecond from `start` up to `stop`, optionally until a position. -/
  | ticks (start stop : Nat) (untilPosition : Option Int)
  /-- Releases the coils. -/
  | disable
  /-- Asks how long to sleep. -/
  | timeToNextStep (now : Nat)
  /-- Runs the move to its end against a counting delay. -/
  | runToCompletion
  /-- Plans a move and runs it to its end against a counting delay. -/
  | moveToBlocking (target : Int)
  deriving DecidableEq, Repr

/-- What an operation reported. -/
inductive ControllerReply where
  /-- Nothing. -/
  | none
  /-- A tick's outcome. -/
  | tick (r : Except MotorError Tick)
  /-- A span of ticks. -/
  | ticks (s : TickSpan)
  /-- The outcome of releasing the coils. -/
  | disabled (r : Except MotorError Unit)
  /-- A time to sleep, ms. -/
  | wait (ms : Nat)
  /-- The outcome of a run and the delays it waited. -/
  | run (r : Except MotorError Unit) (d : DelayTally)

namespace Controller

variable {σ : Type} [CoilOutput σ]

/-- Ticks at `now`, `now + 1`, … for at most `fuel` ticks, adding to `acc`; see `tickSpan`. -/
def tickSpanFrom (untilPosition : Option Int) :
    Nat → Controller σ → Nat → TickSpan → Except Overflow (Controller σ × TickSpan)
  | 0, c, now, acc => return (c, { acc with lastNow := now })
  | fuel + 1, c, now, acc => do
    if untilPosition = some c.motion.position then return (c, { acc with lastNow := now })
    let (c, r) ← c.tick now
    let acc := { acc with polled := acc.polled + 1 }
    match r with
    | .error e => return (c, { acc with error := some e, lastNow := now })
    | .ok .pending => tickSpanFrom untilPosition fuel c (now + 1) { acc with pending := acc.pending + 1 }
    | .ok (.stepped h) =>
      tickSpanFrom untilPosition fuel c (now + 1) { acc with stepped := (now, h) :: acc.stepped }
    | .ok t => return (c, { acc with done := some t, lastNow := now })

/-- A tick at every millisecond from `start` up to but not including `stop`. Before each tick
the run stops if the position is `untilPosition`; it also stops after a tick that ends the move
or fails. -/
def tickSpan (c : Controller σ) (start stop : Nat) (untilPosition : Option Int) :
    Except Overflow (Controller σ × TickSpan) := do
  let (c, s) ← tickSpanFrom untilPosition (stop - start) c start ⟨0, 0, [], none, none, start⟩
  return (c, { s with stepped := s.stepped.reverse })

/-- Performs one operation. -/
def apply (c : Controller σ) : ControllerOp → Except Overflow (Controller σ × ControllerReply)
  | .setSpeed v => return ({ c with speed := v }, .none)
  | .setAcceleration v => return ({ c with acceleration := v }, .none)
  | .setDeceleration v => return ({ c with deceleration := v }, .none)
  | .setStepMode m => return ({ c with stepMode := m }, .none)
  | .setPosition p => return (c.setPosition p, .none)
  | .abort => return (c.abort, .none)
  | .requestStop => return (← c.requestStop, .none)
  | .moveTo t => return (← c.moveTo t, .none)
  | .moveBy d => return (← c.moveBy d, .none)
  | .tick now => do
    let (c, r) ← c.tick now
    return (c, .tick r)
  | .ticks start stop p => do
    let (c, s) ← c.tickSpan start stop p
    return (c, .ticks s)
  | .disable =>
    let (c, r) := c.disable
    return (c, .disabled r)
  | .timeToNextStep now => return (c, .wait (← c.timeToNextStep now))
  | .runToCompletion => do
    let (c, d, r) ← c.runToCompletion DelayTally.zero
    return (c, .run r d)
  | .moveToBlocking t => do
    let (c, d, r) ← c.moveToBlocking t DelayTally.zero
    return (c, .run r d)

/-- Performs the operations in order: the controller after each and what each reported. -/
def applyAll (c : Controller σ) : List ControllerOp →
    Except Overflow (List (Controller σ × ControllerReply))
  | [] => return []
  | op :: ops => do
    let (c', r) ← c.apply op
    let rest ← c'.applyAll ops
    return (c', r) :: rest

end Controller

end StepperDrive
