import StepperDrive.Bus.Basic
import StepperDrive.Motion.Controller
/-!
# The motor task

The motor task owns the controller. Polled with the current time, it takes one command at a
time from the bus, runs it, pauses for the command's dwell, and answers the emergency gate:

* gate `normal`: a parked task first resumes (the parked move is abandoned), then the task
  runs: waiting for a command, stepping the move, or dwelling;
* gate `stopping`: a move is shortened once to its braking distance and stepped to its new end;
  a dwell is abandoned;
* gate `stopped`: the coils are released and the task parks.

A poll answers the task's state and how long the caller may sleep. Starting a command sets the
controller's kinematics and position, reports the step mode, and plans the move. Finishing a
move releases the coils, reports the motor idle, counts the move, and dwells unless the move
ended early for an emergency. Each tick publishes the controller's position, speed and
completion on the bus.

A poll runs in `TaskM`: it reads and writes the task, the bus and the feedback it emits;
a failed coil write ends the poll with a `DriveError` but keeps every change made before it,
and an integer overflow ends the whole computation.
-/

namespace StepperDrive

set_option autoImplicit false

/-- What the motor task is doing. -/
inductive TaskState where
  /-- Waiting for a command. -/
  | awaitingCommand
  /-- Running a move. -/
  | moving
  /-- Pausing after a move until the given time. -/
  | dwelling (untilMs : Nat)
  /-- Stopped by an emergency. -/
  | parked
  deriving DecidableEq, Repr

/-- The name of a task state, without the end of a dwell. -/
def TaskState.name : TaskState → String
  | .awaitingCommand => "awaiting_command"
  | .moving => "moving"
  | .dwelling _ => "dwelling"
  | .parked => "parked"

/-- The answer of one poll: the state after it and how long the caller may sleep. -/
structure TaskPoll where
  /-- The task's state. -/
  state : TaskState
  /-- Milliseconds until the next poll is useful. -/
  sleepMs : Nat
  deriving DecidableEq, Repr

/-- The motor task around a controller with coil output `σ`. -/
structure MotorTask (σ : Type) where
  controller : Controller σ
  /-- Poll timing. -/
  timing : Timing
  /-- What the task is doing. -/
  state : TaskState
  /-- The dwell of the current command, ms. -/
  dwellMs : Nat
  /-- Whether the current move was shortened for an emergency. -/
  stopRequested : Bool
  /-- Moves finished, saturating at the 32-bit maximum. -/
  completedMoves : Nat
  deriving DecidableEq, Repr

/-- What a poll of the motor task reads and writes. -/
structure TaskWorld (σ : Type) where
  task : MotorTask σ
  bus : Bus
  /-- Feedback emitted so far, oldest first. -/
  emitted : List FeedbackEvent

/-- Steps of the motor task: failures are `DriveError`s that keep the world as it got, and
overflow ends everything. -/
abbrev TaskM (σ : Type) := ExceptT DriveError (StateT (TaskWorld σ) (Except Overflow))

/-- The controller set up for a command: the command's kinematics and step mode, at rest at the
command's current position. -/
def Controller.configuredFor {σ : Type} (c : Controller σ) (p : MotorParameters) : Controller σ :=
  { c with
    speed := p.speed
    acceleration := p.acceleration
    deceleration := p.deceleration
    stepMode := p.stepMode
    motion := .atRest p.currentPosition
    state := .idle }

namespace MotorTask

variable {σ : Type}

/-- A task waiting for its first command. -/
def new (controller : Controller σ) (timing : Timing) : MotorTask σ :=
  ⟨controller, timing, .awaitingCommand, 0, false, 0⟩

/-- The idle poll period. -/
def idle (t : MotorTask σ) : Nat := t.timing.idlePollMs

/-- An overflow trap inside a task step. -/
def trap {α : Type} (r : Except Overflow α) : TaskM σ α :=
  match r with
  | .ok a => pure a
  | .error o => ExceptT.lift (StateT.lift (Except.error o))

/-- A motor failure inside a task step. -/
def orFail {α : Type} (r : Except MotorError α) : TaskM σ α :=
  match r with
  | .ok a => pure a
  | .error e => throw (.motor e)

/-- The task. -/
def getTask : TaskM σ (MotorTask σ) := do return (← get).task

/-- Replaces the task. -/
def setTask (t : MotorTask σ) : TaskM σ Unit := modify fun w => { w with task := t }

/-- Emits a feedback event. -/
def emit (e : FeedbackEvent) : TaskM σ Unit := modify fun w => { w with emitted := w.emitted ++ [e] }

/-- Publishes the controller's position, speed and completion. -/
def publish : TaskM σ Unit := modify fun w =>
  let c := w.task.controller
  { w with bus := { w.bus with status := ⟨c.motion.position, c.currentSpeed, c.isComplete⟩ } }

variable [CoilOutput σ]

/-- Releases the coils, failing if the output does. -/
def disableCoils : TaskM σ Unit := do
  let t ← getTask
  let (c, r) := t.controller.disable
  setTask { t with controller := c }
  orFail r

/-- Starts a command: kinematics, position and mode from the command, the step mode reported,
and the move to the command's final position planned. -/
def start (p : MotorParameters) : TaskM σ Unit := do
  let t ← getTask
  let c := t.controller.configuredFor p
  setTask { t with controller := c }
  emit (.stepMode p.stepMode)
  let c ← trap (c.moveTo p.finalPosition)
  setTask { t with
    controller := c
    dwellMs := (max p.dwellMs 0).toNat
    stopRequested := false
    state := .moving }

/-- Finishes a move at time `now`. -/
def finish (now : Nat) : TaskM σ Unit := do
  disableCoils
  emit .idle
  let t ← getTask
  let t := { t with completedMoves := min (t.completedMoves + 1) Word.uint32Max }
  if t.stopRequested then setTask { t with state := .awaitingCommand }
  else do
    let due ← trap (Word.addUInt64 now t.dwellMs)
    setTask { t with state := .dwelling due }

/-- One tick of the move: the sleep until the next useful poll. -/
def step (now : Nat) : TaskM σ Nat := do
  let t ← getTask
  let (c, r) ← trap (t.controller.tick now)
  setTask { t with controller := c }
  let tick ← orFail r
  publish
  match tick with
  | .pending =>
    let wait ← trap (c.timeToNextStep now)
    return max (wait - t.timing.lookaheadMs) 1
  | .stepped hint => return hint.getD 0
  | .arrived | .complete => do
    finish now
    return 0

/-- Runs while the gate is open. -/
def run (now : Nat) : TaskM σ Nat := do
  let t ← getTask
  match t.state with
  | .awaitingCommand =>
    let w ← get
    match w.bus.commands.tryReceive with
    | some (p, q) => do
      set { w with bus := { w.bus with commands := q } }
      start p
      step now
    | none => return t.idle
  | .moving => step now
  | .dwelling untilMs =>
    if untilMs ≤ now then do
      setTask { t with state := .awaitingCommand }
      return 0
    else return min (Word.truncUInt32 (untilMs - now)) t.idle
  | .parked => return t.idle

/-- Brakes while the gate is `stopping`. -/
def windDown (now : Nat) : TaskM σ Nat := do
  let t ← getTask
  match t.state with
  | .moving => do
    if !t.stopRequested then
      let c ← trap t.controller.requestStop
      setTask { t with controller := c, stopRequested := true }
    step now
  | .dwelling _ => do
    setTask { t with state := .awaitingCommand }
    return t.idle
  | _ => return t.idle

/-- Parks while the gate is `stopped`. -/
def park : TaskM σ Nat := do
  let t ← getTask
  if t.state ≠ .parked then
    disableCoils
    emit .idle
    let t ← getTask
    setTask { t with state := .parked, stopRequested := false }
    publish
  return t.idle

/-- Leaves the parked state: the parked move is abandoned where it stands. -/
def resume : TaskM σ Unit := do
  let t ← getTask
  setTask { t with controller := t.controller.abort, state := .awaitingCommand }
  publish

/-- One poll at time `now`. -/
def poll (now : Nat) : TaskM σ TaskPoll := do
  let w ← get
  let sleep ← match w.bus.gate with
    | .stopped => park
    | .stopping => windDown now
    | .normal => do
      if w.task.state = .parked then resume
      run now
  return ⟨(← getTask).state, sleep⟩

end MotorTask

end StepperDrive
