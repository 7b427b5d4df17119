import StepperDrive.Station.Basic
/-!
# Operating a station

A station is operated by a list of requests (`StationOp`), each answered by a `StationReply`;
`Station.apply` performs one and `Station.applyAll` a list, in order. An integer overflow in
the motor's arithmetic ends the whole list.

Two requests run the station over a stretch of time:

* `run` polls once per millisecond over `[start, stop)`: before each poll it checks an
  optional goal (`RunGoal`) and stops when it holds; it then polls the motor task, stopping at
  the first failure, and then, if asked, the coordinator and the panel.
* `settle` polls only the motor task against a clock that moves by the sleeps the task asks
  for, waiting them on a counting delay, until a number of moves have finished; it gives up
  when the goal is checked for the `limit + 1`-th time.
-/

namespace StepperDrive

set_option autoImplicit false

/-- A condition that ends a run. -/
inductive RunGoal where
  /-- The published position is at least this. -/
  | positionAtLeast (n : Int)
  /-- The published position is at most this. -/
  | positionAtMost (n : Int)
  /-- The published speed is zero. -/
  | speedZero
  /-- At least this many moves have finished. -/
  | moves (n : Nat)
  /-- The coordinator's phase has this name. -/
  | phase (name : String)
  /-- The motor task's state has this name. -/
  | taskState (name : String)
  deriving DecidableEq, Repr

/-- How a run ended. -/
structure RunReport where
  /-- Polls of the motor task made. -/
  polls : Nat
  /-- The time the run stopped at: that of the goal or failure, else the end. -/
  lastNow : Nat
  /-- Whether the goal was reached. -/
  reached : Bool
  /-- The failure that stopped the run. -/
  error : Option DriveError

/-- How a settle ended: the clock, the delay, and whether it gave up. -/
structure Settled (δ : Type) where
  /-- The clock at the end. -/
  now : Nat
  /-- The delay after the waits. -/
  delay : δ
  /-- Whether the poll limit was reached first. -/
  timedOut : Bool

namespace Station

variable {σ : Type}

/-- Whether a goal holds. -/
def holds (s : Station σ) : RunGoal → Bool
  | .positionAtLeast n => decide (n ≤ s.bus.status.position)
  | .positionAtMost n => decide (s.bus.status.position ≤ n)
  | .speedZero => Binary.eq s.bus.status.speed 0
  | .moves n => decide (n ≤ s.task.completedMoves)
  | .phase name => s.coordinator.phase.name == name
  | .taskState name => s.task.state.name == name

variable [CoilOutput σ]

/-- Runs `count` milliseconds from `now`, with `polls` polls made so far. -/
def runFrom (coordinate service : Bool) (goal : Option RunGoal) :
    Nat → Nat → Nat → Station σ → Except Overflow (Station σ × RunReport)
  | 0, now, polls, s => .ok (s, ⟨polls, now, false, none⟩)
  | count + 1, now, polls, s =>
    if goal.any s.holds then .ok (s, ⟨polls, now, true, none⟩)
    else do
      let (s, r) ← s.pollTask now
      match r with
      | .error e => return (s, ⟨polls + 1, now, false, some e⟩)
      | .ok _ =>
        let s := if coordinate then s.pollCoordinator now else s
        let s := if service then (s.servicePanel now).1 else s
        runFrom coordinate service goal count (now + 1) (polls + 1) s

/-- Runs over the milliseconds `[start, stop)`; an empty span stops at once, at `stop`. -/
def run (s : Station σ) (start stop : Nat) (coordinate service : Bool) (goal : Option RunGoal) :
    Except Overflow (Station σ × RunReport) :=
  if stop ≤ start then .ok (s, ⟨0, stop, false, none⟩)
  else runFrom coordinate service goal (stop - start) start 0 s

/-- Polls the motor task from `now` until `moves` moves have finished, with `checks` checks
of the goal left before giving up. -/
def settleFrom {δ : Type} [Delay δ] (moves : Nat) :
    Nat → Nat → δ → Station σ → Except Overflow (Station σ × Except DriveError (Settled δ))
  | 0, now, d, s => .ok (s, .ok ⟨now, d, !decide (moves ≤ s.task.completedMoves)⟩)
  | checks + 1, now, d, s =>
    if moves ≤ s.task.completedMoves then .ok (s, .ok ⟨now, d, false⟩)
    else do
      let (s, r) ← s.pollTask now
      match r with
      | .error e => return (s, .error e)
      | .ok p =>
        if p.sleepMs = 0 then settleFrom moves checks now d s
        else
          let later ← Word.addUInt64 now p.sleepMs
          settleFrom moves checks later (Delay.waitMs d p.sleepMs) s

/-- Polls the motor task from `now` until `moves` moves have finished, giving up at the
`limit + 1`-th check. -/
def settle {δ : Type} [Delay δ] (s : Station σ) (now moves limit : Nat) (d : δ) :
    Except Overflow (Station σ × Except DriveError (Settled δ)) :=
  settleFrom moves limit now d s

end Station

/-- A request to a station. -/
inductive StationOp where
  /-- Set one template field from text. -/
  | applyField (key value : String)
  /-- Apply a query to the template. -/
  | applyQuery (query : String)
  /-- Replace the template. -/
  | setTemplate (p : MotorParameters)
  /-- Clamp and check the template. -/
  | prepare
  /-- Submit the template once. -/
  | trySubmit
  /-- Submit the template with back-off. -/
  | submit
  /-- Apply a query and submit with back-off. -/
  | handleQuery (query : String)
  /-- Post an emergency event. -/
  | postEmergency (e : EmergencyEvent)
  /-- Take the oldest waiting command. -/
  | receiveCommand
  /-- Take the oldest waiting feedback event. -/
  | receiveFeedback
  /-- Poll the motor task. -/
  | pollTask (now : Nat)
  | pollCoordinator (now : Nat)
  /-- Poll the button with a reading, `none` when it cannot be read. -/
  | pollButton (reading : Option Bool)
  /-- Look at the station. -/
  | inspect
  | servicePanel (now : Nat)
  /-- Run over `[start, stop)`. -/
  | run (start stop : Nat) (coordinate service : Bool) (goal : Option RunGoal)
  /-- Poll the motor task until `moves` moves have finished. -/
  | settle (now moves limit : Nat)
  deriving DecidableEq, Repr

/-- The answer to a request. -/
inductive StationReply where
  /-- Nothing to answer. -/
  | none
  /-- The field set. -/
  | field (r : Except DriveError ParameterField)
  /-- The number of fields applied. -/
  | applied (n : Nat)
  /-- The prepared or submitted command. -/
  | command (r : Except DriveError MotorParameters)
  /-- The command submitted with back-off, and the waits. -/
  | submitted (r : Except DriveError MotorParameters) (waits : DelayTally)
  /-- Whether the event was taken. -/
  | posted (taken : Bool)
  /-- The command taken. -/
  | received (p : Option MotorParameters)
  /-- The feedback event taken. -/
  | feedback (e : Option FeedbackEvent)
  /-- The motor task's answer. -/
  | polled (r : Except DriveError TaskPoll)
  /-- The coordinator's phase after the poll. -/
  | phase (p : CoordinatorPhase)
  /-- Whether the button posted an event. -/
  | button (r : Except DriveError Bool)
  /-- What the station shows. -/
  | inspection (i : Inspection)
  /-- Whether servicing the panel succeeded. -/
  | serviced (r : Except DriveError Unit)
  /-- How the run ended. -/
  | ran (r : RunReport)
  /-- How the settle ended. -/
  | settled (r : Except DriveError (Settled DelayTally))

namespace Station

variable {σ : Type} [CoilOutput σ]

/-- Performs one request. -/
def apply (s : Station σ) : StationOp → Except Overflow (Station σ × StationReply)
  | .applyField key value =>
    match s.intake.applyField key value with
    | .ok (i, f) => .ok ({ s with intake := i }, .field (.ok f))
    | .error e => .ok (s, .field (.error (.intake e)))
  | .applyQuery query =>
    let (i, n) := s.intake.applyQuery query
    .ok ({ s with intake := i }, .applied n)
  | .setTemplate p => .ok ({ s with intake := { s.intake with template := p } }, .none)
  | .prepare =>
    let (i, r) := s.intake.prepare
    .ok ({ s with intake := i }, .command (r.mapError .intake))
  | .trySubmit =>
    let (i, bus, r) := s.intake.trySubmit s.bus
    .ok ({ s with intake := i, bus := bus }, .command (r.mapError .intake))
  | .submit =>
    let (i, bus, d, r) := s.intake.submit s.bus DelayTally.zero
    .ok ({ s with intake := i, bus := bus }, .submitted (r.mapError .intake) d)
  | .handleQuery query =>
    let (i, bus, d, r) := s.intake.handleQuery query s.bus DelayTally.zero
    .ok ({ s with intake := i, bus := bus }, .submitted (r.mapError .intake) d)
  | .postEmergency e =>
    let (s, taken) := s.postEmergency e
    .ok (s, .posted taken)
  | .receiveCommand =>
    let (s, p) := s.receiveCommand
    .ok (s, .received p)
  | .receiveFeedback =>
    let (s, e) := s.receiveFeedback
    .ok (s, .feedback e)
  | .pollTask now => do
    let (s, r) ← s.pollTask now
    return (s, .polled r)
  | .pollCoordinator now =>
    let s := s.pollCoordinator now
    .ok (s, .phase s.coordinator.phase)
  | .pollButton reading =>
    let (s, r) := s.pollButton reading
    .ok (s, .button (r.mapError .motor))
  | .inspect => .ok (s, .inspection s.inspect)
  | .servicePanel now =>
    let (s, r) := s.servicePanel now
    .ok (s, .serviced (r.mapError .motor))
  | .run start stop coordinate service goal => do
    let (s, r) ← s.run start stop coordinate service goal
    return (s, .ran r)
  | .settle now moves limit => do
    let (s, r) ← s.settle now moves limit DelayTally.zero
    return (s, .settled r)

/-- Performs requests in order: the station after them and each answer with the station
right after it. -/
def applyAll (s : Station σ) : List StationOp →
    Except Overflow (Station σ × List (StationReply × Station σ))
  | [] => .ok (s, [])
  | op :: ops => do
    let (s, r) ← s.apply op
    let (final, rest) ← s.applyAll ops
    return (final, (r, s) :: rest)

end Station

end StepperDrive
