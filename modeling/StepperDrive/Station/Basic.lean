import StepperDrive.Command.Submission
import StepperDrive.Task.Motor
import StepperDrive.Emergency.Coordinator
import StepperDrive.Emergency.Button
import StepperDrive.Feedback.Panel
/-!
# A motor station

A station is one motor and everything wired to it through one bus: the command intake, the
motor task, the emergency coordinator with its button, and the operator panel (four LEDs and
an alarm light, both in memory and never failing).

* The motor task's feedback goes into the bus's feedback queue; an event that finds the queue
  full is dropped and counted.
* The coordinator's alarm levels go straight to the panel, or nowhere (`AlarmRoute`).
* The panel otherwise learns of the motor only by draining the feedback queue when serviced.

Every part is polled on its own, with the current time in milliseconds. Polling the motor task
can fail with a `DriveError`, which keeps what the poll did before it, and can overflow, which
ends everything.
-/

namespace StepperDrive

set_option autoImplicit false

/-- Where the coordinator's alarm levels are shown. -/
inductive AlarmRoute where
  /-- On the operator panel. -/
  | panel
  /-- Nowhere. -/
  | discard
  deriving DecidableEq, Repr

/-- The operator panel of a station: recorded LEDs and a recorded alarm light. -/
abbrev StationPanel := LedPanel Recorder RecordedLine

/-- One motor with coil output `σ`, its bus and everything on it. -/
structure Station (σ : Type) where
  bus : Bus
  /-- The command intake. -/
  intake : Intake
  /-- The motor task. -/
  task : MotorTask σ
  /-- Feedback events lost to a full queue, saturating at the 32-bit maximum. -/
  feedbackDropped : Nat
  /-- The emergency coordinator. -/
  coordinator : Coordinator
  /-- The operator panel. -/
  panel : StationPanel
  /-- Where the coordinator's alarm levels go. -/
  alarmRoute : AlarmRoute
  /-- The emergency button. -/
  button : ButtonMonitor

/-- What a look at a station shows. -/
structure Inspection where
  /-- Whether the gate lets commands through. -/
  gateOpen : Bool
  /-- The published motor status. -/
  status : StatusSnapshot
  /-- Commands waiting. -/
  pending : Nat
  /-- The button's poll period, ms. -/
  buttonPollPeriod : Nat
  /-- The intake's envelope. -/
  envelope : Envelope
  deriving DecidableEq, Repr

namespace Station

variable {σ : Type}

/-- A station for a configuration: commands are clamped into `envelope`, the command queue
holds `capacity` commands, the motor drives `coils`, the panel shows a frame every `frameMs`. -/
def new (config : SystemConfig) (envelope : Envelope) (capacity : Nat) (coils : σ)
    (frameMs : Nat) (route : AlarmRoute) : Station σ where
  bus := Bus.new capacity
  intake := Intake.new envelope config.intake
  task := MotorTask.new (Controller.ofConfig coils config) config.timing
  feedbackDropped := 0
  coordinator := Coordinator.new config.emergency
  panel := { LedPanel.new Recorder.empty (RecordedLine.new false) config.coils with frameMs }
  alarmRoute := route
  button := ButtonMonitor.ofConfig config.emergency

/-- Posts feedback events in order, counting those the full queue drops. -/
def postFeedback (s : Station σ) : List FeedbackEvent → Station σ
  | [] => s
  | e :: es =>
    match s.bus.feedback.trySend e with
    | some q => postFeedback { s with bus := { s.bus with feedback := q } } es
    | none => postFeedback { s with feedbackDropped := min (s.feedbackDropped + 1) Word.uint32Max } es

/-- Shows alarm levels where the route says. -/
def showAlarms (s : Station σ) (es : List FeedbackEvent) : Station σ :=
  match s.alarmRoute with
  | .panel => { s with panel := es.foldl LedPanel.sink s.panel }
  | .discard => s

/-- What a station shows. -/
def inspect (s : Station σ) : Inspection :=
  ⟨s.bus.gate.isOpen, s.bus.status, s.bus.pendingCommands, s.button.pollPeriod, s.intake.envelope⟩

/-- Polls the coordinator at time `now`. -/
def pollCoordinator (s : Station σ) (now : Nat) : Station σ :=
  let (c, bus, alarms) := s.coordinator.poll s.bus now
  { s with coordinator := c, bus := bus }.showAlarms alarms

/-- Services the panel at time `now`: the queued feedback, then the animation. -/
def servicePanel (s : Station σ) (now : Nat) : Station σ × Except MotorError Unit :=
  let (p, q, r) := s.panel.service s.bus.feedback now
  ({ s with panel := p, bus := { s.bus with feedback := q } }, r)

/-- Polls the button with the pin's reading (`none` when it cannot be read). -/
def pollButton (s : Station σ) (reading : Option Bool) : Station σ × Except MotorError Bool :=
  let (b, bus, r) := s.button.poll reading s.bus
  ({ s with button := b, bus := bus }, r)

/-- Posts an emergency event; whether it was taken. -/
def postEmergency (s : Station σ) (e : EmergencyEvent) : Station σ × Bool :=
  let (bus, taken) := s.bus.postEmergency e
  ({ s with bus := bus }, taken)

/-- Takes the oldest waiting command. -/
def receiveCommand (s : Station σ) : Station σ × Option MotorParameters :=
  match s.bus.commands.tryReceive with
  | some (p, q) => ({ s with bus := { s.bus with commands := q } }, some p)
  | none => (s, none)

/-- Takes the oldest waiting feedback event. -/
def receiveFeedback (s : Station σ) : Station σ × Option FeedbackEvent :=
  match s.bus.feedback.tryReceive with
  | some (e, q) => ({ s with bus := { s.bus with feedback := q } }, some e)
  | none => (s, none)

variable [CoilOutput σ]

/-- Polls the motor task at time `now` and posts the feedback it gave. -/
def pollTask (s : Station σ) (now : Nat) :
    Except Overflow (Station σ × Except DriveError TaskPoll) := do
  let (r, w) ← ((MotorTask.poll now).run).run ⟨s.task, s.bus, []⟩
  return ({ s with task := w.task, bus := w.bus }.postFeedback w.emitted, r)

end Station

end StepperDrive
