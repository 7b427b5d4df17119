import StepperDrive.Bus.Queue
import StepperDrive.Command.Parameters
import StepperDrive.Motion.StepMode
/-!
# The control bus

The parts of the drive meet on one bus: a queue of commands, a one-slot queue of emergency
events, a four-slot queue of feedback events, the emergency gate and the last published motor
status.

The gate has three states. `normal` lets commands through; `stopping` means an emergency began
and the motor is braking; `stopped` means it is at rest and parked. Only the emergency side
moves the gate; the motor task reads it.
-/

namespace StepperDrive

set_option autoImplicit false

/-!
## Feedback events

What the motor and the emergency side tell the operator: which step mode a move runs in, that
the motor came to rest, and the alarm level. Feedback is fire-and-forget: a producer emits
events and never waits for them.
-/

/-- One piece of operator feedback. -/
inductive FeedbackEvent where
  /-- A move started in this step mode. -/
  | stepMode (mode : StepMode)
  /-- The motor came to rest. -/
  | idle
  /-- The alarm output goes to this level. -/
  | alarm (on : Bool)
  deriving DecidableEq, Repr

/-- An event for the emergency side. -/
inductive EmergencyEvent where
  /-- The emergency button was pressed. -/
  | pressed
  /-- An emergency stop was requested by software. -/
  | trigger
  /-- The emergency is over. -/
  | reset
  deriving DecidableEq, Repr

/-- The state of the emergency gate. -/
inductive GateState where
  /-- Commands flow. -/
  | normal
  /-- An emergency began; the motor brakes. -/
  | stopping
  /-- The motor is parked. -/
  | stopped
  deriving DecidableEq, Repr, Inhabited

/-- Whether the gate lets commands through. -/
def GateState.isOpen (g : GateState) : Bool := g == .normal

/-- What the motor last reported. -/
structure StatusSnapshot where
  position : Int
  /-- The signed speed, steps/s. -/
  speed : Binary32
  /-- Whether the position is the goal. -/
  complete : Bool
  deriving DecidableEq, Repr

/-- At rest at zero. -/
def StatusSnapshot.atRest : StatusSnapshot := ⟨0, 0, true⟩

/-- The slots of the emergency queue. -/
def emergencyDepth : Nat := 1

/-- The slots of the feedback queue. -/
def feedbackDepth : Nat := 4

/-- The standard depth of the command queue. -/
def commandDepth : Nat := 25

/-- The shared queues and cells. -/
structure Bus where
  /-- Commands waiting for the motor. -/
  commands : BoundedQueue MotorParameters
  /-- Emergency events waiting for the coordinator. -/
  emergency : BoundedQueue EmergencyEvent
  /-- Feedback waiting for the operator panel. -/
  feedback : BoundedQueue FeedbackEvent
  /-- The emergency gate. -/
  gate : GateState
  /-- The last published status. -/
  status : StatusSnapshot
  deriving DecidableEq, Repr

namespace Bus

/-- An idle bus whose command queue holds `capacity` commands. -/
def new (capacity : Nat) : Bus :=
  ⟨.empty capacity, .empty emergencyDepth, .empty feedbackDepth, .normal, .atRest⟩

/-- Posts an emergency event: the bus after it and whether it was taken; a second event
while one is pending is dropped. -/
def postEmergency (b : Bus) (e : EmergencyEvent) : Bus × Bool :=
  match b.emergency.trySend e with
  | some q => ({ b with emergency := q }, true)
  | none => (b, false)

/-- The commands waiting. -/
def pendingCommands (b : Bus) : Nat := b.commands.size

end Bus

end StepperDrive
