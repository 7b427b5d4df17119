import StepperDrive.Bus.Basic
import StepperDrive.Config.System
/-!
# The emergency coordinator

The coordinator owns the emergency gate and walks through three phases.

* `normal`: a press or a software trigger starts an emergency: the gate goes to `stopping`,
  the alarm starts blinking and is switched on, and the phase becomes `emergencyTriggered`.
* `emergencyTriggered`: events are ignored while the motor brakes. Once the published speed is
  zero the gate goes to `stopped` and the phase becomes `recovering`.
* `recovering`: a press or a reset ends the emergency: the alarm stops and is switched off,
  the gate opens again and the phase is `normal`.

A poll first handles every pending emergency event, then checks for the motor at rest, then
lets the alarm blink. The alarm levels it sets are returned as feedback for the operator.

The gate is always the image of the phase (`CoordinatorPhase.gate`); `gate_handle` says that
handling an event keeps it so.
-/

namespace StepperDrive

set_option autoImplicit false

/-!
## The alarm blinker

While active, the alarm output toggles whenever half a period has passed since the last
toggle. Starting turns the output on at once; stopping turns it off and deactivates the
blinker. The caller is told each new level so that it can drive the output.
-/

/-- A blinking alarm output. -/
structure AlarmBlinker where
  /-- Milliseconds between toggles. -/
  halfPeriod : Nat
  /-- The output level. -/
  level : Bool
  /-- The time of the last toggle; `none` while inactive. -/
  lastToggle : Option Nat
  deriving DecidableEq, Repr

namespace AlarmBlinker

/-- An inactive blinker with the given half period. -/
def new (halfPeriod : Nat) : AlarmBlinker := ⟨halfPeriod, false, none⟩

/-- Whether the blinker is active. -/
def isActive (a : AlarmBlinker) : Bool := a.lastToggle.isSome

/-- Turns the output on and starts blinking. -/
def start (a : AlarmBlinker) (now : Nat) : AlarmBlinker := { a with level := true, lastToggle := some now }

/-- Turns the output off and stops blinking. -/
def stop (a : AlarmBlinker) : AlarmBlinker := { a with level := false, lastToggle := none }

/-- Toggles the output if half a period has passed: the blinker after it and the new level,
if it changed. -/
def poll (a : AlarmBlinker) (now : Nat) : AlarmBlinker × Option Bool :=
  match a.lastToggle with
  | none => (a, none)
  | some last =>
    if now - last < a.halfPeriod then (a, none)
    else ({ a with level := !a.level, lastToggle := some now }, some (!a.level))

end AlarmBlinker

/-- The phase of an emergency. -/
inductive CoordinatorPhase where
  /-- No emergency. -/
  | normal
  /-- An emergency began and the motor is braking. -/
  | emergencyTriggered
  /-- The motor is parked and waits for a reset. -/
  | recovering
  deriving DecidableEq, Repr

/-- The gate state that goes with each phase. -/
def CoordinatorPhase.gate : CoordinatorPhase → GateState
  | .normal => .normal
  | .emergencyTriggered => .stopping
  | .recovering => .stopped

/-- The name of a phase. -/
def CoordinatorPhase.name : CoordinatorPhase → String
  | .normal => "normal"
  | .emergencyTriggered => "emergency_triggered"
  | .recovering => "recovering"

/-- The emergency side's state. -/
structure Coordinator where
  phase : CoordinatorPhase
  alarm : AlarmBlinker
  deriving DecidableEq, Repr

namespace Coordinator

/-- No emergency, with the configured alarm period. -/
def new (c : EmergencyConfig) : Coordinator := ⟨.normal, .new c.alarmToggleMs⟩

/-- Handles one emergency event at time `now`: the coordinator and bus after it and the
alarm levels it set. -/
def handle (c : Coordinator) (bus : Bus) (e : EmergencyEvent) (now : Nat) :
    Coordinator × Bus × List FeedbackEvent :=
  match e, c.phase with
  | .pressed, .normal | .trigger, .normal =>
    ({ phase := .emergencyTriggered, alarm := c.alarm.start now }, { bus with gate := .stopping },
      [.alarm true])
  | .pressed, .recovering | .reset, .recovering =>
    ({ phase := .normal, alarm := c.alarm.stop }, { bus with gate := .normal }, [.alarm false])
  | _, _ => (c, bus, [])

/-- Handling an event keeps the gate the image of the phase. -/
theorem gate_handle {c : Coordinator} {bus : Bus} (h : bus.gate = c.phase.gate)
    (e : EmergencyEvent) (now : Nat) :
    (c.handle bus e now).2.1.gate = (c.handle bus e now).1.phase.gate := by
  cases e <;> cases hc : c.phase <;> simp_all [handle, CoordinatorPhase.gate]

/-- Handles the pending emergency events, at most `fuel` of them. -/
def drain (now : Nat) : Nat → Coordinator → Bus → List FeedbackEvent →
    Coordinator × Bus × List FeedbackEvent
  | 0, c, bus, out => (c, bus, out)
  | fuel + 1, c, bus, out =>
    match bus.emergency.tryReceive with
    | none => (c, bus, out)
    | some (e, q) =>
      let (c, bus, fb) := c.handle { bus with emergency := q } e now
      drain now fuel c bus (out ++ fb)

/-- One poll at time `now`: the coordinator and bus after it and the alarm levels set. -/
def poll (c : Coordinator) (bus : Bus) (now : Nat) : Coordinator × Bus × List FeedbackEvent :=
  let (c, bus, out) := drain now (bus.emergency.size + 1) c bus []
  let (c, bus) :=
    if c.phase = .emergencyTriggered && Binary.eq bus.status.speed 0 then
      ({ c with phase := .recovering }, { bus with gate := .stopped })
    else (c, bus)
  let (alarm, level) := c.alarm.poll now
  let c := { c with alarm := alarm }
  match level with
  | some l => (c, bus, out ++ [.alarm l])
  | none => (c, bus, out)

end Coordinator

end StepperDrive
