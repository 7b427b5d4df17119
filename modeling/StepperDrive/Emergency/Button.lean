import StepperDrive.Bus.Basic
import StepperDrive.Config.System
import StepperDrive.Error
import StepperDrive.Word
/-!
# The emergency button

The button is polled periodically. Each reading goes through the debouncer, and when the
debouncer fires a `pressed` event is posted to the emergency queue, if its one slot is free. A
reading that fails is reported as a pin error and leaves the debouncer as it was.
-/

namespace StepperDrive

set_option autoImplicit false

/-!
## Debouncing

A debouncer turns a noisy input into one event per press: it counts consecutive active
samples and fires on the sample that completes `required` of them. An inactive sample or a
reset starts the count again. The count saturates at the largest 16-bit value, so a press held
however long fires once. A requirement of zero acts as one.
-/

/-- Consecutive-sample debouncing. -/
structure Debouncer where
  /-- Active samples needed to fire, at least one. -/
  required : Nat
  /-- Consecutive active samples so far, saturating at the 16-bit maximum. -/
  count : Nat
  deriving DecidableEq, Repr

namespace Debouncer

/-- A debouncer needing `required` samples; zero acts as one. -/
def new (required : Nat) : Debouncer := ⟨max required 1, 0⟩

/-- One sample: the debouncer after it, and whether it fired. -/
def update (d : Debouncer) (active : Bool) : Debouncer × Bool :=
  if active then
    let count := min (d.count + 1) Word.uint16Max
    ({ d with count := count }, count == d.required)
  else ({ d with count := 0 }, false)

/-- Starts the count again. -/
def reset (d : Debouncer) : Debouncer := { d with count := 0 }

end Debouncer

/-- A debounced emergency button. -/
structure ButtonMonitor where
  /-- The debouncer of the readings. -/
  debouncer : Debouncer
  /-- How often the button should be polled, ms. -/
  pollPeriod : Nat
  deriving DecidableEq, Repr

namespace ButtonMonitor

/-- A button debounced over `polls` readings, polled every 100 ms. -/
def new (polls : Nat) : ButtonMonitor := ⟨.new polls, 100⟩

/-- A button with the configured debouncing and poll period. -/
def ofConfig (c : EmergencyConfig) : ButtonMonitor := ⟨.new c.debouncePolls, c.pollPeriodMs⟩

/-- One poll with the pin's reading (`none` when reading fails): the button and bus after it,
and whether an event was posted. -/
def poll (b : ButtonMonitor) (reading : Option Bool) (bus : Bus) :
    ButtonMonitor × Bus × Except MotorError Bool :=
  match reading with
  | none => (b, bus, .error .pin)
  | some active =>
    let (d, fired) := b.debouncer.update active
    let b := { b with debouncer := d }
    if !fired then (b, bus, .ok false)
    else
      let (bus, posted) := bus.postEmergency .pressed
      (b, bus, .ok posted)

end ButtonMonitor

end StepperDrive
