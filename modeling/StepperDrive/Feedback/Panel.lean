import StepperDrive.Bus.Queue
import StepperDrive.Coil.Output
import StepperDrive.Bus.Basic
/-!
# The operator panel

The panel shows feedback on four LEDs, driven like coils, and one alarm output.

* A step-mode event starts animating that mode's coil cycle on the LEDs from its first frame.
* An idle event stops the animation and switches the LEDs off.
* An alarm event sets the alarm output.

While animating, each poll at least `frameMs` after the last frame (or the first poll after the
animation started) shows the next frame of the cycle. Feeding events directly (`handle`)
reports a failed output; as a feedback sink (`sink`) the panel swallows the failure, since
feedback must never stop the motor. `service` drains a feedback queue into the panel, stopping
at the first failure, then polls.
-/

namespace StepperDrive

set_option autoImplicit false

/-- One output line that may refuse a write. -/
class OutputLine (α : Type) where
  /-- Sets the level; `none` when the line refuses, which leaves it as it was. -/
  set : α → Bool → Option α

/-- An in-memory output line that records its level and its successful writes, and refuses
every write when `failing`. -/
structure RecordedLine where
  level : Bool
  /-- Successful writes. -/
  writes : Nat
  /-- Whether every write is refused. -/
  failing : Bool
  deriving DecidableEq, Repr

/-- A low line that accepts writes, or refuses them all when `failing`. -/
def RecordedLine.new (failing : Bool) : RecordedLine := ⟨false, 0, failing⟩

instance : OutputLine RecordedLine where
  set l v := if l.failing then none else some { l with level := v, writes := l.writes + 1 }

/-- The standard frame period of the animation, ms. -/
def defaultFrameMs : Nat := 250

/-- LEDs of type `L` animating coil cycles, and an alarm output of type `A`. -/
structure LedPanel (L A : Type) where
  /-- The four LEDs. -/
  leds : L
  /-- The alarm output. -/
  alarmPin : A
  /-- The cycles to animate. -/
  table : CoilTable
  /-- Milliseconds between frames. -/
  frameMs : Nat
  /-- The mode being animated. -/
  animating : Option StepMode
  /-- The next frame to show. -/
  frame : Nat
  /-- When the last frame was shown. -/
  lastFrame : Option Nat
  deriving DecidableEq, Repr

namespace LedPanel

variable {L A : Type} [CoilOutput L] [OutputLine A]

/-- A panel showing nothing, with the standard frame period. -/
def new (leds : L) (alarmPin : A) (table : CoilTable) : LedPanel L A :=
  ⟨leds, alarmPin, table, defaultFrameMs, none, 0, none⟩

/-- Shows one feedback event, reporting a failed output. -/
def handle (p : LedPanel L A) : FeedbackEvent → LedPanel L A × Except MotorError Unit
  | .stepMode m => ({ p with animating := some m, frame := 0, lastFrame := none }, .ok ())
  | .idle =>
    let p := { p with animating := none }
    let (leds, r) := CoilOutput.write p.leds .off
    ({ p with leds := leds }, r)
  | .alarm on =>
    match OutputLine.set p.alarmPin on with
    | some pin => ({ p with alarmPin := pin }, .ok ())
    | none => (p, .error .pin)

/-- Shows one feedback event, ignoring a failed output. -/
def sink (p : LedPanel L A) (e : FeedbackEvent) : LedPanel L A := (p.handle e).1

/-- Shows the next frame if one is due. -/
def poll (p : LedPanel L A) (now : Nat) : LedPanel L A × Except MotorError Unit :=
  match p.animating with
  | none => (p, .ok ())
  | some mode =>
    let due := match p.lastFrame with
      | none => true
      | some last => decide (p.frameMs ≤ now - last)
    if !due then (p, .ok ())
    else
      let count := mode.phaseCount
      let (leds, r) := CoilOutput.write p.leds (p.table.patternAt mode (p.frame % count))
      let p := { p with leds := leds }
      match r with
      | .error e => (p, .error e)
      | .ok () => ({ p with frame := (p.frame + 1) % count, lastFrame := some now }, .ok ())

/-- Shows the queued events in order, at most `fuel` of them, stopping at the first failure. -/
def drain (p : LedPanel L A) : Nat → BoundedQueue FeedbackEvent →
    LedPanel L A × BoundedQueue FeedbackEvent × Except MotorError Unit
  | 0, q => (p, q, .ok ())
  | fuel + 1, q =>
    match q.tryReceive with
    | none => (p, q, .ok ())
    | some (e, q) =>
      match p.handle e with
      | (p, .ok ()) => p.drain fuel q
      | (p, .error err) => (p, q, .error err)

/-- Shows every queued event, then polls. -/
def service (p : LedPanel L A) (q : BoundedQueue FeedbackEvent) (now : Nat) :
    LedPanel L A × BoundedQueue FeedbackEvent × Except MotorError Unit :=
  match p.drain q.size q with
  | (p, q, .ok ()) =>
    let (p, r) := p.poll now
    (p, q, r)
  | other => other

end LedPanel

end StepperDrive
