import StepperDrive.Binary.Convert
/-!
# The operating envelope

Commands arrive from outside and are forced into an operating envelope before any motion is
planned: a largest position and largest magnitudes of speed and acceleration.

* A position below zero, or any position when the envelope's bound is not positive, becomes
  `0`; a position past the bound wraps around it (the remainder by the bound); the rest stay.
* A rate that is not finite, or whose magnitude exceeds the bound, becomes half the bound;
  the rest stay, sign included.

The envelope is valid when all three bounds are positive. Clamping never needs validity: an
invalid envelope only produces odd but well-defined values.
-/

namespace StepperDrive

set_option autoImplicit false

/-- Bounds for incoming motor commands. -/
structure Envelope where
  /-- The largest position. -/
  maxPosition : Int
  /-- The largest speed magnitude, steps/s. -/
  maxSpeed : Binary32
  /-- The largest acceleration magnitude, steps/s². -/
  maxAcceleration : Binary32
  deriving DecidableEq, Repr

namespace Envelope

/-- Positions up to 2048 (one wave-stepping revolution), 100 steps/s and 100 steps/s². -/
def standard : Envelope := ⟨2048, 100, 100⟩

instance : Inhabited Envelope := ⟨standard⟩

/-- Whether all three bounds are positive. -/
def isValid (e : Envelope) : Bool :=
  decide (0 < e.maxPosition) && Binary.lt 0 e.maxSpeed && Binary.lt 0 e.maxAcceleration

/-- The position forced into `[0, maxPosition]`: negative positions and a non-positive bound give
`0`, positions past the bound wrap around it. -/
def clampPosition (e : Envelope) (position : Int) : Int :=
  if position < 0 ∨ e.maxPosition ≤ 0 then 0
  else if e.maxPosition < position then position % e.maxPosition
  else position

end Envelope

/-- The rate itself when it is finite and within `±bound`, otherwise half the bound. -/
def clampRate (value bound : Binary32) : Binary32 :=
  if !value.isFinite || Binary.lt bound value || Binary.lt value (-bound) then bound / 2
  else value

namespace Envelope

/-- The speed forced into the envelope. -/
def clampSpeed (e : Envelope) (speed : Binary32) : Binary32 := clampRate speed e.maxSpeed

/-- The acceleration forced into the envelope. -/
def clampAcceleration (e : Envelope) (accel : Binary32) : Binary32 :=
  clampRate accel e.maxAcceleration

end Envelope

end StepperDrive
