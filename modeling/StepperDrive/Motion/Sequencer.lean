import StepperDrive.Coil.Pattern
/-!
# Directions and phase sequencing

A move turns one way or the other (`Direction`), and each step adds the direction's sign to
the position. A step moves the coil cycle one phase forward (clockwise) or back (counter-clockwise). The
current phase is first reduced into the mode's cycle, so a phase left over from half stepping
(up to seven) continues sensibly in a four-phase mode; the step then wraps around the cycle.

A `Sequencer` remembers the phase between steps and starts at phase zero.
-/

namespace StepperDrive

set_option autoImplicit false

/-!
## Direction of rotation

A move runs clockwise when its signed step count is zero or positive and counter-clockwise when
it is negative. The sign `+1` or `-1` is what a step adds to the position.
-/

/-- The direction of rotation. -/
inductive Direction where
  /-- Clockwise: positive step counts. -/
  | clockwise
  /-- Counter-clockwise: negative step counts. -/
  | counterClockwise
  deriving DecidableEq, Repr, Inhabited

namespace Direction

/-- The direction of a signed step count; zero counts as clockwise. -/
def ofSteps (steps : Int) : Direction := if 0 ≤ steps then .clockwise else .counterClockwise

/-- What one step adds to the position. -/
def sign : Direction → Int
  | .clockwise => 1
  | .counterClockwise => -1

/-- The opposite direction. -/
def reversed : Direction → Direction
  | .clockwise => .counterClockwise
  | .counterClockwise => .clockwise

theorem sign_ofSteps_mul_natAbs (steps : Int) : (ofSteps steps).sign * steps.natAbs = steps := by
  by_cases h : 0 ≤ steps
  · simp only [ofSteps, if_pos h, sign, Int.natAbs_of_nonneg h, Int.one_mul]
  · simp only [ofSteps, if_neg h, sign, Int.ofNat_natAbs_of_nonpos (by omega : steps ≤ 0)]
    omega

end Direction

/-- The phase after one step from `phase` in `direction`, within the mode's cycle: the phase is
reduced into the cycle, moved by the direction's sign, and wrapped around. -/
def nextPhase (mode : StepMode) (phase : Nat) (direction : Direction) : Nat :=
  let count : Int := mode.phaseCount
  ((((phase : Int) % count) + direction.sign) % count).toNat

/-- The next phase and the pattern the table gives it. -/
def nextPattern (table : CoilTable) (mode : StepMode) (phase : Nat) (direction : Direction) :
    Nat × CoilPattern :=
  let next := nextPhase mode phase direction
  (next, table.patternAt mode next)

theorem nextPhase_lt (mode : StepMode) (phase : Nat) (direction : Direction) :
    nextPhase mode phase direction < mode.phaseCount := by
  have h := mode.phaseCount_pos
  simp only [nextPhase]
  have h1 := Int.emod_nonneg ((phase : Int) % mode.phaseCount + direction.sign)
    (b := mode.phaseCount) (by omega)
  have h2 := Int.emod_lt_of_pos ((phase : Int) % mode.phaseCount + direction.sign)
    (b := mode.phaseCount) (by omega)
  omega

/-- A coil table and the current phase of its cycle. -/
structure Sequencer where
  /-- The patterns to step through. -/
  table : CoilTable
  /-- The phase of the last pattern written. -/
  phase : Nat
  deriving DecidableEq, Repr

namespace Sequencer

/-- A sequencer at phase zero. -/
def start (table : CoilTable) : Sequencer := ⟨table, 0⟩

/-- One step: the sequencer at the next phase, and that phase's pattern. -/
def advance (s : Sequencer) (mode : StepMode) (direction : Direction) : Sequencer × CoilPattern :=
  let (phase, pattern) := nextPattern s.table mode s.phase direction
  ({ s with phase }, pattern)

end Sequencer

end StepperDrive
