/-!
# Step modes

A unipolar motor can be stepped three ways. Wave and full stepping cycle through four coil
patterns, one and two coils on respectively; half stepping interleaves them in eight. A step
mode fixes how many phases a cycle has and how many steps make one revolution of the output
shaft.
-/

namespace StepperDrive

set_option autoImplicit false

/-- How the coils are sequenced. -/
inductive StepMode where
  /-- One coil at a time, four phases. -/
  | wave
  /-- Two coils at a time, four phases. -/
  | full
  /-- One and two coils alternating, eight phases. -/
  | half
  deriving DecidableEq, Repr, Inhabited

namespace StepMode

/-- The mode with the given index: `0` wave, `1` full, `2` half. -/
def ofIndex? : Int → Option StepMode
  | 0 => some .wave
  | 1 => some .full
  | 2 => some .half
  | _ => none

/-- The index of the mode. -/
def index : StepMode → Nat
  | .wave => 0
  | .full => 1
  | .half => 2

/-- The number of phases in one cycle of coil patterns. -/
def phaseCount : StepMode → Nat
  | .wave | .full => 4
  | .half => 8

/-- The steps of one output revolution. -/
def stepsPerRevolution : StepMode → Nat
  | .wave | .full => 2048
  | .half => 4096

/-- The name of the mode. -/
def name : StepMode → String
  | .wave => "wave"
  | .full => "full"
  | .half => "half"

/-- The mode with the given name. -/
def ofName? : String → Option StepMode
  | "wave" => some .wave
  | "full" => some .full
  | "half" => some .half
  | _ => none

theorem ofIndex?_index (m : StepMode) : ofIndex? m.index = some m := by
  cases m <;> rfl

theorem phaseCount_pos (m : StepMode) : 0 < m.phaseCount := by
  cases m <;> decide

end StepMode

end StepperDrive
