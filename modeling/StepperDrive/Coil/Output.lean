import StepperDrive.Coil.Pattern
import StepperDrive.Error
/-!
# Coil outputs

A coil output takes coil patterns one at a time. Writing is a function from the output's state
to its next state and a verdict, because a failed write may still have changed something: four
pins written one after another can fail half way.

Three outputs are here.

* `Recorder` keeps counts and history: the all-off pattern counts as a release, any other as a
  step, and the last sixteen patterns are kept, oldest first. It never fails.
* `FourPinCoils` drives four output pins through a `PinBank`. A pattern equal to the last one
  written in full is skipped. Otherwise pins `0` to `3` are set in order to the coil levels, the
  first refusal stops the write, and the pattern is remembered only once all four are set.
* `BudgetPins` is a bank of four in-memory pins that accepts a fixed number of writes and
  refuses every write after them, for exercising failure paths.
-/

namespace StepperDrive

set_option autoImplicit false

/-- Something coil patterns are written to. -/
class CoilOutput (σ : Type) where
  /-- Writes a pattern: the next state, and whether the write succeeded. -/
  write : σ → CoilPattern → σ × Except MotorError Unit

/-! ## Recording output -/

/-- How many past writes a recorder keeps. -/
def historyDepth : Nat := 16

/-- An output that records what is written to it. -/
structure Recorder where
  /-- Writes of a pattern other than all-off. -/
  steps : Nat
  /-- Writes of the all-off pattern. -/
  disables : Nat
  /-- The last writes, oldest first, at most `historyDepth` of them. -/
  recent : List CoilPattern
  deriving DecidableEq, Repr

namespace Recorder

/-- A recorder that has seen nothing. -/
def empty : Recorder := ⟨0, 0, []⟩

instance : Inhabited Recorder := ⟨empty⟩

/-- The recorder after one more write. -/
def record (r : Recorder) (p : CoilPattern) : Recorder :=
  let recent := r.recent ++ [p]
  { steps := if p = .off then r.steps else r.steps + 1
    disables := if p = .off then r.disables + 1 else r.disables
    recent := recent.drop (recent.length - historyDepth) }

/-- The last pattern written, if any. -/
def last? (r : Recorder) : Option CoilPattern := r.recent.getLast?

instance : CoilOutput Recorder := ⟨fun r p => (r.record p, .ok ())⟩

theorem length_recent_record (r : Recorder) (p : CoilPattern) (h : r.recent.length ≤ historyDepth) :
    (r.record p).recent.length ≤ historyDepth := by
  simp only [record, List.length_drop, List.length_append, List.length_singleton]
  omega

end Recorder

/-! ## Four output pins -/

/-- Four output lines, each of which may refuse a write. -/
class PinBank (β : Type) where
  /-- Sets line `i` to `level`; `none` when the line refuses, which leaves the bank as it was. -/
  set : β → Fin 4 → Bool → Option β

/-- Four pins driving the coils, and the last pattern written in full. -/
structure FourPinCoils (β : Type) where
  pins : β
  /-- The last pattern all four pins were set to. -/
  current : Option CoilPattern
  deriving DecidableEq, Repr

namespace FourPinCoils

variable {β : Type} [PinBank β]

/-- Coils on the given pins, nothing written yet. -/
def new (pins : β) : FourPinCoils β := ⟨pins, none⟩

/-- Sets pins `i`, `i + 1`, … `3` to the pattern's levels, stopping at the first refusal:
the pins as far as they got, and whether all were set. -/
def setFrom (p : CoilPattern) (pins : β) : List (Fin 4) → β × Bool
  | [] => (pins, true)
  | i :: rest => match PinBank.set pins i (p.isEnergized i) with
    | some pins' => setFrom p pins' rest
    | none => (pins, false)

/-- Writes a pattern: skipped when it is the current one, otherwise pin by pin. -/
def write (c : FourPinCoils β) (p : CoilPattern) : FourPinCoils β × Except MotorError Unit :=
  if c.current = some p then (c, .ok ())
  else
    match setFrom p c.pins [0, 1, 2, 3] with
    | (pins, true) => (⟨pins, some p⟩, .ok ())
    | (pins, false) => ({ c with pins }, .error .pin)

instance : CoilOutput (FourPinCoils β) := ⟨write⟩

end FourPinCoils

/-- Four in-memory pins sharing a budget of successful writes. -/
structure BudgetPins where
  /-- The levels of the four pins. -/
  levels : Vector Bool 4
  /-- Writes accepted so far. -/
  writes : Nat
  /-- How many writes are accepted in all; `none` for no limit. -/
  budget : Option Nat
  deriving DecidableEq, Repr

namespace BudgetPins

/-- Four low pins accepting `budget` writes. -/
def new (budget : Option Nat) : BudgetPins := ⟨#v[false, false, false, false], 0, budget⟩

/-- Whether another write is accepted. -/
def accepts (b : BudgetPins) : Bool :=
  match b.budget with
  | some n => decide (b.writes < n)
  | none => true

instance : PinBank BudgetPins where
  set b i level := if b.accepts then some { b with levels := b.levels.set i level, writes := b.writes + 1 } else none

end BudgetPins

end StepperDrive
