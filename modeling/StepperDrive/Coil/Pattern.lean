import StepperDrive.Motion.StepMode
/-!
# Coil patterns and coil tables

A coil pattern is one byte whose low four bits say which of the four coils are energised,
bit `i` for coil `i`. A pattern is valid when at least one coil is on and no bit above the
fourth is set; the all-off pattern is how the coils are released.

A coil table gives the cycle of patterns for each step mode: four for wave and full stepping,
eight for half stepping. The table is data, not checked when it is built; validation looks for
its first invalid pattern in the order wave, full, half.
-/

namespace StepperDrive

set_option autoImplicit false

/-- The coils energised at once: bit `i` is coil `i`. -/
structure CoilPattern where
  /-- The pattern byte. -/
  bits : UInt8
  deriving DecidableEq, Repr, Inhabited

namespace CoilPattern

/-- All coils off. -/
def off : CoilPattern := ⟨0⟩

/-- Whether coil `i` is energised; there is no coil from index four on. -/
def isEnergized (p : CoilPattern) (i : Nat) : Bool :=
  decide (i < 4) && (p.bits.toNat >>> i) % 2 == 1

/-- Whether the pattern energises something and uses only the four coil bits. -/
def isValid (p : CoilPattern) : Bool := p.bits != 0 && p.bits ≤ 0b1111

/-- The levels of the four coils, coil `0` first. -/
def levels (p : CoilPattern) : List Bool := (List.range 4).map p.isEnergized

end CoilPattern

/-- The cycles of coil patterns for the three step modes. -/
structure CoilTable where
  /-- The wave-stepping cycle. -/
  wave : Vector CoilPattern 4
  /-- The full-stepping cycle. -/
  full : Vector CoilPattern 4
  /-- The half-stepping cycle. -/
  half : Vector CoilPattern 8
  deriving DecidableEq, Repr

namespace CoilTable

/-- The table of a 28BYJ-48 style motor: coils `0` to `3` in order for wave stepping,
neighbouring pairs for full stepping, and both interleaved for half stepping. -/
def standard : CoilTable where
  wave := #v[⟨0b0001⟩, ⟨0b0010⟩, ⟨0b0100⟩, ⟨0b1000⟩]
  full := #v[⟨0b0011⟩, ⟨0b0110⟩, ⟨0b1100⟩, ⟨0b1001⟩]
  half := #v[⟨0b0001⟩, ⟨0b0011⟩, ⟨0b0010⟩, ⟨0b0110⟩, ⟨0b0100⟩, ⟨0b1100⟩, ⟨0b1000⟩, ⟨0b1001⟩]

instance : Inhabited CoilTable := ⟨standard⟩

/-- The cycle of a step mode. -/
def sequence (t : CoilTable) : StepMode → List CoilPattern
  | .wave => t.wave.toList
  | .full => t.full.toList
  | .half => t.half.toList

/-- The pattern at a phase of a mode's cycle; a phase past the cycle reads as all off. -/
def patternAt (t : CoilTable) (mode : StepMode) (phase : Nat) : CoilPattern :=
  (t.sequence mode).getD phase CoilPattern.off

/-- Every pattern of the table: wave, then full, then half. -/
def patterns (t : CoilTable) : List CoilPattern := t.wave.toList ++ t.full.toList ++ t.half.toList

/-- The first invalid pattern, in the order of `patterns`. -/
def firstInvalid? (t : CoilTable) : Option CoilPattern := t.patterns.find? (!·.isValid)

theorem length_sequence (t : CoilTable) (m : StepMode) : (t.sequence m).length = m.phaseCount := by
  cases m <;> simp [sequence, StepMode.phaseCount]

end CoilTable

end StepperDrive
