/-!
# Machine words and overflow traps

Positions are signed 64-bit counts, times and distances unsigned 64-bit counts, and the drive's
integer arithmetic is checked: a sum, difference or product that leaves its word's range does
not wrap, it stops the whole computation. `Overflow` names the operation that did so, and the
checked operations here return it as an error.

The values themselves are kept as `Int` and `Nat`; the checked operations are what keep them in
range. Two conversions do wrap, as casts between words do: `wrapInt64` reads an unsigned 64-bit
count as a signed one, and `truncUInt32` keeps the low 32 bits of a count.
-/

namespace StepperDrive

set_option autoImplicit false

/-- The arithmetic operation whose exact result left its word's range. -/
inductive Overflow where
  /-- A sum. -/
  | add
  /-- A difference. -/
  | subtract
  /-- A product. -/
  | multiply
  deriving DecidableEq, Repr

namespace Overflow

/-- The report of an overflow trap. -/
def message : Overflow → String
  | .add => "attempt to add with overflow"
  | .subtract => "attempt to subtract with overflow"
  | .multiply => "attempt to multiply with overflow"

end Overflow

namespace Word

/-- The least signed 64-bit value, `-2 ^ 63`. -/
def int64Min : Int := -9223372036854775808

/-- The greatest signed 64-bit value, `2 ^ 63 - 1`. -/
def int64Max : Int := 9223372036854775807

/-- The greatest unsigned 64-bit value. -/
def uint64Max : Nat := 18446744073709551615

/-- The greatest unsigned 32-bit value. -/
def uint32Max : Nat := 4294967295

/-- The greatest unsigned 16-bit value. -/
def uint16Max : Nat := 65535

/-- Whether an integer is a signed 64-bit value. -/
def IsInt64 (x : Int) : Prop := int64Min ≤ x ∧ x ≤ int64Max

instance (x : Int) : Decidable (IsInt64 x) := inferInstanceAs (Decidable (_ ∧ _))

/-- The value itself when it is a signed 64-bit value, otherwise the trap `op`. -/
def checkInt64 (op : Overflow) (x : Int) : Except Overflow Int :=
  if IsInt64 x then .ok x else .error op

/-- The value itself when it is an unsigned 64-bit value, otherwise the trap `op`. -/
def checkUInt64 (op : Overflow) (x : Nat) : Except Overflow Nat :=
  if x ≤ uint64Max then .ok x else .error op

/-- Checked signed 64-bit sum. -/
def addInt64 (a b : Int) : Except Overflow Int := checkInt64 .add (a + b)

/-- Checked signed 64-bit difference. -/
def subInt64 (a b : Int) : Except Overflow Int := checkInt64 .subtract (a - b)

/-- Checked signed 64-bit product. -/
def mulInt64 (a b : Int) : Except Overflow Int := checkInt64 .multiply (a * b)

/-- Checked unsigned 64-bit sum. -/
def addUInt64 (a b : Nat) : Except Overflow Nat := checkUInt64 .add (a + b)

/-- Checked unsigned 64-bit product. -/
def mulUInt64 (a b : Nat) : Except Overflow Nat := checkUInt64 .multiply (a * b)

/-- An unsigned 64-bit count read as a signed one: counts from `2 ^ 63` on become negative. -/
def wrapInt64 (n : Nat) : Int := if n < 9223372036854775808 then n else (n : Int) - 18446744073709551616

/-- The low 32 bits of a count, as an unsigned 32-bit value. -/
def truncUInt32 (x : Int) : Nat := (x % 4294967296).toNat

/-- The magnitude of a signed 64-bit value, as an unsigned 64-bit count. -/
def unsignedAbs (x : Int) : Nat := x.natAbs

end Word

end StepperDrive
