import StepperDrive.Binary.Arith
/-!
# Conversions of binary values

Between formats a value is carried over exactly and rounded once, so widening single to double
precision is exact and narrowing rounds to nearest, ties to even.

Into integers a value is truncated toward zero and then saturated: NaN becomes `0`, and a value
beyond the integer range becomes the nearest end of that range. This is the total conversion
the drive applies wherever a float becomes a count of steps or milliseconds.
-/

namespace StepperDrive

set_option autoImplicit false

namespace Binary

variable {f : Format}

/-- The magnitude `m · 2 ^ q` truncated toward zero. -/
def truncMagnitude (m : Nat) (q : Int) : Nat :=
  if 0 ≤ q then m * Nat.pow 2 q.toNat else m / Nat.pow 2 (-q).toNat

/-- The value in another format, rounded to nearest with ties to even. -/
def convert (g : Format) : Binary f → Binary g
  | .nan => .nan
  | .inf s => .inf s
  | .finite s m q => g.round s m 1 q

/-- The value truncated toward zero and saturated into `[0, bound]`; NaN and every negative
value give `0`. -/
def toNatSat (bound : Nat) : Binary f → Nat
  | .nan => 0
  | .inf s => if s then 0 else bound
  | .finite s m q => if s then 0 else Nat.min (truncMagnitude m q) bound

/-- The value truncated toward zero and saturated into `[lo, hi]`; NaN gives `0`. -/
def toIntSat (lo hi : Int) : Binary f → Int
  | .nan => 0
  | .inf s => if s then lo else hi
  | .finite s m q =>
    let t := signedNat s (truncMagnitude m q)
    if t < lo then lo else if hi < t then hi else t

/-- Truncation into an unsigned 64-bit count. -/
def toUInt64 (x : Binary f) : Nat := x.toNatSat 18446744073709551615

/-- Truncation into an unsigned 32-bit count. -/
def toUInt32 (x : Binary f) : Nat := x.toNatSat 4294967295

/-- Truncation into a signed 64-bit count. -/
def toInt64 (x : Binary f) : Int := x.toIntSat (-9223372036854775808) 9223372036854775807

/-- Single precision widened to double precision; every single value is a double value. -/
def toBinary64 (x : Binary32) : Binary64 := x.convert Format.binary64

/-- Double precision narrowed to single precision, to nearest with ties to even. -/
def toBinary32 (x : Binary64) : Binary32 := x.convert Format.binary32

end Binary

end StepperDrive
