/-!
# Binary floating-point formats and correct rounding

A `Format` fixes how many significand bits a binary floating-point number keeps and how large
its exponent may grow; `binary32` and `binary64` are the two interchange formats the drive
works in. A `Binary f` is one value of format `f`: NaN, a signed infinity, or a finite
`± significand · 2 ^ exponent`.

Every arithmetic operation of this library is computed exactly on naturals and then rounded
ONCE by `Format.round`: the value nearest the exact result, a tie going to the even
significand, and a result too large for the format going to infinity. That single function
is the whole rounding story, so a law about rounding is proved once, here.

Finite values are kept canonical: the significand is below `2 ^ precision`, the exponent lies
between `qmin` and `qmax`, and a significand below `2 ^ (precision - 1)` (a subnormal or a
zero) only comes with the exponent `qmin`. Zero is `finite sign 0 qmin`, so `+0` and `-0`
are the two values with significand zero.
-/

namespace StepperDrive

set_option autoImplicit false

/-- A binary interchange format: the number of significand bits, the leading one included, and
the largest exponent of a normal number's leading bit. -/
structure Format where
  /-- Significand bits, the leading one included. -/
  precision : Nat
  /-- Largest exponent of the leading bit of a finite value. -/
  emax : Nat
  deriving DecidableEq, Repr

namespace Format

/-- Single precision: 24 significand bits, exponents up to 127. -/
def binary32 : Format := ⟨24, 127⟩

/-- Double precision: 53 significand bits, exponents up to 1023. -/
def binary64 : Format := ⟨53, 1023⟩

/-- The exponent of the last significand bit of subnormals and of the least normals
(`-149` for single, `-1074` for double precision). -/
def qmin (f : Format) : Int := 2 - (f.emax : Int) - f.precision

/-- The exponent of the last significand bit of the largest finite values
(`104` for single, `971` for double precision). -/
def qmax (f : Format) : Int := (f.emax : Int) + 1 - f.precision

end Format

/-- A value of the binary format `f`. -/
inductive Binary (f : Format) where
  /-- Not a number. -/
  | nan
  /-- An infinity, negative when the flag is set. -/
  | inf (negative : Bool)
  /-- The finite value `± significand · 2 ^ exponent`, negative when the flag is set. -/
  | finite (negative : Bool) (significand : Nat) (exponent : Int)
  deriving DecidableEq, Repr

/-- Single-precision values. -/
abbrev Binary32 := Binary Format.binary32

/-- Double-precision values. -/
abbrev Binary64 := Binary Format.binary64

/-! ## Rounding an exact quotient -/

/-- The quotient `n / d` rounded to the nearest natural, a tie going to the even one. -/
def divRoundEven (n d : Nat) : Nat :=
  let q := n / d
  let r := n % d
  if 2 * r < d then q
  else if d < 2 * r then q + 1
  else if q % 2 = 0 then q else q + 1

/-- Whether `num / den ≥ 2 ^ e`. -/
def ratioGePow (num den : Nat) (e : Int) : Bool :=
  if 0 ≤ e then decide (den * Nat.pow 2 e.toNat ≤ num) else decide (den ≤ num * Nat.pow 2 (-e).toNat)

/-- The exponent `e` with `2 ^ e ≤ num / den < 2 ^ (e + 1)`, for positive `num` and `den`.
Comparing the leading bits of the two naturals leaves one step of doubt, settled by
`ratioGePow`. -/
def leadExponent (num den : Nat) : Int :=
  let e : Int := (num.log2 : Int) - den.log2
  if ratioGePow num den e then e else e - 1

namespace Format

/-- The value of format `f` nearest `± num / den · 2 ^ scale`, a tie going to the even
significand; a magnitude past the largest finite value rounds to infinity, and a zero `num`
gives the zero of the given sign. The quantum is the unit of the last of `precision` bits
below the leading one, but never below `2 ^ qmin`, which makes small results subnormal. -/
def round (f : Format) (negative : Bool) (num den : Nat) (scale : Int) : Binary f :=
  if num = 0 ∨ den = 0 then .finite negative 0 f.qmin
  else
    let lead := leadExponent num den + scale
    let q := max (lead + 1 - f.precision) f.qmin
    let shift := scale - q
    let n :=
      if 0 ≤ shift then divRoundEven (num * Nat.pow 2 shift.toNat) den
      else divRoundEven num (den * Nat.pow 2 (-shift).toNat)
    -- rounding up may carry into a new leading bit
    if n = Nat.pow 2 f.precision then
      if f.qmax < q + 1 then .inf negative else .finite negative (Nat.pow 2 (f.precision - 1)) (q + 1)
    else if f.qmax < q then .inf negative
    else .finite negative n q

end Format

end StepperDrive
