import StepperDrive.Binary.Format
/-!
# Arithmetic on binary values

Each operation follows the same plan: settle NaN, infinities and zeros by the rules of binary
floating point, compute the exact result of finite operands on naturals, and round it once with
`Format.round`. Sums align both operands to the smaller exponent, products and quotients keep
numerator and denominator apart, and the square root takes an integer root with enough extra
bits that a remainder only has to be remembered as a sticky half unit.

The order `compare?` is the numeric order of the finite values and infinities, with `+0` and
`-0` equal and NaN unordered, so `lt` and `le` are false whenever a NaN takes part.
-/

namespace StepperDrive

set_option autoImplicit false

/-- The integer `± n`, negative when the flag is set. -/
def signedNat (negative : Bool) (n : Nat) : Int := if negative then -(n : Int) else n

/-- The integer square root, found one bit at a time from the top: the largest `r` with
`r * r ≤ n`. -/
def isqrt (n : Nat) : Nat :=
  go (n.log2 / 2 + 1) 0
where
  /-- Decides the bits below `2 ^ k` of the root, given the bits above in `r`. -/
  go : Nat → Nat → Nat
    | 0, r => r
    | k + 1, r =>
      let c := r + Nat.pow 2 k
      go k (if c * c ≤ n then c else r)

namespace Binary

variable {f : Format}

/-- The zero of the given sign. -/
def zero (negative : Bool) : Binary f := .finite negative 0 f.qmin

/-- The value of a natural number, rounded to the format. -/
def ofNat (n : Nat) : Binary f := f.round false n 1 0

/-- The value of an integer, rounded to the format; zero is `+0`. -/
def ofInt (n : Int) : Binary f := f.round (n < 0) n.natAbs 1 0

instance (n : Nat) : OfNat (Binary f) n := ⟨ofNat n⟩

/-- Whether the value is NaN. -/
def isNaN : Binary f → Bool
  | .nan => true
  | _ => false

/-- Whether the value is neither NaN nor infinite. -/
def isFinite : Binary f → Bool
  | .finite .. => true
  | _ => false

/-- Whether the value is `+0` or `-0`. -/
def isZero : Binary f → Bool
  | .finite _ 0 _ => true
  | _ => false

/-- The value with its sign flipped; NaN stays NaN. -/
def neg : Binary f → Binary f
  | .nan => .nan
  | .inf s => .inf (!s)
  | .finite s m q => .finite (!s) m q

/-- The magnitude of the value; NaN stays NaN. -/
def abs : Binary f → Binary f
  | .nan => .nan
  | .inf _ => .inf false
  | .finite _ m q => .finite false m q

instance : Neg (Binary f) := ⟨neg⟩

/-! ## Sum, difference, product, quotient -/

/-- The rounded sum. Opposite infinities give NaN; an exact zero sum is `-0` only when both
operands are negative. -/
def add : Binary f → Binary f → Binary f
  | .nan, _ => .nan
  | _, .nan => .nan
  | .inf a, .inf b => if a = b then .inf a else .nan
  | .inf a, .finite .. => .inf a
  | .finite .., .inf b => .inf b
  | .finite a m q, .finite b n r =>
    let s := min q r
    let w := signedNat a (m * Nat.pow 2 (q - s).toNat) + signedNat b (n * Nat.pow 2 (r - s).toNat)
    if w = 0 then .finite (a && b) 0 f.qmin
    else f.round (decide (w < 0)) w.natAbs 1 s

/-- The rounded difference `x - y`, the sum with `-y`. -/
def sub (x y : Binary f) : Binary f := add x (neg y)

/-- The rounded product. Infinity times zero gives NaN; the sign is the exclusive or of the
operands' signs. -/
def mul : Binary f → Binary f → Binary f
  | .nan, _ => .nan
  | _, .nan => .nan
  | .inf a, .inf b => .inf (a != b)
  | .inf a, .finite b n _ => if n = 0 then .nan else .inf (a != b)
  | .finite a m _, .inf b => if m = 0 then .nan else .inf (a != b)
  | .finite a m q, .finite b n r => f.round (a != b) (m * n) 1 (q + r)

/-- The rounded quotient. Zero by zero and infinity by infinity give NaN; a nonzero value by
zero gives the infinity of the combined sign. -/
def div : Binary f → Binary f → Binary f
  | .nan, _ => .nan
  | _, .nan => .nan
  | .inf _, .inf _ => .nan
  | .inf a, .finite b _ _ => .inf (a != b)
  | .finite a _ _, .inf b => zero (a != b)
  | .finite a m q, .finite b n r =>
    if n = 0 then (if m = 0 then .nan else .inf (a != b))
    else f.round (a != b) m n (q - r)

instance : Add (Binary f) := ⟨add⟩
instance : Sub (Binary f) := ⟨sub⟩
instance : Mul (Binary f) := ⟨mul⟩
instance : Div (Binary f) := ⟨div⟩

/-- The rounded square root. Negative nonzero values and NaN give NaN, `-0` gives `-0`.
The root of `m · 2 ^ q` is taken as the integer root of `m · 2 ^ (q mod 2) · 4 ^ (precision + 2)`:
it then has at least two bits more than the format keeps, so an inexact root rounds as
its integer part plus a half unit does. -/
def sqrt : Binary f → Binary f
  | .nan => .nan
  | .inf s => if s then .nan else .inf false
  | .finite s m q =>
    if m = 0 then .finite s 0 f.qmin
    else if s then .nan
    else
      let odd := q % 2 = 1
      let m' := if odd then 2 * m else m
      let q' := if odd then q - 1 else q
      let k := f.precision + 2
      let n := m' * Nat.pow 4 k
      let t := isqrt n
      let e := q' / 2 - k
      if t * t = n then f.round false t 1 e
      else f.round false (2 * t + 1) 2 e

/-! ## Order -/

/-- The numeric order of two values, `none` when either is NaN. -/
def compare? : Binary f → Binary f → Option Ordering
  | .nan, _ => none
  | _, .nan => none
  | .inf a, .inf b => some (if a = b then .eq else if a then .lt else .gt)
  | .inf a, .finite .. => some (if a then .lt else .gt)
  | .finite .., .inf b => some (if b then .gt else .lt)
  | .finite a m q, .finite b n r =>
    let s := min q r
    some (compare (signedNat a (m * Nat.pow 2 (q - s).toNat)) (signedNat b (n * Nat.pow 2 (r - s).toNat)))

/-- Whether `x < y`; false when either is NaN. -/
def lt (x y : Binary f) : Bool := compare? x y == some .lt

/-- Whether `x ≤ y`; false when either is NaN. -/
def le (x y : Binary f) : Bool := compare? x y == some .lt || compare? x y == some .eq

/-- Numeric equality: `+0` equals `-0`, and NaN equals nothing. -/
def eq (x y : Binary f) : Bool := compare? x y == some .eq

/-- The larger of two values, ignoring a NaN on either side; of two equal values the first. -/
def max (x y : Binary f) : Binary f :=
  if x.isNaN then y else if y.isNaN then x else if lt x y then y else x

/-- The smaller of two values, ignoring a NaN on either side; of two equal values the first. -/
def min (x y : Binary f) : Binary f :=
  if x.isNaN then y else if y.isNaN then x else if lt y x then y else x

/-! ## Rounding to an integral value -/

/-- The nearest integral value, a half going away from zero; the sign is kept, so
`-0.3` rounds to `-0`. -/
def roundHalfAway : Binary f → Binary f
  | .finite s m q =>
    if 0 ≤ q then .finite s m q
    else
      let unit := Nat.pow 2 (-q).toNat
      f.round s ((2 * m + unit) / (2 * unit)) 1 0
  | x => x

end Binary

end StepperDrive
