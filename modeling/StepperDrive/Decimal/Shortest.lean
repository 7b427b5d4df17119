import StepperDrive.Binary.Convert
/-!
# Decimals and the shortest decimal that reads back

A `Decimal` is an exact signed decimal; `Decimal.toBinary` rounds it once to a binary format.

A finite binary value stands for the interval of reals that round to it. Its shortest decimal
is the decimal with the fewest significant digits inside that interval, and of two such the
one nearer the value; a decimal printed this way reads back to the same binary value.

The interval of a positive `m · 2 ^ q` reaches half a unit above and below it, except that the
least significand of a binade has a neighbour below at half the spacing, so there the interval
reaches only a quarter unit down. Its ends belong to it when `m` is even, because a tie at an
end rounds to the even significand.

For one, two, three ... significant digits, the search takes the decimal grid of that many
digits below the value's leading digit and tests the value's two neighbours on it: if any
point of the grid lies in the interval, one of those two does. All comparisons are exact
products of naturals. `precision` digits always suffice, since by then the grid is finer than
half a unit.
-/

namespace StepperDrive

set_option autoImplicit false

/-!
## Decimal numbers

A `Decimal` is an exact signed decimal `± digits · 10 ^ exponent`. Reading a number's text
produces one, and `Decimal.toBinary` rounds it once to the nearest value of a binary format,
ties to even, as a correctly rounded reader must.

Exponents far outside a format's range are settled before any power of ten is built: a
decimal whose leading digit sits more than `emax + 2` places above the point is past every
finite value, and one whose last digits all sit below `2 ^ (qmin - 2)` rounds to zero. The
remaining exponents are at most a few thousand, so the exact arithmetic stays small.
-/

/-- An exact decimal `± digits · 10 ^ exponent`, negative when the flag is set. -/
structure Decimal where
  /-- Whether the number carries a minus sign; `-0` keeps it. -/
  negative : Bool
  /-- The decimal significand. -/
  digits : Nat
  /-- The power of ten that scales the significand. -/
  exponent : Int
  deriving DecidableEq, Repr

namespace Decimal

/-- The number of decimal digits of `n`, at least one. -/
def digitCount (n : Nat) : Nat := (Nat.toDigits 10 n).length

/-- The nearest value of format `f`, ties to even. -/
def toBinary (f : Format) (d : Decimal) : Binary f :=
  if d.digits = 0 then .finite d.negative 0 f.qmin
  else
    -- `10 ^ top` bounds the magnitude from above, so `2 ^ top` does too
    let top := d.exponent + digitCount d.digits
    if (f.emax : Int) + 2 < top then .inf d.negative
    else if top < f.qmin - 2 then .finite d.negative 0 f.qmin
    else if 0 ≤ d.exponent then f.round d.negative (d.digits * Nat.pow 10 d.exponent.toNat) 1 0
    else f.round d.negative d.digits (Nat.pow 10 (-d.exponent).toNat) 0

end Decimal

/-- How an exact tie between two candidate decimals is settled. -/
inductive Tie where
  /-- The candidate with the even last digit. -/
  | toEven
  /-- The larger candidate. -/
  | up
  deriving DecidableEq, Repr

/-- How `c · 10 ^ g` compares with `k · 2 ^ t`, computed on naturals. -/
def compareScaled (c : Nat) (g : Int) (k : Nat) (t : Int) : Ordering :=
  compare (c * Nat.pow 10 g.toNat * Nat.pow 2 (-t).toNat) (k * Nat.pow 2 t.toNat * Nat.pow 10 (-g).toNat)

/-- `m · 2 ^ q / 10 ^ g`, rounded down. -/
def floorScaled (m : Nat) (q g : Int) : Nat :=
  (m * Nat.pow 2 q.toNat * Nat.pow 10 (-g).toNat) / (Nat.pow 2 (-q).toNat * Nat.pow 10 g.toNat)

/-- The exponent `e` with `10 ^ e ≤ m · 2 ^ q < 10 ^ (e + 1)`, for positive `m`. The estimate
from the leading bit and `log₁₀ 2 ≈ 0.30103` is off by at most one either way. -/
def decimalExponent (m : Nat) (q : Int) : Int :=
  let e := ((m.log2 : Int) + q) * 30103 / 100000
  let atMost (k : Int) : Bool := compareScaled 1 k m q != .gt
  if atMost (e + 1) then e + 1
  else if atMost e then e
  else if atMost (e - 1) then e - 1
  else e - 2

/-- The reals that round to a positive finite value, in units of `2 ^ unit`: from `lower` to
`upper` around `center`, the ends included when `closed`. -/
structure RoundingInterval where
  /-- The exponent of the unit. -/
  unit : Int
  /-- The lower end, in units. -/
  lower : Nat
  /-- The value itself, in units. -/
  center : Nat
  /-- The upper end, in units. -/
  upper : Nat
  /-- Whether both ends belong to the interval. -/
  closed : Bool
  deriving DecidableEq, Repr

namespace RoundingInterval

/-- The interval of the positive value `m · 2 ^ q` of format `f`, in quarter units. -/
def ofFinite (f : Format) (m : Nat) (q : Int) : RoundingInterval :=
  let narrowBelow := m = Nat.pow 2 (f.precision - 1) ∧ f.qmin < q
  { unit := q - 2
    lower := if narrowBelow then 4 * m - 1 else 4 * m - 2
    center := 4 * m
    upper := 4 * m + 2
    closed := m % 2 = 0 }

/-- Whether `c · 10 ^ g` lies in the interval. -/
def contains (I : RoundingInterval) (c : Nat) (g : Int) : Bool :=
  let a := compareScaled c g I.lower I.unit
  let b := compareScaled c g I.upper I.unit
  (a == .gt || (I.closed && a == .eq)) && (b == .lt || (I.closed && b == .eq))

/-- Of the grid points `c · 10 ^ g` and `(c + 1) · 10 ^ g` around the value, the nearer; an
exact tie is settled by `tie`. -/
def nearer (I : RoundingInterval) (tie : Tie) (c : Nat) (g : Int) : Nat :=
  match compareScaled (2 * c + 1) g (2 * I.center) I.unit with
  | .gt => c
  | .lt => c + 1
  | .eq => match tie with
    | .toEven => if c % 2 = 0 then c else c + 1
    | .up => c + 1

/-- The first grid, from `n` significant digits on, with a point in the interval, and the
chosen point on it as `(digits, exponent)`; `e` is the value's decimal exponent. Without
fuel it gives `none`. -/
def search (I : RoundingInterval) (tie : Tie) (e : Int) : Nat → Nat → Option (Nat × Int)
  | 0, _ => none
  | fuel + 1, n =>
    let g := e + 1 - n
    let c := floorScaled I.center I.unit g
    match I.contains c g, I.contains (c + 1) g with
    | true, true => some (I.nearer tie c g, g)
    | true, false => some (c, g)
    | false, true => some (c + 1, g)
    | false, false => search I tie e fuel (n + 1)

end RoundingInterval

namespace Decimal

/-- The exact decimal of `± m · 2 ^ q`. -/
def ofBinaryExact (negative : Bool) (m : Nat) (q : Int) : Decimal :=
  if 0 ≤ q then ⟨negative, m * Nat.pow 2 q.toNat, 0⟩ else ⟨negative, m * Nat.pow 5 (-q).toNat, q⟩

/-- The same number with the trailing zeros of its digits moved into the exponent; zero keeps
exponent `0`. -/
def normalize (d : Decimal) : Decimal :=
  if d.digits = 0 then ⟨d.negative, 0, 0⟩ else go (digitCount d.digits) d
where
  /-- Strips at most `fuel` trailing zeros. -/
  go : Nat → Decimal → Decimal
    | 0, d => d
    | fuel + 1, d => if d.digits % 10 = 0 then go fuel ⟨d.negative, d.digits / 10, d.exponent + 1⟩ else d

end Decimal

namespace Binary

variable {f : Format}

/-- The shortest decimal that reads back to this finite value, without trailing zeros; `none`
for NaN and the infinities. Zero gives the digits `0` with its sign. -/
def shortest (tie : Tie) : Binary f → Option Decimal
  | .finite s m q =>
    if m = 0 then some ⟨s, 0, 0⟩
    else
      let I := RoundingInterval.ofFinite f m q
      let d : Decimal := match I.search tie (decimalExponent m q) (f.precision + 1) 1 with
        | some (c, g) => ⟨s, c, g⟩
        | none => Decimal.ofBinaryExact s m q
      some d.normalize
  | _ => none

end Binary

end StepperDrive
