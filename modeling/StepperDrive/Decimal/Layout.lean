import StepperDrive.Decimal.Shortest
/-!
# Writing numbers as text

A `Layout` records the decisions a number format makes once the digits are chosen: which
magnitudes are written positionally, whether an integral value keeps `.0`, how an exponent is
marked, and the words for NaN and infinity. Two layouts are used by the drive:

* `Layout.plain` writes every finite number positionally, with no exponent and no `.0`
  (`-0`, `0.000001`, `1000000000000000000000`), NaN as `NaN` and infinity as `inf`; reports
  and messages use it.
* `Layout.interchange` writes numbers for other programs to read as floating point: a point
  or an exponent is always present, exponents from `-4` to `15` are positional (`50.0`,
  `0.0001`), others scientific with a signed two-digit exponent (`1e+16`, `1.5e-07`).

`Binary.toFixed` writes a value with a fixed number of places after the point, rounding the
exact binary value with a chosen tie rule.
-/

namespace StepperDrive

set_option autoImplicit false

/-- The decisions of a number format beyond the choice of digits. -/
structure Layout where
  /-- Whether a number whose leading digit has the decimal exponent `e` is written without
  an exponent. -/
  positional : Int → Bool
  /-- Whether an integral positional number ends in `.0`. -/
  pointZero : Bool
  /-- The text between significand and exponent. -/
  mark : String
  /-- Whether a positive exponent is written with `+`. -/
  plusSign : Bool
  /-- The least number of exponent digits, zeros padding on the left. -/
  expDigits : Nat
  /-- The text of NaN. -/
  nan : String
  /-- The text of positive infinity; the negative one has a minus sign before it. -/
  infinity : String

/-- `n` copies of the character `c`. -/
def padding (n : Nat) (c : Char) : String := String.ofList (List.replicate n c)

namespace Layout

/-- Every finite number positionally, an integral one without `.0`. -/
def plain : Layout :=
  { positional := fun _ => true, pointZero := false, mark := "e", plusSign := false,
    expDigits := 1, nan := "NaN", infinity := "inf" }

/-- Numbers for other programs to read back as floating point: positional for exponents from
`-4` to `15` with `.0` on integral values, otherwise scientific with a signed exponent of at
least two digits. -/
def interchange : Layout :=
  { positional := fun e => decide (-4 ≤ e ∧ e < 16), pointZero := true, mark := "e",
    plusSign := true, expDigits := 2, nan := "NaN", infinity := "Infinity" }

/-- The unsigned text of `digits · 10 ^ exponent` without an exponent. -/
def positionalText (L : Layout) (digits : Nat) (exponent : Int) : String :=
  let s := toString digits
  if 0 ≤ exponent then
    s ++ padding exponent.toNat '0' ++ (if L.pointZero then ".0" else "")
  else
    let frac := (-exponent).toNat
    if frac < s.length then
      String.ofList (s.toList.take (s.length - frac)) ++ "." ++
        String.ofList (s.toList.drop (s.length - frac))
    else "0." ++ padding (frac - s.length) '0' ++ s

/-- The unsigned text of `digits · 10 ^ exponent` as a significand with one digit before the
point, then the mark and the exponent of the leading digit. -/
def scientificText (L : Layout) (digits : Nat) (exponent : Int) : String :=
  let s := toString digits
  let lead := exponent + s.length - 1
  let body := match s.toList with
    | c :: rest@(_ :: _) => String.ofList (c :: '.' :: rest)
    | cs => String.ofList cs
  let e := toString lead.natAbs
  let sign := if lead < 0 then "-" else if L.plusSign then "+" else ""
  body ++ L.mark ++ sign ++ padding (L.expDigits - e.length) '0' ++ e

/-- The text of a decimal. -/
def decimalText (L : Layout) (d : Decimal) : String :=
  let sign := if d.negative then "-" else ""
  let lead := d.exponent + digitCountOf d.digits - 1
  if d.digits = 0 then sign ++ L.positionalText 0 0
  else if L.positional lead then sign ++ L.positionalText d.digits d.exponent
  else sign ++ L.scientificText d.digits d.exponent
where
  /-- The number of decimal digits of a natural. -/
  digitCountOf (n : Nat) : Int := (toString n).length

/-- The text of a binary value in its shortest decimal form, a tie going as `tie` says. -/
def binaryText {f : Format} (L : Layout) (tie : Tie) (x : Binary f) : String :=
  match x with
  | .nan => L.nan
  | .inf s => (if s then "-" else "") ++ L.infinity
  | .finite .. => match x.shortest tie with
    | some d => L.decimalText d
    | none => L.nan

end Layout

namespace Binary

variable {f : Format}

/-- The value with `places` digits after the point, the exact value rounded to that many
places with the tie rule `tie`; a negative value keeps its sign even when it rounds to zero. -/
def toFixed (places : Nat) (tie : Tie) : Binary f → String
  | .nan => "NaN"
  | .inf s => if s then "-inf" else "inf"
  | .finite s m q =>
    let num := m * Nat.pow 2 q.toNat * Nat.pow 10 places
    let den := Nat.pow 2 (-q).toNat
    let n := match tie with
      | .toEven => divRoundEven num den
      | .up => (2 * num + den) / (2 * den)
    let digits := toString n
    let digits := padding (places + 1 - digits.length) '0' ++ digits
    let intPart := String.ofList (digits.toList.take (digits.length - places))
    let fracPart := String.ofList (digits.toList.drop (digits.length - places))
    (if s then "-" else "") ++ intPart ++ (if places = 0 then "" else "." ++ fracPart)

end Binary

end StepperDrive
