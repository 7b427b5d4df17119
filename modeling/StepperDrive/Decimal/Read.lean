import StepperDrive.Decimal.Shortest
/-!
# Reading decimal number text

`Numeral.read?` accepts the common text of a floating-point number:

* an optional sign `+` or `-`;
* then `inf`, `infinity` or `nan` in any mix of case;
* or digits with at most one point, with at least one digit before or after it (`5`, `5.`,
  `.5`, `5.25`), then optionally `e` or `E`, an optional sign and at least one digit.

Nothing else is accepted: no blanks, no digit separators, no hexadecimal. A `Numeral` keeps
the exact decimal, so rounding to a format happens once, in `Numeral.toBinary`.
-/

namespace StepperDrive

set_option autoImplicit false

/-- What a number's text denotes, before rounding to a format. -/
inductive Numeral where
  /-- An exact decimal. -/
  | finite (d : Decimal)
  /-- An infinity, negative when the flag is set. -/
  | inf (negative : Bool)
  /-- Not a number. -/
  | nan
  deriving DecidableEq, Repr

/-- The natural written by a list of decimal digits, most significant first. -/
def natOfDigits (ds : List Char) : Nat :=
  ds.foldl (fun n c => 10 * n + (c.toNat - '0'.toNat)) 0

namespace Numeral

/-- The value of the numeral in format `f`, rounded to nearest with ties to even. -/
def toBinary (f : Format) : Numeral → Binary f
  | .finite d => d.toBinary f
  | .inf s => .inf s
  | .nan => .nan

/-- The sign and the rest of a text: a leading `-` makes it negative, a leading `+` is dropped. -/
def splitSign : List Char → Bool × List Char
  | '-' :: r => (true, r)
  | '+' :: r => (false, r)
  | r => (false, r)

/-- An exponent: an optional sign and at least one digit, and nothing after them. -/
def readExponent? (cs : List Char) : Option Int :=
  let (negative, ds) := splitSign cs
  if ds.isEmpty || !ds.all Char.isDigit then none
  else some (if negative then -(natOfDigits ds : Int) else natOfDigits ds)

/-- The digits of an unsigned decimal number with an optional point and exponent. -/
def readUnsigned? (negative : Bool) (cs : List Char) : Option Numeral :=
  let (whole, afterWhole) := cs.span Char.isDigit
  let (frac, afterFrac) := match afterWhole with
    | '.' :: r => r.span Char.isDigit
    | r => ([], r)
  if whole.isEmpty && frac.isEmpty then none
  else
    let exponent? : Option Int := match afterFrac with
      | [] => some 0
      | c :: r => if c = 'e' || c = 'E' then readExponent? r else none
    exponent?.map fun e =>
      .finite ⟨negative, natOfDigits (whole ++ frac), e - frac.length⟩

/-- The numeral written by `s`, or `none` when `s` is not a number's text. -/
def read? (s : String) : Option Numeral :=
  let (negative, rest) := splitSign s.toList
  let word := String.ofList (rest.map Char.toLower)
  if word = "inf" || word = "infinity" then some (.inf negative)
  else if word = "nan" then some .nan
  else readUnsigned? negative rest

end Numeral

end StepperDrive
