import StepperDrive.Toml.Node
import StepperDrive.Decimal.Read
/-!
# TOML lexemes

The pieces of a TOML line that need no knowledge of tables: blanks and comments, keys, the four
kinds of string, numbers, booleans and dates. Each reader takes the remaining characters and
returns what it read with the characters after it.

Numbers follow TOML 1.0. Integers are decimal without leading zeros, or hexadecimal, octal or
binary after `0x`, `0o`, `0b` without a sign; a single `_` may stand between two digits; the
value must fit 64 signed bits. Floats have a decimal integer part and a fraction, an exponent,
or both; `inf` and `nan` take an optional sign; a float whose value is `+∞` after rounding is
refused. Dates are `YYYY-MM-DD`, times `HH:MM:SS` with an optional fraction, and a date-time
joins them with `T`, `t` or a space, optionally followed by `Z` or an offset `±HH:MM`.
-/

namespace StepperDrive

set_option autoImplicit false

/-- A reader of a prefix of the remaining characters. -/
abbrev Scan (α : Type) := List Char → TomlResult (α × List Char)

namespace Toml

/-- Space or tab. -/
def isBlank (c : Char) : Bool := c == ' ' || c == '\t'

/-- A character that TOML forbids in comments and strings: controls other than tab. -/
def isForbiddenControl (c : Char) : Bool :=
  (c.toNat < 0x20 && c != '\t') || c.toNat == 0x7F

/-- A character of a bare key. -/
def isBareKeyChar (c : Char) : Bool :=
  c.isAlphanum || c == '_' || c == '-'

/-- Skips spaces and tabs. -/
def skipBlanks (cs : List Char) : List Char := cs.dropWhile isBlank

/-- Skips a comment, if one starts here, up to the end of its line. -/
def skipComment : Scan Unit
  | '#' :: rest =>
    let body := rest.takeWhile fun c => c != '\n' && c != '\r'
    if body.any isForbiddenControl then tomlFail "control character in a comment"
    else .ok ((), rest.drop body.length)
  | cs => .ok ((), cs)

/-- Ends a line: blanks, an optional comment, then a line break or the end of the text. -/
def lineEnd : Scan Unit := fun cs => do
  let ((), rest) ← skipComment (skipBlanks cs)
  match rest with
  | [] => .ok ((), [])
  | '\n' :: r => .ok ((), r)
  | '\r' :: '\n' :: r => .ok ((), r)
  | _ => tomlFail "expected the end of the line"

/-- Skips blanks, comments and line breaks, as allowed inside arrays. -/
def skipLayout : Nat → Scan Unit
  | 0, cs => .ok ((), cs)
  | fuel + 1, cs => do
    let ((), rest) ← skipComment (skipBlanks cs)
    match rest with
    | '\n' :: r => skipLayout fuel r
    | '\r' :: '\n' :: r => skipLayout fuel r
    | _ => .ok ((), rest)

/-! ## Strings -/

/-- The value of a hexadecimal digit. -/
def hexValue? (c : Char) : Option Nat :=
  if c.isDigit then some (c.toNat - '0'.toNat)
  else if 'a' ≤ c && c ≤ 'f' then some (c.toNat - 'a'.toNat + 10)
  else if 'A' ≤ c && c ≤ 'F' then some (c.toNat - 'A'.toNat + 10)
  else none

/-- The code point written by exactly `n` hexadecimal digits, if it is a Unicode scalar value. -/
def unicodeEscape (n : Nat) (cs : List Char) : TomlResult (Char × List Char) := do
  let digits := cs.take n
  if digits.length != n then tomlFail "short unicode escape" else
  match digits.mapM hexValue? with
  | none => tomlFail "bad unicode escape"
  | some vs =>
    let v := vs.foldl (fun a d => 16 * a + d) 0
    if v < 0xD800 || (0xE000 ≤ v && v ≤ 0x10FFFF) then .ok (Char.ofNat v, cs.drop n)
    else tomlFail "escape is not a Unicode scalar value"

/-- One escape sequence after a backslash. -/
def escape : Scan Char
  | 'b' :: r => .ok ('\x08', r)
  | 't' :: r => .ok ('\t', r)
  | 'n' :: r => .ok ('\n', r)
  | 'f' :: r => .ok ('\x0c', r)
  | 'r' :: r => .ok ('\r', r)
  | '"' :: r => .ok ('"', r)
  | '\\' :: r => .ok ('\\', r)
  | 'u' :: r => unicodeEscape 4 r
  | 'U' :: r => unicodeEscape 8 r
  | _ => tomlFail "unknown escape"

/-- The rest of a one-line basic string after its opening quote, reading at most `fuel`
characters and escapes. -/
def basicStringFrom : Nat → List Char → List Char → TomlResult (String × List Char)
  | 0, _, _ => tomlFail "unterminated string"
  | _ + 1, [], _ => tomlFail "unterminated string"
  | _ + 1, '"' :: r, acc => .ok (String.ofList acc.reverse, r)
  | fuel + 1, '\\' :: r, acc => do
    let (c, r') ← escape r
    basicStringFrom fuel r' (c :: acc)
  | fuel + 1, c :: r, acc =>
    if isForbiddenControl c then tomlFail "control character in a string"
    else basicStringFrom fuel r (c :: acc)

/-- The rest of a one-line basic string after its opening quote. -/
def basicString (cs : List Char) : TomlResult (String × List Char) :=
  basicStringFrom cs.length cs []

/-- The rest of a one-line literal string after its opening quote. -/
def literalString : List Char → List Char → TomlResult (String × List Char)
  | [], _ => tomlFail "unterminated string"
  | '\'' :: r, acc => .ok (String.ofList acc.reverse, r)
  | c :: r, acc =>
    if isForbiddenControl c then tomlFail "control character in a string"
    else literalString r (c :: acc)

/-- Drops one line break right after an opening delimiter. -/
def dropLeadingBreak : List Char → List Char
  | '\n' :: r => r
  | '\r' :: '\n' :: r => r
  | r => r

/-- Skips blanks and line breaks after a line-ending backslash. -/
def dropBreakAndBlanks (cs : List Char) : List Char :=
  cs.dropWhile fun c => c == ' ' || c == '\t' || c == '\n' || c == '\r'

/-- The rest of a multi-line basic string after the opening quotes and the line break that may
follow them. A backslash before the end of a line removes the break and the blanks after it. -/
def multiBasicString : Nat → List Char → List Char → TomlResult (String × List Char)
  | 0, _, _ => tomlFail "unterminated string"
  | _ + 1, '"' :: '"' :: '"' :: '"' :: '"' :: r, acc => .ok (String.ofList ('"' :: '"' :: acc).reverse, r)
  | _ + 1, '"' :: '"' :: '"' :: '"' :: r, acc => .ok (String.ofList ('"' :: acc).reverse, r)
  | _ + 1, '"' :: '"' :: '"' :: r, acc => .ok (String.ofList acc.reverse, r)
  | fuel + 1, '\\' :: r, acc =>
    let afterBlanks := skipBlanks r
    match afterBlanks with
    | '\n' :: _ | '\r' :: '\n' :: _ => multiBasicString fuel (dropBreakAndBlanks afterBlanks) acc
    | _ => do
      let (c, r') ← escape r
      multiBasicString fuel r' (c :: acc)
  | fuel + 1, '\r' :: '\n' :: r, acc => multiBasicString fuel r ('\n' :: '\r' :: acc)
  | fuel + 1, c :: r, acc =>
    if c != '\n' && isForbiddenControl c then tomlFail "control character in a string"
    else multiBasicString fuel r (c :: acc)
  | _ + 1, [], _ => tomlFail "unterminated string"

/-- The rest of a multi-line literal string after the opening quotes and the line break that
may follow them. -/
def multiLiteralString : List Char → List Char → TomlResult (String × List Char)
  | '\'' :: '\'' :: '\'' :: '\'' :: '\'' :: r, acc =>
    .ok (String.ofList ('\'' :: '\'' :: acc).reverse, r)
  | '\'' :: '\'' :: '\'' :: '\'' :: r, acc => .ok (String.ofList ('\'' :: acc).reverse, r)
  | '\'' :: '\'' :: '\'' :: r, acc => .ok (String.ofList acc.reverse, r)
  | '\r' :: '\n' :: r, acc => multiLiteralString r ('\n' :: '\r' :: acc)
  | c :: r, acc =>
    if c != '\n' && isForbiddenControl c then tomlFail "control character in a string"
    else multiLiteralString r (c :: acc)
  | [], _ => tomlFail "unterminated string"

/-- A string of any of the four kinds, starting at its opening quote. -/
def string : Scan String
  | '"' :: '"' :: '"' :: r => multiBasicString r.length (dropLeadingBreak r) []
  | '"' :: r => basicString r
  | '\'' :: '\'' :: '\'' :: r => multiLiteralString (dropLeadingBreak r) []
  | '\'' :: r => literalString r []
  | _ => tomlFail "expected a string"

/-! ## Keys -/

/-- One key: bare, or a one-line quoted string. -/
def simpleKey : Scan String
  | '"' :: '"' :: '"' :: _ => tomlFail "a key cannot be a multi-line string"
  | '\'' :: '\'' :: '\'' :: _ => tomlFail "a key cannot be a multi-line string"
  | '"' :: r => basicString r
  | '\'' :: r => literalString r []
  | cs =>
    let k := cs.takeWhile isBareKeyChar
    if k.isEmpty then tomlFail "expected a key" else .ok (String.ofList k, cs.drop k.length)

/-- How deep a document may nest: a dotted key has fewer parts than this, and a value lies
inside fewer arrays and inline tables than this. -/
def nestingLimit : Nat := 80

/-- The keys of a dotted key, joined by dots, blanks allowed around the dots; `fuel` bounds
their number. -/
def keyParts : Nat → Scan (List String)
  | 0, _ => tomlFail "key too long"
  | fuel + 1, cs => do
    let (k, rest) ← simpleKey (skipBlanks cs)
    match skipBlanks rest with
    | '.' :: r => do
      let (ks, r') ← keyParts fuel r
      return (k :: ks, r')
    | _ => return ([k], rest)

/-- A dotted key of fewer than `nestingLimit` parts. -/
def key (cs : List Char) : TomlResult (List String × List Char) := do
  let (ks, rest) ← keyParts cs.length cs
  if nestingLimit ≤ ks.length then tomlFail "key nested too deeply" else return (ks, rest)

/-! ## Numbers, booleans and dates -/

/-- Whether the digits are separated by single underscores only: no underscore first, last
or next to another. -/
def underscoresBetweenDigits (isDigit : Char → Bool) (cs : List Char) : Bool :=
  !cs.isEmpty && cs.all (fun c => isDigit c || c == '_') &&
    cs.head? != some '_' && cs.getLast? != some '_' &&
    !(cs.zip cs.tail).any (fun (a, b) => a == '_' && b == '_')

/-- The characters without underscores. -/
def dropUnderscores (cs : List Char) : List Char := cs.filter (· != '_')

/-- The value of digits in a base. -/
def digitsValue (base : Nat) (cs : List Char) : Nat :=
  cs.foldl (fun a c => base * a + (hexValue? c).getD 0) 0

/-- The integer, if it fits 64 signed bits. -/
def integerInRange (v : Int) : TomlResult Node :=
  if -9223372036854775808 ≤ v && v < 9223372036854775808 then .ok (.integer v) else tomlFail "integer out of range"

/-- A decimal integer part: `0`, or digits not starting with `0`, underscores between digits. -/
def isDecimalInteger (cs : List Char) : Bool :=
  underscoresBetweenDigits Char.isDigit cs && (cs.head? != some '0' || cs.length == 1)

/-- The value of a number's text, `t` being a maximal run of number characters. -/
def numberOf (t : List Char) : TomlResult Node :=
  let (sign, body) : Option Char × List Char := match t with
    | '+' :: r => (some '+', r)
    | '-' :: r => (some '-', r)
    | r => (none, r)
  let negative := sign == some '-'
  match body with
  | ['i', 'n', 'f'] => .ok (.float (.inf negative))
  | ['n', 'a', 'n'] => .ok (.float .nan)
  | '0' :: 'x' :: ds =>
    if sign.isNone && underscoresBetweenDigits (fun c => (hexValue? c).isSome) ds then
      integerInRange (digitsValue 16 (dropUnderscores ds))
    else tomlFail "bad hexadecimal integer"
  | '0' :: 'o' :: ds =>
    if sign.isNone && underscoresBetweenDigits (fun c => '0' ≤ c && c ≤ '7') ds then
      integerInRange (digitsValue 8 (dropUnderscores ds))
    else tomlFail "bad octal integer"
  | '0' :: 'b' :: ds =>
    if sign.isNone && underscoresBetweenDigits (fun c => c == '0' || c == '1') ds then
      integerInRange (digitsValue 2 (dropUnderscores ds))
    else tomlFail "bad binary integer"
  | _ =>
    let whole := body.takeWhile fun c => c.isDigit || c == '_'
    let rest := body.drop whole.length
    if !isDecimalInteger whole then tomlFail "bad number"
    else if rest.isEmpty then
      let v := (natOfDigits (dropUnderscores whole) : Int)
      integerInRange (if negative then -v else v)
    else
      let (frac, afterFrac) : Option (List Char) × List Char := match rest with
        | '.' :: r =>
          let f := r.takeWhile fun (c : Char) => c.isDigit || c == '_'
          (some f, r.drop f.length)
        | r => (none, r)
      let fracOk := match frac with
        | some f => underscoresBetweenDigits Char.isDigit f
        | none => true
      let (expOk, hasExp) := match afterFrac with
        | [] => (true, false)
        | c :: r =>
          if c == 'e' || c == 'E' then
            let ds := match r with
              | '+' :: d => d
              | '-' :: d => d
              | d => d
            (underscoresBetweenDigits Char.isDigit ds, true)
          else (false, false)
      if !fracOk || !expOk || (frac.isNone && !hasExp) then tomlFail "bad float"
      else match Numeral.read? (String.ofList (dropUnderscores t)) with
        | some n =>
          let x : Binary Format.binary64 := n.toBinary Format.binary64
          if x = Binary.inf false then tomlFail "float out of range" else .ok (.float x)
        | none => tomlFail "bad float"

/-- A character that may belong to a number's text. -/
def isNumberChar (c : Char) : Bool :=
  c.isAlphanum || c == '_' || c == '+' || c == '-' || c == '.'

/-- Exactly `n` decimal digits and their value. -/
def fixedDigits (n : Nat) (cs : List Char) : Option (Nat × List Char) :=
  let ds := cs.take n
  if ds.length == n && ds.all Char.isDigit then some (natOfDigits ds, cs.drop n) else none

/-- The days of a month, February of leap years included. -/
def daysInMonth (year month : Nat) : Nat :=
  if month == 2 then
    (if year % 4 == 0 && (year % 100 != 0 || year % 400 == 0) then 29 else 28)
  else if month == 4 || month == 6 || month == 9 || month == 11 then 30 else 31

/-- A date `YYYY-MM-DD`. -/
def date? (cs : List Char) : Option (List Char) := do
  let (y, r) ← fixedDigits 4 cs
  let r ← match r with | '-' :: r => some r | _ => none
  let (m, r) ← fixedDigits 2 r
  let r ← match r with | '-' :: r => some r | _ => none
  let (d, r) ← fixedDigits 2 r
  if 1 ≤ m && m ≤ 12 && 1 ≤ d && d ≤ daysInMonth y m then some r else none

/-- A time `HH:MM:SS` with an optional fraction. -/
def time? (cs : List Char) : Option (List Char) := do
  let (h, r) ← fixedDigits 2 cs
  let r ← match r with | ':' :: r => some r | _ => none
  let (m, r) ← fixedDigits 2 r
  let r ← match r with | ':' :: r => some r | _ => none
  let (s, r) ← fixedDigits 2 r
  if !(h < 24 && m < 60 && s ≤ 60) then none
  else match r with
    | '.' :: f =>
      let ds := f.takeWhile Char.isDigit
      if ds.isEmpty then none else some (f.drop ds.length)
    | _ => some r

/-- An offset `Z`, `z` or `±HH:MM`, if present. -/
def offset (cs : List Char) : Option (List Char) :=
  match cs with
  | 'Z' :: r | 'z' :: r => some r
  | c :: r =>
    if c == '+' || c == '-' then do
      let (h, r) ← fixedDigits 2 r
      let r ← match r with | ':' :: r => some r | _ => none
      let (m, r) ← fixedDigits 2 r
      if h < 24 && m < 60 then some r else none
    else some cs
  | [] => some cs

/-- A date, a time, or a date-time starting here, and the characters after it. -/
def datetime? (cs : List Char) : Option (List Char) :=
  match date? cs with
  | some r =>
    match r with
    | c :: t =>
      if c == 'T' || c == 't' || (c == ' ' && (time? t).isSome) then
        match time? t with
        | some r' => offset r'
        | none => none
      else some r
    | [] => some r
  | none => time? cs

/-- A scalar that is not a string: a boolean, a date or time, or a number. -/
def scalar : Scan Node := fun cs =>
  match datetime? cs with
  | some rest => .ok (.datetime (String.ofList (cs.take (cs.length - rest.length))), rest)
  | none =>
    let t := cs.takeWhile isNumberChar
    let rest := cs.drop t.length
    if t == ['t', 'r', 'u', 'e'] then .ok (.boolean true, rest)
    else if t == ['f', 'a', 'l', 's', 'e'] then .ok (.boolean false, rest)
    else if t.isEmpty then tomlFail "expected a value"
    else do
      let v ← numberOf t
      return (v, rest)

end Toml

end StepperDrive
