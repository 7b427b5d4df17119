import StepperDrive.Binary.Format
/-!
# TOML documents as trees

A TOML document is a tree of tables. `Node` is one entry of a table: a scalar, an array, a
table, or an array of tables. Each table remembers how it came to be (`TableKind`), because
TOML forbids defining a table twice and the kind decides what counts as a second definition:

* a table named only as a parent in a header (`[a.b]` names `a`) is `implicit` and may later be
  defined by its own header;
* a table created by a dotted key (`a.b = 1` creates `a`) is `dotted`: more dotted keys may add
  to it, a header may not define it;
* a table defined by a header, and each element of an array of tables, is `header`: a second
  header or dotted keys may not define it again;
* an inline table `{ … }` is `inline` and closed; dotted keys inside one create
  `inlineDotted` tables, which later dotted keys of the same inline table may extend.

`Entries.descend` walks a key path down from a table, creating the missing tables, and applies
an update to the table at the end of the path. Every rule about what may be extended is in it.
-/

namespace StepperDrive

set_option autoImplicit false

/-- Why a document is not TOML, or not the expected shape. -/
structure TomlError where
  /-- What was wrong. -/
  message : String
  deriving DecidableEq, Repr

/-- How a table came to be. -/
inductive TableKind where
  /-- Named only as the parent of a header's table. -/
  | implicit
  /-- Created by a dotted key. -/
  | dotted
  /-- Defined by a header, or an element of an array of tables. -/
  | header
  /-- An inline table. -/
  | inline
  /-- Created by a dotted key inside an inline table. -/
  | inlineDotted
  deriving DecidableEq, Repr

/-- One entry of a TOML table. -/
inductive Node where
  | string (s : String)
  /-- An integer, within the signed 64-bit range. -/
  | integer (i : Int)
  /-- A float, read to double precision. -/
  | float (x : Binary Format.binary64)
  | boolean (b : Bool)
  /-- A date, a time or both, kept as text. -/
  | datetime (text : String)
  /-- An array value. -/
  | array (items : List Node)
  /-- A table, with its entries in the order they were defined. -/
  | table (kind : TableKind) (entries : List (String × Node))
  /-- An array of tables, each given by its entries. -/
  | tables (items : List (List (String × Node)))
  deriving Repr

/-- The entries of a table. -/
abbrev Entries := List (String × Node)

/-- A failure of TOML reading. -/
abbrev TomlResult (α : Type) := Except TomlError α

/-- Fails with a message. -/
def tomlFail {α : Type} (message : String) : TomlResult α := .error ⟨message⟩

namespace Entries

/-- The entry of a key. -/
def get? (es : Entries) (k : String) : Option Node := es.lookup k

/-- The entries with the entry of `k` replaced, or appended when there was none. -/
def put (es : Entries) (k : String) (v : Node) : Entries :=
  if (es.lookup k).isSome then es.map fun e => if e.1 = k then (k, v) else e else es ++ [(k, v)]

/-- The entries without the entry of `k`. -/
def erase (es : Entries) (k : String) : Entries := es.filter fun e => e.1 != k

/-- Walks `path` down from a table whose kind is `kind`, applies `f` to the kind and entries
of the table at its end, and puts the results back.

* `dotted` says the path is a dotted key: missing tables are created `dotted`, and a table
  defined by a header may not be entered. Otherwise missing tables are created `implicit`.
* In an array of tables the walk enters the last element.
* A value, an inline table, or an empty array of tables on the way is an error. -/
def descend {α : Type} (dotted : Bool) (f : TableKind → Entries → TomlResult (Entries × α)) :
    List String → TableKind → Entries → TomlResult (Entries × α)
  | [], kind, es => f kind es
  | k :: rest, _, es =>
    match es.get? k with
    | none => do
      let kind : TableKind := if dotted then .dotted else .implicit
      let (sub, a) ← descend dotted f rest kind []
      return (es.put k (.table kind sub), a)
    | some (.tables items) =>
      match items.getLast? with
      | none => tomlFail ("empty array of tables: " ++ k)
      | some last => do
        let (sub, a) ← descend dotted f rest .header last
        return (es.put k (.tables (items.dropLast ++ [sub])), a)
    | some (.table kind sub) =>
      match kind with
      | .inline | .inlineDotted => tomlFail ("an inline table cannot be extended: " ++ k)
      | .header => if dotted then tomlFail ("duplicate key: " ++ k) else do
          let (sub, a) ← descend dotted f rest kind sub
          return (es.put k (.table kind sub), a)
      | .implicit | .dotted => do
          let (sub, a) ← descend dotted f rest kind sub
          return (es.put k (.table kind sub), a)
    | some _ => tomlFail ("a value cannot be extended: " ++ k)

/-- Walks `path` down within an inline table: missing tables are created `inlineDotted`, and
only such tables may be entered. -/
def descendInline {α : Type} (f : Entries → TomlResult (Entries × α)) :
    List String → Entries → TomlResult (Entries × α)
  | [], es => f es
  | k :: rest, es =>
    match es.get? k with
    | none => do
      let (sub, a) ← descendInline f rest []
      return (es.put k (.table .inlineDotted sub), a)
    | some (.table .inlineDotted sub) => do
      let (sub, a) ← descendInline f rest sub
      return (es.put k (.table .inlineDotted sub), a)
    | some _ => tomlFail ("duplicate key: " ++ k)

/-- Adds a new key to a table; a key that is already there is an error. -/
def insertNew (es : Entries) (k : String) (v : Node) : TomlResult Entries :=
  if (es.get? k).isSome then tomlFail ("duplicate key: " ++ k) else .ok (es ++ [(k, v)])

end Entries

end StepperDrive
