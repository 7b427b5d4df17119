import StepperDrive.Toml.Lexeme
/-!
# Reading a TOML document

A document is read line by line. A line is blank, a comment, a table header `[key]`, an
array-of-tables header `[[key]]`, or a key-value pair `key = value`. Values are scalars,
strings, arrays (which may span lines and end with a comma) and inline tables (one line, no
trailing comma).

Key-value pairs go into the table being defined by the last header, which is kept apart from
the document until the next header closes it (`Reader.close`). A header first closes the
table before it, then takes over an implicit table of that name if one exists; any other entry
of that name makes the header a second definition. The result is the document's root table.

The readers nest for arrays and inline tables; each nested read consumes input, so the
length of the input bounds the nesting and is passed down as fuel.
-/

namespace StepperDrive

set_option autoImplicit false

namespace Toml

mutual

/-- A value starting here, inside `depth` arrays and inline tables. Opening one more makes
the depth `depth + 1`, which must stay below `nestingLimit`. -/
def value : Nat → Nat → Scan Node
  | 0, _, _ => tomlFail "value nested too deeply"
  | fuel + 1, depth, cs =>
    match cs with
    | '"' :: _ | '\'' :: _ => do
      let (s, rest) ← string cs
      return (.string s, rest)
    | '[' :: r =>
      if nestingLimit ≤ depth + 1 then tomlFail "value nested too deeply"
      else arrayItems fuel (depth + 1) [] r
    | '{' :: r =>
      if nestingLimit ≤ depth + 1 then tomlFail "value nested too deeply"
      else inlineTable fuel (depth + 1) [] true r
    | _ => scalar cs

/-- The items of an array at depth `depth` after its opening bracket or after a comma; `acc`
holds the items so far, last first. -/
def arrayItems : Nat → Nat → List Node → Scan Node
  | 0, _, _, _ => tomlFail "array nested too deeply"
  | fuel + 1, depth, acc, cs => do
    let ((), cs) ← skipLayout cs.length cs
    match cs with
    | ']' :: r => return (.array acc.reverse, r)
    | _ => do
      let (v, cs) ← value fuel depth cs
      let ((), cs) ← skipLayout cs.length cs
      match cs with
      | ',' :: r => arrayItems fuel depth (v :: acc) r
      | ']' :: r => return (.array (v :: acc).reverse, r)
      | _ => tomlFail "expected a comma or the end of the array"

/-- The entries of an inline table at depth `depth` after its opening brace or after a comma;
`first` says no entry was read yet, when the table may still close at once. -/
def inlineTable : Nat → Nat → Entries → Bool → Scan Node
  | 0, _, _, _, _ => tomlFail "inline table nested too deeply"
  | fuel + 1, depth, es, first, cs =>
    match skipBlanks cs with
    | '}' :: r => if first then return (.table .inline es, r) else tomlFail "trailing comma"
    | cs => do
      let (path, cs) ← key cs
      let cs := skipBlanks cs
      match cs with
      | '=' :: r => do
        let (v, r) ← value fuel depth (skipBlanks r)
        let (es, ()) ← inlineInsert es path v
        match skipBlanks r with
        | ',' :: r => inlineTable fuel depth es false r
        | '}' :: r => return (.table .inline es, r)
        | _ => tomlFail "expected a comma or the end of the inline table"
      | _ => tomlFail "expected ="

/-- Puts a value at a dotted key inside an inline table. -/
def inlineInsert (es : Entries) (path : List String) (v : Node) : TomlResult (Entries × Unit) :=
  match path.reverse with
  | [] => tomlFail "empty key"
  | last :: parents =>
    Entries.descendInline (fun es => do return (← Entries.insertNew es last v, ())) parents.reverse es

end

/-- The state of reading a document: the root table, the table being defined and its path,
and whether that table is an element of an array of tables. -/
structure Reader where
  /-- The document's root table. -/
  root : Entries
  /-- The entries of the table being defined. -/
  current : Entries
  /-- Where the table being defined goes; empty for the root's own entries. -/
  path : List String
  /-- Whether the table being defined is a new element of an array of tables. -/
  isArray : Bool

namespace Reader

/-- Before the first header. -/
def start : Reader := ⟨[], [], [], false⟩

/-- The parent path and last key of a non-empty path. -/
def splitLast (path : List String) : Option (List String × String) :=
  match path.reverse with
  | [] => none
  | last :: parents => some (parents.reverse, last)

/-- Puts the table being defined into the document. -/
def close (r : Reader) : TomlResult Entries :=
  match splitLast r.path with
  | none => .ok r.current
  | some (parents, last) => do
    let (root, ()) ← Entries.descend false (fun _ es =>
      if r.isArray then
        match es.get? last with
        | none => .ok (es.put last (.tables [r.current]), ())
        | some (.tables items) => .ok (es.put last (.tables (items ++ [r.current])), ())
        | some _ => tomlFail ("duplicate key: " ++ last)
      else
        match es.get? last with
        | none => .ok (es.put last (.table .header r.current), ())
        | some (.table .implicit _) => .ok (es.put last (.table .header r.current), ())
        | some _ => tomlFail ("duplicate key: " ++ last)) parents .header r.root
    return root

/-- Starts the table of a `[path]` header: an implicit table of that name is taken over,
anything else of that name is a second definition. -/
def tableHeader (r : Reader) (path : List String) : TomlResult Reader := do
  let root ← r.close
  match splitLast path with
  | none => tomlFail "empty header"
  | some (parents, last) => do
    let (root, current) ← Entries.descend false (fun _ es =>
      match es.get? last with
      | none => .ok (es, [])
      | some (.table .implicit sub) => .ok (es.erase last, sub)
      | some _ => tomlFail ("duplicate key: " ++ last)) parents .header root
    return ⟨root, current, path, false⟩

/-- Starts a new element of the array of tables of a `[[path]]` header. -/
def arrayHeader (r : Reader) (path : List String) : TomlResult Reader := do
  let root ← r.close
  match splitLast path with
  | none => tomlFail "empty header"
  | some (parents, last) => do
    let (root, ()) ← Entries.descend false (fun _ es =>
      match es.get? last with
      | none => .ok (es.put last (.tables []), ())
      | some (.tables _) => .ok (es, ())
      | some _ => tomlFail ("duplicate key: " ++ last)) parents .header root
    return ⟨root, [], path, true⟩

/-- Adds a key-value pair to the table being defined. A dotted key may only end in a table its
own dotted keys created. -/
def keyValue (r : Reader) (path : List String) (v : Node) : TomlResult Reader :=
  match splitLast path with
  | none => tomlFail "empty key"
  | some (parents, last) => do
    let (current, ()) ← Entries.descend true (fun kind es =>
      if (kind == .dotted) != !parents.isEmpty then tomlFail ("duplicate key: " ++ last)
      else do return (← Entries.insertNew es last v, ())) parents .header r.current
    return { r with current := current }

end Reader

/-- Reads lines until the end of the text, at most `fuel` of them. -/
def lines : Nat → Reader → List Char → TomlResult Reader
  | 0, r, _ => .ok r
  | fuel + 1, r, cs =>
    let cs := skipBlanks cs
    match cs with
    | [] => .ok r
    | '\n' :: rest => lines fuel r rest
    | '\r' :: '\n' :: rest => lines fuel r rest
    | '#' :: _ => do
      let ((), rest) ← lineEnd cs
      lines fuel r rest
    | '[' :: '[' :: rest => do
      let (path, rest) ← key rest
      match skipBlanks rest with
      | ']' :: ']' :: rest => do
        let ((), rest) ← lineEnd rest
        lines fuel (← r.arrayHeader path) rest
      | _ => tomlFail "expected ]]"
    | '[' :: rest => do
      let (path, rest) ← key rest
      match skipBlanks rest with
      | ']' :: rest => do
        let ((), rest) ← lineEnd rest
        lines fuel (← r.tableHeader path) rest
      | _ => tomlFail "expected ]"
    | _ => do
      let (path, rest) ← key cs
      match skipBlanks rest with
      | '=' :: rest => do
        let (v, rest) ← value rest.length 0 (skipBlanks rest)
        let ((), rest) ← lineEnd rest
        lines fuel (← r.keyValue path v) rest
      | _ => tomlFail "expected ="

/-- The text of a document after the byte-order mark that may open it. -/
def body (text : String) : List Char :=
  match text.toList with
  | '\uFEFF' :: cs => cs
  | cs => cs

/-- The root table of a TOML document; a byte-order mark at its start is not part of it. -/
def parse (text : String) : TomlResult Entries := do
  let cs := body text
  let r ← lines (cs.length + 1) Reader.start cs
  r.close

end Toml

end StepperDrive
