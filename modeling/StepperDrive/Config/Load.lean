import StepperDrive.Config.Validate
/-!
# Loading a configuration file

A configuration is loaded from a path in a file tree: the path is resolved as the operating
system resolves it, the file's text is read, and the text is parsed and validated
(`SystemConfig.parse`, with the reader of the documents). A path that cannot be read is an I/O error carrying the system's
text for the reason.

A path holding a NUL byte cannot be handed to the system at all; the empty path names
nothing, and a path of `pathMax` bytes or more is too long. Otherwise resolution walks the
path's `/`-separated components from the working directory, or from the top of the tree for
a path starting with `/`:

* an empty component and `.` stay where they are, and `..` goes up one level (staying at the
  top);
* a name of more than `nameMax` bytes is too long to look up;
* a name enters the entry of that name, and a missing one means the path does not exist;
* a component after a file means the path runs through something that is not a directory.

Each rule applies where the walk reaches it, so the first component that fails decides.

Reading what a path resolves to gives the text of a file and fails for a directory.
-/

namespace StepperDrive

set_option autoImplicit false

/-- Why a path could not be read. -/
inductive ReadFailure where
  /-- Nothing exists at the path. -/
  | notFound
  /-- A component of the path before the last is not a directory. -/
  | notDirectory
  /-- The path names a directory. -/
  | isDirectory
  /-- The path, or a name looked up on the way, is longer than the system allows. -/
  | nameTooLong
  /-- The path holds a NUL byte. -/
  | nulInName
  deriving DecidableEq, Repr

/-- The operating system's text for a failure, with its error number. -/
def ReadFailure.message : ReadFailure → String
  | .notFound => "No such file or directory (os error 2)"
  | .notDirectory => "Not a directory (os error 20)"
  | .isDirectory => "Is a directory (os error 21)"
  | .nameTooLong => "File name too long (os error 36)"
  | .nulInName => "file name contained an unexpected NUL byte"

/-- The longest name of one directory entry, in bytes. -/
def nameMax : Nat := 255

/-- The length in bytes from which a whole path is refused. -/
def pathMax : Nat := 4096

/-- A tree of files, holding text, and directories, holding named entries. -/
inductive FileTree where
  /-- A file and its text. -/
  | file (text : String)
  /-- A directory and its entries. -/
  | directory (entries : List (String × FileTree))
  deriving Repr

/-- A place in a file tree: the directory or file there and the directories above it,
nearest first. -/
structure FilePlace where
  /-- What is here. -/
  here : FileTree
  /-- The directories above, nearest first. -/
  above : List FileTree
  deriving Repr

namespace FilePlace

/-- The top of the tree this place is in. -/
def top (p : FilePlace) : FilePlace := ⟨p.above.getLastD p.here, []⟩

/-- The place reached by walking `components` from `p`. -/
def walk (p : FilePlace) : List String → Except ReadFailure FilePlace
  | [] => .ok p
  | c :: cs =>
    match p.here with
    | .file _ => .error .notDirectory
    | .directory entries =>
      if c = "" || c = "." then walk p cs
      else if c = ".." then
        match p.above with
        | [] => walk p cs
        | up :: rest => walk ⟨up, rest⟩ cs
      else if nameMax < c.utf8ByteSize then .error .nameTooLong
      else
        match entries.lookup c with
        | none => .error .notFound
        | some child => walk ⟨child, p.here :: p.above⟩ cs

/-- The place a path names, from the working directory `p`. -/
def resolve (p : FilePlace) (path : String) : Except ReadFailure FilePlace :=
  if path.contains '\x00' then .error .nulInName
  else if path.isEmpty then .error .notFound
  else if pathMax ≤ path.utf8ByteSize then .error .nameTooLong
  else if path.startsWith "/" then p.top.walk (path.splitOn "/")
  else p.walk (path.splitOn "/")

/-- The text of the file a path names, from the working directory `p`. -/
def read (p : FilePlace) (path : String) : Except ReadFailure String := do
  match (← p.resolve path).here with
  | .file text => .ok text
  | .directory _ => .error .isDirectory

end FilePlace

/-- The validated configuration in the file a path names, from the working directory `p`. -/
def SystemConfig.load (reader : ConfigReader) (p : FilePlace) (path : String) :
    Except ConfigError SystemConfig :=
  match p.read path with
  | .error e => .error (.ofIo e.message)
  | .ok text => SystemConfig.parse reader text

end StepperDrive
