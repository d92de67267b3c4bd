import AuroraLint.Shell.World

/-!
# What is run

A file that starts with `#!` is run by the program that its first line names.

* `Shell.interpreter?` : the program that the first line of a script names.
* `Shell.World.image`  : the program of the system that stands behind a path.

Part of the host of recorded runs (`Workspace.host`); no result is about it.
-/

set_option autoImplicit false

namespace AuroraLint.Shell

/-! ## First lines -/

/-- A blank or tab. -/
def isGap (c : Char) : Bool :=
  c == ' ' || c == '\t'

/-- The most bytes that the first line of a script has with its line end; of a longer one, the last
byte is not looked at. -/
def maxMarkBytes : Nat := 256

/-- A line end or the character that ends names. -/
def isEnd (c : Char) : Bool :=
  c == '\n' || c == '\x00'

/-- The interpreter that the first line of a script names, and the one argument that may follow it;
`none` if the line is blank, or too long to show the whole name. A blank line without a line end
names an empty interpreter. -/
def interpreter? (text : Bytes) : Option (Bytes × Option Bytes) :=
  let whole := (text.take maxMarkBytes).find? isEnd = some '\n'
  let start := text.take (if whole then maxMarkBytes else maxMarkBytes - 1)
  let line := (start.drop 2).takeWhile fun c => !isEnd c
  let name := (line.dropWhile isGap).takeWhile fun c => !isGap c
  let behind := (line.dropWhile isGap).dropWhile fun c => !isGap c
  let argument := ((behind.dropWhile isGap).reverse.dropWhile isGap).reverse
  let complete := start.any isEnd || start.length = text.length || !behind.isEmpty
  if !complete || (name.isEmpty && whole) then none
  else some (name, if argument.isEmpty then none else some argument)

/-! ## Images -/

/-- A program of the system, and what it is run with. -/
structure Image where
  program : String
  /-- The name that it was called by. -/
  called : Bytes
  args : List Bytes
  deriving DecidableEq, Repr

/-- The most interpreters that stand one behind the other. -/
def maxInterpreters : Nat := 5

namespace World

/-- What stands at a path is run under the name `called`. A script is handed to the interpreter that
it names, which may be a script again, `fuel` times at most. An empty name stands for the working
directory, which cannot be run. -/
def imageWithin (w : World) (path called : Bytes) (args : List Bytes) (fuel : Nat) :
    Except OsError Image :=
  match w.locate path with
  | .error e => .error e
  | .ok (_, .directory) => .error .permissionDenied
  | .ok (_, .device _) => .error .permissionDenied
  | .ok (_, .program name) => .ok ⟨name, called, args⟩
  | .ok (_, .file contents executable) =>
    if !executable then .error .permissionDenied
    else if !Workspace.isScript contents then .error .badFormat
    else
      match fuel, interpreter? contents with
      | _, none => .error .badFormat
      | 0, some _ => .error .tooManyLevels
      | fuel + 1, some (name, argument) =>
        let name := if name.isEmpty then ['.'] else name
        w.imageWithin name name (argument.toList ++ path :: args) fuel

/-- The program of the system that stands behind a path, under the name `called`. -/
def image (w : World) (path called : Bytes) (args : List Bytes) : Except OsError Image :=
  w.imageWithin path called args maxInterpreters

end World

end AuroraLint.Shell
