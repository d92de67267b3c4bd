import AuroraLint.CommandLine.Run

/-!
# The program

Runs the command line on the system's own files. Programs are not started from here: a request to
run one is refused as not implemented.
-/

set_option autoImplicit false

namespace AuroraLint.Main

/-- The refusal behind an exception of the system. -/
def refusal (e : IO.Error) : OsError :=
  match e with
  | .noFileOrDirectory .. => .notFound
  | .permissionDenied .. => .permissionDenied
  | .inappropriateType .. => .isADirectory
  | _ => .notFound

/-- The text of a file. -/
def readText (path : String) : IO (Except OsError String) := do
  try
    match String.fromUTF8? (← IO.FS.readBinFile path) with
    | some text => return .ok text
    | none => return .error .invalidText
  catch e => return .error (refusal e)

/-- A path leads to a file that can be read. -/
def isFile (path : String) : IO Bool := do
  try
    let _ ← IO.FS.readBinFile path
    return true
  catch _ => return false

/-- The absolute path of what a path leads to. -/
def canonical (path : String) : IO (Option String) := do
  try
    return some (← IO.FS.realPath path).toString
  catch _ => return none

/-- The system that the program runs on. -/
def host : Host IO where
  readText := readText
  isFile := isFile
  canonical := canonical
  run := fun _ => return .error .notImplemented

/-- Shows one event. -/
def display : Event → IO Unit
  | .output text => IO.print text
  | .message text => IO.eprint text
  | .diagnostic d => IO.eprintln d.render

end AuroraLint.Main

/-- Runs the command line and shows what it has to say. -/
def main (args : List String) : IO UInt32 := do
  let result ← AuroraLint.CommandLine.run AuroraLint.Main.host args
  result.events.forM AuroraLint.Main.display
  return result.code.toUInt32
