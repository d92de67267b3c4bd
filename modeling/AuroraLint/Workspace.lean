import AuroraLint.Host
import AuroraLint.Text.Bytes

/-!
# Workspaces

A tree of files held in memory, in place of a file system.

* `Workspace`         : directories and files by the parts of their absolute paths.
* `Workspace.locate`  : what a path leads to.
* `Workspace.addFile` : a file, with the directories above it.

Around its own files, a workspace has the directories, programs and devices of a small system
(`Workspace.system`). Names and contents are bytes.

Part of the host of recorded runs (`Workspace.host`); no result is about it.
-/

set_option autoImplicit false

namespace AuroraLint

/-- Something that is opened like a file. -/
inductive Device where
  /-- Keeps nothing and is always at its end. -/
  | null
  /-- Has room for nothing. -/
  | full
  /-- What a descriptor of the program goes to. -/
  | descriptor (number : Nat)
  deriving DecidableEq, Repr, Inhabited

/-- What a path can lead to. -/
inductive Node where
  | directory
  | file (contents : Bytes) (executable : Bool)
  /-- A program of the system, by its name. -/
  | program (name : String)
  | device (d : Device)
  deriving DecidableEq, Repr, Inhabited

/-- The parts of an absolute path. -/
abbrev Parts := List Bytes

/-- Directories and files by the parts of their absolute paths, and the working directory. -/
structure Workspace where
  nodes : List (Parts × Node) := []
  directory : Parts := []
  deriving DecidableEq, Repr, Inhabited

namespace Workspace

/-! ## The system around -/

/-- The directories that every system has. -/
def systemDirectories : List String :=
  ["/bin", "/dev", "/dev/fd", "/etc", "/home", "/lib", "/opt", "/proc", "/root", "/run", "/sbin",
   "/sys", "/tmp", "/usr", "/usr/bin", "/usr/lib", "/usr/local", "/usr/local/bin", "/usr/sbin",
   "/usr/share", "/var", "/var/tmp"]

/-- The programs that can be run by name. -/
def programNames : List String :=
  ["[", "basename", "bash", "cat", "chmod", "cp", "cut", "dash", "dirname", "echo", "env", "expr",
   "false", "head", "ls", "mkdir", "mv", "printenv", "printf", "pwd", "rev", "rm", "rmdir", "seq",
   "sh", "sleep", "sort", "tac", "tail", "tee", "test", "touch", "tr", "true", "uniq", "wc",
   "xargs"]

/-- The devices by their paths. -/
def devices : List (String × Device) :=
  [("/dev/null", .null), ("/dev/full", .full), ("/dev/stdin", .descriptor 0),
   ("/dev/stdout", .descriptor 1), ("/dev/stderr", .descriptor 2)] ++
  (List.range 10).map fun n => (s!"/dev/fd/{n}", .descriptor n)

/-- The directories, programs and devices around the files of a workspace. -/
def system : List (Parts × Node) :=
  systemDirectories.map (fun d => (Path.resolveAbsolute d, .directory)) ++
  ["/bin", "/usr/bin"].flatMap (fun d =>
    programNames.map fun name => (Path.resolveAbsolute (Path.join d name), .program name)) ++
  devices.map (fun (path, d) => (Path.resolveAbsolute path, .device d))

/-! ## Nodes -/

/-- What stands at the parts of an absolute path; the root is always there. -/
def node? (w : Workspace) (names : Parts) : Option Node :=
  if names.isEmpty then some .directory
  else w.nodes.lookup names <|> system.lookup names

/-- The names in a directory, in no order. -/
def children (w : Workspace) (names : Parts) : List Bytes :=
  let own := w.nodes.map (·.1)
  let others := (system.map (·.1)).filter fun path => !own.contains path
  (own ++ others).filterMap fun path =>
    if path.dropLast = names then path.getLast? else none

/-- The workspace with a node in the place of whatever was there. -/
def put (w : Workspace) (names : Parts) (node : Node) : Workspace :=
  { w with nodes := (names, node) :: w.nodes.filter (·.1 != names) }

/-- The workspace without a node and all below it. -/
def remove (w : Workspace) (names : Parts) : Workspace :=
  { w with nodes := w.nodes.filter fun (path, _) => !names.isPrefixOf path }

/-- The workspace with a directory and all directories above it. -/
def putDirectory (w : Workspace) (names : Parts) : Workspace :=
  let above := (List.range names.length).map fun n => (names.take (n + 1), Node.directory)
  { w with nodes := w.nodes ++ above.filter fun (path, _) => (w.nodes.lookup path).isNone }

/-- The parts of an absolute path. -/
def partsOf (path : String) : Parts :=
  (Path.resolveAbsolute path).map Bytes.ofChars

/-- A file can be run if it says what it is run by. -/
def isScript (contents : Bytes) : Bool :=
  ['#', '!'].isPrefixOf contents

/-- The workspace with a directory at an absolute path, and all directories above it. -/
def addDirectory (w : Workspace) (path : String) : Workspace :=
  w.putDirectory (partsOf path)

/-- The workspace with a file at an absolute path, and all directories above it. -/
def addFile (w : Workspace) (path text : String) : Workspace :=
  let names := partsOf path
  let contents := Bytes.ofText text
  (w.putDirectory names.dropLast).put names (.file contents (isScript contents))

/-! ## Paths -/

/-- The most bytes that a name in a directory has. -/
def maxNameBytes : Nat := 255

/-- The most bytes that a path has. -/
def maxPathBytes : Nat := 4095

/-- Follows the pieces of a path from a node, the parts behind it in reverse. Only a directory can
be gone through, and a path that ends in a slash or dot has to end at one. -/
def follow (w : Workspace) (behind : Parts) (node : Node) :
    List Bytes → Except OsError (Parts × Node)
  | [] => .ok (behind.reverse, node)
  | piece :: rest =>
    match node with
    | .directory =>
      if piece = [] ∨ piece = ['.'] then w.follow behind .directory rest
      else if piece = ['.', '.'] then w.follow behind.tail .directory rest
      else if maxNameBytes < piece.length then .error .nameTooLong
      else
        match w.node? (piece :: behind).reverse with
        | some node => w.follow (piece :: behind) node rest
        | none => .error .notFound
    | _ => .error .notADirectory

/-- What a path leads to, seen from a directory given by its parts. -/
def locate (w : Workspace) (directory : Parts) (path : Bytes) : Except OsError (Parts × Node) :=
  if path.isEmpty then .error .notFound
  else if maxPathBytes < path.length then .error .nameTooLong
  else
    let start := if path.head? = some '/' then [] else directory
    match w.node? start with
    | some node => w.follow start.reverse node (Path.pieces path)
    | none => .error .notFound

/-- What a path leads to, seen from the working directory. -/
def find (w : Workspace) (path : String) : Except OsError (Parts × Node) :=
  w.locate w.directory (Bytes.ofText path)

/-- The text of what a path leads to. A device has none, and a program is no text. -/
def readText (w : Workspace) (path : String) : Except OsError String :=
  match w.find path with
  | .ok (_, .file contents _) =>
    match contents.toText? with
    | some text => .ok text
    | none => .error .invalidText
  | .ok (_, .device _) => .ok ""
  | .ok (_, .program _) => .error .invalidText
  | .ok (_, .directory) => .error .isADirectory
  | .error e => .error e

/-- A path leads to a file. -/
def isFile (w : Workspace) (path : String) : Bool :=
  match w.find path with
  | .ok (_, .file _ _) => true
  | .ok (_, .program _) => true
  | _ => false

/-- The absolute path of parts. -/
def pathOf (names : Parts) : Bytes :=
  if names.isEmpty then ['/'] else names.flatMap ('/' :: ·)

/-- The absolute path of what a path leads to. -/
def canonical (w : Workspace) (path : String) : Option String :=
  match w.find path with
  | .ok (names, _) => some (pathOf names).toText
  | .error _ => none

end Workspace

end AuroraLint
