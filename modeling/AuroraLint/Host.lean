import AuroraLint.Compiler.Invocation
import AuroraLint.Config

/-!
# The host

What the command line asks of the system it runs on. The operations live in a monad of the caller's
choice, so that a run can be computed as well as performed.

* `OsError`         : why the system refused.
* `Host`            : reading files and running programs.
* `Host.findConfig` : the configuration file that is nearest to a directory.
* `Host.loadConfig` : the settings for a source file.
* `Host.compiler`   : the compiler that the settings mean.
-/

set_option autoImplicit false

namespace AuroraLint

/-- Why the system refused. -/
inductive OsError where
  | notFound
  | permissionDenied
  | alreadyExists
  | notADirectory
  | isADirectory
  | nameTooLong
  | notImplemented
  /-- A directory has something in it. -/
  | notEmpty
  | tooManyLevels
  /-- A program is in no form that can be run. -/
  | badFormat
  /-- The file is no text. -/
  | invalidText
  /-- A name holds the character that ends names. -/
  | embeddedNul
  deriving DecidableEq, Repr, Inhabited

/-- The reason of a refusal. -/
def OsError.reason : OsError → String
  | .notFound => "No such file or directory"
  | .permissionDenied => "Permission denied"
  | .alreadyExists => "File exists"
  | .notADirectory => "Not a directory"
  | .isADirectory => "Is a directory"
  | .nameTooLong => "File name too long"
  | .notImplemented => "Function not implemented"
  | .notEmpty => "Directory not empty"
  | .tooManyLevels => "Too many levels of symbolic links"
  | .badFormat => "Exec format error"
  | .invalidText => "stream did not contain valid UTF-8"
  | .embeddedNul => "nul byte found in provided data"

/-- The number of a refusal, if it comes from the system. -/
def OsError.number? : OsError → Option Nat
  | .notFound => some 2
  | .badFormat => some 8
  | .permissionDenied => some 13
  | .alreadyExists => some 17
  | .notADirectory => some 20
  | .isADirectory => some 21
  | .nameTooLong => some 36
  | .notImplemented => some 38
  | .notEmpty => some 39
  | .tooManyLevels => some 40
  | .invalidText => none
  | .embeddedNul => none

/-- The text of a refusal. -/
def OsError.message (e : OsError) : String :=
  match e.number? with
  | some n => s!"{e.reason} (os error {n})"
  | none => e.reason

/-- The system that the command line runs on. -/
structure Host (m : Type → Type) where
  /-- The text of a file. -/
  readText : String → m (Except OsError String)
  /-- A path leads to a file. -/
  isFile : String → m Bool
  /-- The absolute path of what a path leads to. -/
  canonical : String → m (Option String)
  /-- Runs a program to its end. -/
  run : Invocation → m (Except OsError Outcome)

namespace Path

/-- A path, its parent, the parent of that and so on, at most `fuel` of them. -/
def ancestorsFrom (path : String) : Nat → List String
  | 0 => [path]
  | fuel + 1 =>
    match parent? path with
    | some p => path :: ancestorsFrom p fuel
    | none => [path]

/-- A path and all paths above it, the nearest first. -/
def ancestors (path : String) : List String :=
  ancestorsFrom path (parts path).length

end Path

namespace Host

variable {m : Type → Type} [Monad m]

/-- The first path of a list that leads to a file. -/
def firstFile (host : Host m) : List String → m (Option String)
  | [] => pure none
  | path :: rest => do
    if ← host.isFile path then return some path
    else host.firstFile rest

/-- The configuration file in a directory or in the nearest one above it. -/
def findConfig (host : Host m) (directory : String) : m (Option String) :=
  host.firstFile ((Path.ancestors directory).map (Path.join · Config.fileName))

/-- The settings in a configuration file; its directory is the root of the project. -/
def readConfig (host : Host m) (path : String) : m (Except ConfigError Config) := do
  match ← host.readText path with
  | .error e => return .error (.unreadable e.message)
  | .ok text => return Config.parse ((Path.parent? path).getD ".") text

/-- The settings for a source file. -/
def loadConfig (host : Host m) (file : String) : m (Except ConfigError Config) := do
  let directory := (Path.parent? file).getD "."
  match ← host.findConfig directory with
  | none => return .error (.notFound directory)
  | some path => host.readConfig path

/-- The compiler that the settings mean. Where its name is left at the default, one in the build
directory is preferred. -/
def compiler (host : Host m) (config : Config) : m String := do
  let built := Path.join config.resolvedBuildPath config.compilerPath
  if config.compilerPath = Config.defaultCompiler then
    if ← host.isFile built then return built
    else return config.compilerPath
  else return config.compilerPath

end Host

end AuroraLint
