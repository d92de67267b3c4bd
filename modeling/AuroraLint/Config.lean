import AuroraLint.Path
import AuroraLint.Text.Blank
import AuroraLint.Toml.Document

/-!
# Configuration

The settings of a project, read from the file `Aurora.toml` at its root.

* `Config`                   : the settings.
* `Config.parse`             : the settings in the text of the file.
* `Config.resolvedBuildPath` : the build directory with the placeholder for the root filled in.
-/

set_option autoImplicit false

namespace AuroraLint

/-- The settings of the project at `root`. -/
structure Config where
  /-- The compiler to run; the default name means that it is looked for. -/
  compilerPath : String
  /-- The directory of a local build of the compiler. -/
  buildPath : String
  /-- Whether hints on style are given. -/
  styleHints : Bool
  root : String
  deriving DecidableEq, Repr, Inhabited

/-- Why there are no settings. -/
inductive ConfigError where
  /-- No file was found on the way up from a directory. -/
  | notFound (directory : String)
  /-- The file could not be read. -/
  | unreadable (reason : String)
  /-- The file is not well formed, or a setting has the wrong type. -/
  | malformed
  /-- The compiler's name is blank. -/
  | emptyCompilerPath
  deriving DecidableEq, Repr

/-- The text of an error. -/
def ConfigError.message : ConfigError → String
  | .notFound directory => s!"no Aurora.toml found (searched from {directory})"
  | .unreadable reason => s!"failed to read Aurora.toml: {reason}"
  | .malformed => "invalid Aurora.toml: malformed document"
  | .emptyCompilerPath => "invalid Aurora.toml: [compiler] path must not be empty"

namespace Config

/-- The name of the file with the settings. -/
def fileName : String := "Aurora.toml"

/-- What stands for the root of the project in the build path. -/
def placeholder : String := "$\x7bworkspaceFolder\x7d"

/-- The name of the compiler where none is set. -/
def defaultCompiler : String := "aurora"

/-- The build directory where none is set. -/
def defaultBuildPath : String := placeholder ++ "/build"

/-- The settings of a project without a file. -/
def defaults (root : String) : Config :=
  ⟨defaultCompiler, defaultBuildPath, true, root⟩

/-! ## Reading -/

/-- The settings of a section by name: the members of a table, or the items of an array in the
order of `names`. A date has no settings and none is missed; other values are no section. -/
def section? (names : List String) : Toml.Value → Option Toml.Members
  | .table _ ms => some ms
  | .inlineTable _ ms => some ms
  | .array items => some (names.zip items)
  | .tables (latest :: earlier) =>
    some (names.zip ((latest :: earlier).reverse.map (.table .explicit)))
  | .tables [] => some []
  | .datetime => some []
  | _ => none

/-- A setting that has to be a string. -/
def stringSetting (ms : Toml.Members) (name fallback : String) : Option String :=
  match ms.get? name with
  | none => some fallback
  | some (.string s) => some s
  | some _ => none

/-- A setting that has to be a truth value. -/
def boolSetting (ms : Toml.Members) (name : String) (fallback : Bool) : Option Bool :=
  match ms.get? name with
  | none => some fallback
  | some (.boolean b) => some b
  | some _ => none

/-- The section of a name, empty if the document has none. -/
def sectionOf (ms : Toml.Members) (name : String) (names : List String) : Option Toml.Members :=
  match ms.get? name with
  | none => some []
  | some v => section? names v

/-- The settings in a document, before the compiler's name is looked at. -/
def ofMembers? (root : String) (ms : Toml.Members) : Option Config := do
  let compiler ← sectionOf ms "compiler" ["path", "build_path"]
  let lint ← sectionOf ms "lint" ["style_hints"]
  return {
    compilerPath := ← stringSetting compiler "path" defaultCompiler
    buildPath := ← stringSetting compiler "build_path" defaultBuildPath
    styleHints := ← boolSetting lint "style_hints" true
    root }

/-- The settings in the text of a file that stands in the directory `root`. -/
def parse (root text : String) : Except ConfigError Config :=
  match (Toml.parse? text).bind (ofMembers? root) with
  | none => .error .malformed
  | some config =>
    if (Text.trim config.compilerPath.toList).isEmpty then .error .emptyCompilerPath
    else .ok config

/-! ## The build directory -/

/-- The text with every occurrence of `pattern` replaced, from left to right. The first `skip`
characters belong to an occurrence already replaced. -/
def replaceFrom (pattern replacement : List Char) (skip : Nat) : List Char → List Char
  | [] => []
  | c :: cs =>
    match skip with
    | skip + 1 => replaceFrom pattern replacement skip cs
    | 0 =>
      if pattern.isPrefixOf (c :: cs) then
        replacement ++ replaceFrom pattern replacement (pattern.length - 1) cs
      else c :: replaceFrom pattern replacement 0 cs

/-- The build directory with the placeholder replaced by the root of the project. -/
def resolvedBuildPath (c : Config) : String :=
  String.ofList (replaceFrom placeholder.toList c.root.toList 0 c.buildPath.toList)

end Config

end AuroraLint
