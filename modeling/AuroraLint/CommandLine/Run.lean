import AuroraLint.Analysis
import AuroraLint.CommandLine.Listing
import AuroraLint.CommandLine.Options
import AuroraLint.Compiler.Finding
import AuroraLint.Host

/-!
# The command line

* `Event`           : something that is shown.
* `Run`             : what a run shows, in order, and its exit code.
* `CommandLine.run` : a run with some arguments on a host.
-/

set_option autoImplicit false

namespace AuroraLint

/-- Something that is shown. -/
inductive Event where
  /-- Text on the standard output. -/
  | output (text : String)
  /-- Text on the error output. -/
  | message (text : String)
  /-- A diagnostic, drawn on the error output. -/
  | diagnostic (d : Diagnostic)
  deriving DecidableEq, Repr

/-- What a run shows, in order, and its exit code. -/
structure Run where
  events : List Event
  code : Nat
  deriving DecidableEq, Repr

namespace CommandLine

/-- A line on the standard output. -/
def outputLine (text : String) : Event := .output (text ++ "\n")

/-- A line on the error output. -/
def messageLine (text : String) : Event := .message (text ++ "\n")

/-- The exit code of a success or failure. -/
def exitCode (ok : Bool) : Nat := if ok then 0 else 1

/-- A run that fails with one message. -/
def failure (text : String) : Run := ⟨[messageLine s!"error: {text}"], 1⟩

/-! ## Listings -/

/-- Lists the tokens of a document. -/
def listTokens (uri text : String) : Run :=
  ⟨(Document.ofText uri text).tokens.map fun t => outputLine (Listing.tokenLine t), 0⟩

/-- Lists the symbols of a document. -/
def listSymbols (uri text : String) : Run :=
  ⟨(Listing.symbolLines (symbolsOf uri text)).map outputLine, 0⟩

/-! ## The compiler -/

/-- The text of a compiler that could not be run. -/
def spawnError (program : String) (e : OsError) : String :=
  s!"failed to run compiler '{program}': {e.message}"

/-- Nothing but blanks. -/
def isBlankText (s : String) : Bool :=
  (Text.trim s.toList).isEmpty

/-- What is shown of a compiler's run for LLVM code: its output, its findings or else its error
output, and whether it succeeded. -/
def showCompilation (source : Source) (out : String) (o : Outcome) : Run :=
  let findings := compilerDiagnostics source o.diagnosticText
  let output := if isBlankText o.stdout then [] else [.output o.stdout]
  let errors := if findings.isEmpty && !isBlankText o.stderr then [.message o.stderr] else []
  let result :=
    if o.success then s!"LLVM IR written to {out}"
    else s!"error: compiler exited with {o.ending.render}"
  ⟨output ++ errors ++ findings.map .diagnostic ++ [messageLine result], exitCode o.success⟩

/-- The report with the findings of a compiler's run, or the error that it could not be run. -/
def addCompilation (source : Source) (program : String) (report : Report) :
    Except OsError Outcome → Report × List Event
  | .error e => (report, [messageLine s!"error: {spawnError program e}"])
  | .ok o =>
    ({ report with
        diagnostics := report.diagnostics ++ compilerDiagnostics source o.diagnosticText }, [])

/-! ## Reports -/

/-- What is shown of a report: one JSON document, or the diagnostics and a summary. -/
def showReport (json : Bool) (r : Report) : List Event :=
  if json then [outputLine r.toRecord.toJson.pretty]
  else r.diagnostics.map .diagnostic ++ [messageLine (Listing.summary r)]

/-- The report restricted to its errors, if only they are wanted. -/
def restrict (quiet : Bool) (r : Report) : Report :=
  if quiet then { r with diagnostics := r.diagnostics.filter Diagnostic.isError } else r

/-- The end of a check: the report is shown after the messages so far, which are all failures. -/
def finish (o : Options) (messages : List Event) (r : Report) : Run :=
  let r := restrict (o.has .quiet) r
  ⟨messages ++ showReport (o.has .json) r, exitCode (messages.isEmpty && !r.hasErrors)⟩

/-! ## The run -/

variable {m : Type → Type} [Monad m]

/-- Compiles a file to LLVM code. -/
def emitLlvm (host : Host m) (config : Config) (source : Source) (out : String) : m Run := do
  let file := source.name
  let start := messageLine s!"Emitting LLVM IR: {file} -> {out}"
  let program ← host.compiler config
  match ← host.run (.emitLlvm program file out) with
  | .error e => return ⟨[start, messageLine s!"error: {spawnError program e}"], 1⟩
  | .ok o =>
    let shown := showCompilation source out o
    return ⟨start :: shown.events, shown.code⟩

/-- Checks a file, with the compiler's findings if they are wanted. -/
def check (host : Host m) (config : Config) (source : Source) (o : Options) : m Run := do
  let report := analyze source.name source.text (config.styleHints && !o.has .noStyle)
  if o.has .compiler then
    let program ← host.compiler config
    let result ← host.run (.compile program [] source.name)
    let (report, messages) := addCompilation source program report result
    return finish o messages report
  else return finish o [] report

/-- The settings for a source file; those of a project without a file if there is none. -/
def settings (host : Host m) (file : String) : m (Except ConfigError Config) := do
  let path := (← host.canonical file).getD file
  match ← host.loadConfig path with
  | .error (.notFound _) => return .ok (.defaults ((Path.parent? path).getD "."))
  | result => return result

/-- A run on a file that could be read. -/
def runOn (host : Host m) (source : Source) (o : Options) : m Run := do
  if o.has .emitTokens then return listTokens source.name source.text
  else if o.has .emitSymbols then return listSymbols source.name source.text
  else
    match ← settings host source.name with
    | .error e => return failure e.message
    | .ok config =>
      if o.has .emitLlvm then
        emitLlvm host config source (o.output.getD (Invocation.llvmOutput source.name))
      else check host config source o

/-- The name and version of the program. -/
def version : String := "aurora-check 0.1.0"

/-- How the program is used. -/
def usage : String :=
  "AuroraLang diagnostics checker.\n\nUsage: aurora-check [OPTIONS] <INPUT>"

/-- A run with some arguments on a host. -/
def run (host : Host m) (args : List String) : m Run := do
  match Options.parse args with
  | .invalid => return ⟨[], 2⟩
  | .showVersion => return ⟨[outputLine version], 0⟩
  | .showHelp => return ⟨[outputLine usage], 0⟩
  | .run file o =>
    match ← host.readText file with
    | .error e => return failure s!"could not read '{file}': {e.message}"
    | .ok text => runOn host ⟨file, text⟩ o

end CommandLine

end AuroraLint
