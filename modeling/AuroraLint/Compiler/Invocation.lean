import AuroraLint.Path
import AuroraLint.Text.Blank

/-!
# Running the compiler

* `Invocation`         : a program, its arguments and the directory it runs in.
* `Invocation.compile` : how the compiler is asked to compile a file.
* `Ending`             : how a program ended.
* `Outcome`            : what a program printed and how it ended.
-/

set_option autoImplicit false

namespace AuroraLint

/-- A program to run. -/
structure Invocation where
  program : String
  args : List String
  /-- The working directory of the program. -/
  directory : String
  deriving DecidableEq, Repr, Inhabited

namespace Invocation

/-- The directory a file stands in; the current one for a bare name. -/
def directoryOf (file : String) : String :=
  match Path.parent? file with
  | some p => if p.isEmpty then "." else p
  | none => "."

/-- Runs `program` on a file, from the directory of the file. -/
def compile (program : String) (args : List String) (file : String) : Invocation :=
  ⟨program, args ++ [file], directoryOf file⟩

/-- Asks for LLVM code in the file `out`. -/
def emitLlvm (program file out : String) : Invocation :=
  compile program ["--emit-llvm", "-o", out] file

/-- The file for LLVM code where none is named: the source file with another extension. -/
def llvmOutput (file : String) : String :=
  Path.withExtension file "ll"

end Invocation

/-- How a program ended. -/
inductive Ending where
  | exit (code : Nat)
  /-- The program was ended from outside. -/
  | signal (number : Nat)
  deriving DecidableEq, Repr, Inhabited

namespace Ending

/-- The names of signals, from the first on. -/
def signalNames : List String :=
  ["HUP", "INT", "QUIT", "ILL", "TRAP", "ABRT", "BUS", "FPE", "KILL", "USR1", "SEGV", "USR2", "PIPE",
   "ALRM", "TERM", "STKFLT", "CHLD", "CONT", "STOP", "TSTP", "TTIN", "TTOU", "URG", "XCPU", "XFSZ",
   "VTALRM", "PROF", "WINCH", "IO", "PWR", "SYS"]

/-- The text of how a program ended. -/
def render : Ending → String
  | .exit code => s!"exit status: {code}"
  | .signal number =>
    match signalNames[number - 1]? with
    | some name => s!"signal: {number} (SIG{name})"
    | none => s!"signal: {number}"

end Ending

/-- What a program printed, and how it ended. -/
structure Outcome where
  stdout : String
  stderr : String
  ending : Ending
  deriving DecidableEq, Repr, Inhabited

namespace Outcome

/-- The program succeeded. -/
def success (o : Outcome) : Bool :=
  o.ending == .exit 0

/-- The output that findings are looked for in: the error output, unless it is blank. -/
def diagnosticText (o : Outcome) : String :=
  if (Text.trim o.stderr.toList).isEmpty then o.stdout else o.stderr

end Outcome

end AuroraLint
