import AuroraLint.Shell.Program.Files
import AuroraLint.Shell.Program.Lines
import AuroraLint.Shell.Program.Printing
import AuroraLint.Shell.Program.Process

/-!
# The programs of the system

* `Shell.Program.run` : a program by its name.

Part of the host of recorded runs (`Workspace.host`); no result is about it.
-/

set_option autoImplicit false

namespace AuroraLint.Shell.Program

/-- A program by its name, other than a shell. -/
def run (program : String) (c : Call) : Act Finish :=
  match program with
  | "[" => test c true
  | "basename" => basename c
  | "cat" => cat c
  | "chmod" => chmod c
  | "cp" => cp c
  | "cut" => cut c
  | "dirname" => dirname c
  | "echo" => echo c
  | "env" => env c
  | "expr" => expr c
  | "false" => return .exit 1
  | "head" => partOf c Amount.front
  | "ls" => ls c
  | "mkdir" => mkdir c
  | "mv" => mv c
  | "printenv" => printenv c
  | "printf" => printf c
  | "pwd" => pwd c
  | "rev" => rev c
  | "rm" => rm c
  | "rmdir" => rmdir c
  | "seq" => seq c
  | "sleep" => sleep c
  | "sort" => sort c
  | "tac" => tac c
  | "tail" => partOf c Amount.back
  | "tee" => tee c
  | "test" => test c false
  | "touch" => touch c
  | "tr" => tr c
  | "uniq" => uniq c
  | "wc" => wc c
  | "xargs" => xargs c
  | _ => return .exit 0

end AuroraLint.Shell.Program
