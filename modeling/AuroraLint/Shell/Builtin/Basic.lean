import AuroraLint.Shell.Condition
import AuroraLint.Shell.Expansion
import AuroraLint.Shell.Printf

/-!
# Commands of the shell

* `Builtin.isKnown`   : a command that the shell carries out itself.
* `Builtin.isSpecial` : one whose faults end the shell.
* `Builtin.options`   : the options among arguments.

With the commands that only print: `echo`, `printf`, `pwd`, `true`, `false`, `test`.

Part of the host of recorded runs (`Workspace.host`); no result is about it.
-/

set_option autoImplicit false

namespace AuroraLint.Shell.Builtin

/-! ## Names -/

/-- The commands whose faults end the shell. -/
def specialNames : List String :=
  Grammar.specialNames

/-- The other commands that the shell carries out itself. -/
def regularNames : List String :=
  ["[", "alias", "bg", "cd", "chdir", "command", "echo", "false", "fg", "getopts", "hash", "jobs",
   "kill", "printf", "pwd", "read", "test", "true", "type", "ulimit", "umask", "unalias", "wait"]

/-- A command whose faults end the shell. -/
def isSpecial (name : Bytes) : Bool :=
  specialNames.contains (String.ofList name)

/-- A command that the shell carries out itself. -/
def isKnown (name : Bytes) : Bool :=
  isSpecial name || regularNames.contains (String.ofList name)

/-- Commands whose arguments set variables. -/
def declares (name : Bytes) : Bool :=
  ["export", "local", "readonly"].contains (String.ofList name)

/-! ## Arguments -/

/-- The options at the head of arguments: letters, some of which take an argument. At most `fuel`
letters are read. -/
def optionsWithin (known : List (Char × Bool)) :
    Nat → List Bytes → Exec (List (Char × Bytes) × List Bytes)
  | 0, args => return ([], args)
  | fuel + 1, args => do
    match args with
    | ('-' :: c :: cs) :: rest =>
      if c = '-' ∧ cs.isEmpty then return ([], rest)
      match known.lookup c with
      | none => Exec.fail ("Illegal option -".toList ++ [c])
      | some false =>
        let (more, rest) ← optionsWithin known fuel (if cs.isEmpty then rest else ('-' :: cs) :: rest)
        return ((c, []) :: more, rest)
      | some true =>
        match cs, rest with
        | [], [] => Exec.fail ("No arg for -".toList ++ [c] ++ " option".toList)
        | [], arg :: rest =>
          let (more, rest) ← optionsWithin known fuel rest
          return ((c, arg) :: more, rest)
        | cs, rest =>
          let (more, rest) ← optionsWithin known fuel rest
          return ((c, cs) :: more, rest)
    | args => return ([], args)

/-- The options at the head of arguments, and the arguments behind them. -/
def options (known : List (Char × Bool)) (args : List Bytes) :
    Exec (List (Char × Bytes) × List Bytes) :=
  optionsWithin known (args.flatten.length + args.length + 1) args

/-- The options at the head of arguments where none takes an argument. -/
def letters (known : String) (args : List Bytes) : Exec (List Char × List Bytes) := do
  let (found, rest) ← options (known.toList.map fun c => (c, false)) args
  return (found.map (·.1), rest)

/-- The text between single quotes, as a shell reads it. Single quotes in it stand between double
quotes. -/
def singleQuoted (text : Bytes) : Bytes :=
  let rec go (inside : Bool) : Bytes → Bytes
    | [] => if inside then ['\''] else ['"']
    | c :: cs =>
      if c = '\'' then if inside then '\'' :: '"' :: c :: go false cs else c :: go false cs
      else if inside then c :: go true cs else '"' :: '\'' :: c :: go true cs
  '\'' :: go true text

/-! ## Printing -/

/-- The command `echo`, which carries out escapes. -/
def echo (args : List Bytes) : Exec Nat := do
  let noNewline := args.head? = some ['-', 'n']
  let args := if noNewline then args.tail else args
  let (out, stop) := Printf.unescape 0 (List.intercalate [' '] args)
  Exec.say out
  if !(stop || noNewline) then Exec.say ['\n']
  return 0

/-- The command `printf`. -/
def printf (args : List Bytes) : Exec Nat := do
  let (_, args) ← letters "" args
  match args with
  | [] => Exec.fail "usage: printf format [arg ...]".toList
  | format :: args =>
    let printed := Printf.print format args
    printed.complaints.forM Exec.complain
    Exec.say printed.output
    if printed.failed then
      Exec.setStatus 2
      throw .failed
    return if printed.complaints.isEmpty then 0 else 1

/-- The command `pwd`. -/
def pwd (args : List Bytes) : Exec Nat := do
  let _ ← letters "LP" args
  Exec.sayLine (Workspace.pathOf (← Exec.world).directory)
  return 0

/-- The command `test`, and `[`, behind which a bracket comes last. -/
def test (bracket : Bool) (args : List Bytes) : Exec Nat := do
  if bracket && (args.getLast?.bind List.head?) != some ']' then Exec.fail "missing ]".toList
  match Condition.decide (← Exec.world) (if bracket then args.dropLast else args) with
  | .ok holds => return if holds then 0 else 1
  | .error f => Exec.fail f.message

end AuroraLint.Shell.Builtin
