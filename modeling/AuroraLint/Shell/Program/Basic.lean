import AuroraLint.Shell.World

/-!
# Programs of the system

* `Shell.Call`           : what a program is run with.
* `Shell.Finish`         : how a program ends.
* `Shell.Program.parse`  : the options and operands among arguments.
* `Shell.Program.inputs` : the contents of the files that operands name.

Part of the host of recorded runs (`Workspace.host`); no result is about it.
-/

set_option autoImplicit false

namespace AuroraLint.Shell

/-- What a program is run with. -/
structure Call where
  /-- The name that it was called by. -/
  name : Bytes
  args : List Bytes
  environment : List (Bytes × Bytes) := []
  deriving DecidableEq, Repr

/-- How a program ends: with a result, or by becoming another one. -/
inductive Finish where
  | exit (code : Nat)
  /-- The program becomes the one of a name; without one, it complains and ends. -/
  | become (name : Bytes) (args : List Bytes) (environment : List (Bytes × Bytes))
  /-- The program runs others, one after another. -/
  | each (name : Bytes) (argLists : List (List Bytes))
  deriving DecidableEq, Repr

namespace Program

/-! ## Output -/

/-- Prints. -/
def print (text : Bytes) : Act Unit := do
  let _ ← Act.write 1 text

/-- Prints lines. -/
def printLines (lines : List Bytes) : Act Unit :=
  print (lines.flatMap (· ++ ['\n']))

/-- Complains under the name of the program. -/
def complain (c : Call) (text : Bytes) : Act Unit := do
  let _ ← Act.write 2 (c.name ++ [':', ' '] ++ text ++ ['\n'])

/-- A text between quotes. -/
def quoted (text : Bytes) : Bytes :=
  ['\''] ++ text ++ ['\'']

/-- A file name in a message: between quotes, unless it is plain. -/
def shown (file : Bytes) : Bytes :=
  let isPlain := fun (c : Char) => c.isAlphanum || "_-./+,:@%".contains c
  if file.all isPlain && !file.isEmpty then file else quoted file

/-- The complaint about a file. -/
def complainAbout (c : Call) (file : Bytes) (e : OsError) : Act Unit :=
  complain c (shown file ++ ": ".toList ++ e.reason.toList)

/-- The hint at how a program is used. -/
def hint (c : Call) : Act Unit := do
  let text := "Try '".toList ++ c.name ++ " --help' for more information.\n".toList
  let _ ← Act.write 2 text

/-- Ends with a complaint and a hint. -/
def misuse (c : Call) (text : Bytes) (code : Nat := 1) : Act Finish := do
  complain c text
  hint c
  return .exit code

/-! ## Options -/

/-- An option that a program knows: its letter, its long name, and whether it takes an argument. -/
structure Known where
  letter : Char
  name : String := ""
  takes : Bool := false
  deriving DecidableEq, Repr

/-- An option that was given. -/
structure Given where
  letter : Char
  argument : Bytes := []
  deriving DecidableEq, Repr

/-- The options and operands among arguments. -/
structure Parsed where
  options : List Given := []
  operands : List Bytes := []
  deriving DecidableEq, Repr

namespace Parsed

/-- An option was given. -/
def has (p : Parsed) (letter : Char) : Bool :=
  p.options.any (·.letter == letter)

/-- The argument of an option that was given, the last one. -/
def argument? (p : Parsed) (letter : Char) : Option Bytes :=
  (p.options.reverse.find? (·.letter == letter)).map (·.argument)

end Parsed

/-- Letters behind a dash. An option that takes an argument takes the letters behind it, or else the
next argument. -/
def shortOptions (known : List Known) (next : List Bytes) :
    Bytes → Except Bytes (List Given × List Bytes)
  | [] => .ok ([], next)
  | c :: cs =>
    match known.find? (·.letter == c) with
    | none => .error ("invalid option -- ".toList ++ quoted [c])
    | some k =>
      if !k.takes then
        (shortOptions known next cs).map fun (given, rest) => (⟨c, []⟩ :: given, rest)
      else if !cs.isEmpty then .ok ([⟨c, cs⟩], next)
      else
        match next with
        | arg :: rest => .ok ([⟨c, arg⟩], rest)
        | [] => .error ("option requires an argument -- ".toList ++ quoted [c])

/-- An option by its long name, or by the start of it. -/
def longOption (known : List Known) (next : List Bytes) (text : Bytes) :
    Except Bytes (Given × List Bytes) :=
  let name := text.takeWhile (· != '=')
  let value? := if name.length < text.length then some (text.drop (name.length + 1)) else none
  let shownName := "--".toList ++ name
  let named := known.filter fun (k : Known) => k.name != ""
  let exact := named.find? fun (k : Known) => k.name.toList == name
  let found := match exact with
    | some k => some k
    | none =>
      match named.filter (fun (k : Known) => name.isPrefixOf k.name.toList) with
      | [k] => some k
      | _ => none
  match found, value? with
  | none, _ =>
    .error ("unrecognized option ".toList ++ quoted ("--".toList ++ text))
  | some k, none =>
    if !k.takes then .ok (⟨k.letter, []⟩, next)
    else
      match next with
      | arg :: rest => .ok (⟨k.letter, arg⟩, rest)
      | [] => .error ("option ".toList ++ quoted shownName ++ " requires an argument".toList)
  | some k, some value =>
    if k.takes then .ok (⟨k.letter, value⟩, next)
    else .error ("option ".toList ++ quoted ("--".toList ++ k.name.toList) ++
      " doesn't allow an argument".toList)

/-- The options and operands among arguments, at most `fuel`; an error is what is wrong with them.
Options can stand behind operands, unless the program takes its operands `inOrder`. -/
def parseWithin (known : List Known) (inOrder : Bool) :
    Nat → List Bytes → Except Bytes Parsed
  | 0, args => .ok { operands := args }
  | _ + 1, [] => .ok {}
  | fuel + 1, arg :: args =>
    match arg with
    | ['-', '-'] => .ok { operands := args }
    | '-' :: '-' :: text =>
      match longOption known args text with
      | .error e => .error e
      | .ok (given, rest) =>
        (parseWithin known inOrder fuel rest).map fun p => { p with options := given :: p.options }
    | '-' :: c :: cs =>
      match shortOptions known args (c :: cs) with
      | .error e => .error e
      | .ok (given, rest) =>
        (parseWithin known inOrder fuel rest).map fun p => { p with options := given ++ p.options }
    | arg =>
      if inOrder then .ok { operands := arg :: args }
      else
        (parseWithin known inOrder fuel args).map fun p => { p with operands := arg :: p.operands }

/-- The options and operands among arguments. -/
def parse (known : List Known) (inOrder : Bool) (args : List Bytes) : Except Bytes Parsed :=
  parseWithin known inOrder (args.length + 1) args

/-- Runs a program on its options and operands; what is wrong with them is complained about. -/
def withOptions (c : Call) (known : List Known) (inOrder : Bool) (body : Parsed → Act Finish) :
    Act Finish := do
  match parse known inOrder c.args with
  | .error text => misuse c text
  | .ok p => body p

/-! ## Input -/

/-- The contents of the file that an operand names; a dash names the input. Complains if there are
none. -/
def input (c : Call) (file : Bytes) : Act (Option Bytes) := do
  if file = ['-'] then
    match ← Act.readAll 0 with
    | .ok bytes => return some bytes
    | .error .isDirectory =>
      complain c "-: Is a directory".toList
      return none
    | .error .closed =>
      complain c "-: Bad file descriptor".toList
      return none
  else
    let w ← get
    match w.openPath file { reads := true } with
    | .error e =>
      complainAbout c file e
      return none
    | .ok (w', i) =>
      match w'.channels[i]? with
      | some (.directory _) =>
        complain c (shown file ++ ": Is a directory".toList)
        return none
      | some (.file path _ _ _ _) => return some (w'.contents path)
      | some (.supply rest) =>
        set (w'.setChannel i (.supply []))
        return some rest
      | _ => return some []

/-- The contents of the files that operands name, of the input without operands. -/
def inputs (c : Call) (files : List Bytes) : Act (List (Bytes × Option Bytes)) :=
  (if files.isEmpty then [['-']] else files).mapM fun file => do
    return (file, ← input c file)

/-- The contents of files one after another, and whether all could be read. -/
def allInput (c : Call) (files : List Bytes) : Act (Bytes × Bool) := do
  let results ← inputs c files
  return ((results.filterMap (·.2)).flatten, results.all (·.2.isSome))

/-- The result of a program that did all that it should. -/
def success (ok : Bool) : Finish :=
  .exit (if ok then 0 else 1)

end Program

end AuroraLint.Shell
