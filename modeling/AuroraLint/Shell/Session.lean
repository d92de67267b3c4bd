import AuroraLint.Shell.Grammar
import AuroraLint.Shell.Numeral
import AuroraLint.Shell.World

/-!
# A shell at work

* `Shell.Session`    : what a shell remembers: its arguments, variables, functions and options.
* `Shell.Exec`       : an act of a shell in its world, which can be broken off.
* `Shell.Exec.fail`  : breaks off with a complaint.
* `Shell.Exec.set`   : gives a variable a value.
* `Shell.Exec.sub`   : an act that changes nothing of the shell.

Part of the host of recorded runs (`Workspace.host`); no result is about it.
-/

set_option autoImplicit false

namespace AuroraLint.Shell

/-- A variable. It can have been declared without a value. -/
structure Variable where
  value : Option Bytes
  exported : Bool := false
  readOnly : Bool := false
  deriving DecidableEq, Repr

/-- A function: the line that it was defined on, and its body. -/
structure Function where
  line : Nat
  body : Command

/-- What is restored when a command ends. -/
inductive Saved where
  | binding (name : Bytes) (v : Option Variable)
  | options (letters : List Char)
  deriving DecidableEq, Repr

/-- What a shell remembers. -/
structure Session where
  /-- The name of the script. -/
  name : Bytes
  args : List Bytes := []
  bindings : List (Bytes × Variable) := []
  functions : List (Bytes × Function) := []
  aliases : List (Bytes × Bytes) := []
  /-- The letters of the options that are on. -/
  options : List Char := []
  /-- The result of the last command. -/
  status : Nat := 0
  /-- The result of the last command whose output was taken in the command at hand. -/
  innerStatus : Nat := 0
  /-- The line of the command at hand. -/
  line : Nat := 0
  /-- The line up to which the script has been read. -/
  sourceLine : Nat := 1
  /-- The command of the shell at hand, for complaints. -/
  command : Option Bytes := none
  /-- How many loops are around the command at hand. -/
  loops : Nat := 0
  /-- How many functions are around the command at hand. -/
  calls : Nat := 0
  /-- What is to be restored when commands end, the innermost first. -/
  saved : List (List Saved) := []
  /-- The documents of commands, by their numbers. -/
  documents : List (Nat × Word) := []
  nextDocument : Nat := 0
  /-- The commands to be run on signals and at the end. -/
  traps : List (Bytes × Bytes) := []
  /-- The number of the shell. -/
  id : Nat := 1
  /-- The number of the last program that was left running. -/
  lastBackground : Option Nat := none
  /-- The argument that options are taken from next, and how much of it has been taken. -/
  optionIndex : Nat := 1
  optionOffset : Nat := 0
  /-- What the command at hand has printed, the latest first. -/
  printed : List Bytes := []
  /-- The result that a command on a signal or at the end started with. -/
  trapStatus : Option Nat := none
  /-- Signals that have come and wait for their commands. -/
  signals : List Bytes := []
  /-- The programs that have been found by their names, and their paths. -/
  found : List (Bytes × Bytes) := []
  /-- The programs that were left running, and their results. -/
  jobs : List (Nat × Nat) := []
  /-- The rights that new files do not get. -/
  mask : Nat := 18

/-- Why an act is broken off. -/
inductive Escape where
  /-- After a complaint. -/
  | failed
  /-- The shell ends. -/
  | exited
  /-- So many loops end. -/
  | left (count : Nat)
  /-- A loop goes on after so many ended. -/
  | continued (count : Nat)
  /-- A function or file of commands ends. -/
  | returned
  /-- A program is ended from outside. -/
  | killed (id signal : Nat)
  /-- The act takes too long. -/
  | exhausted
  deriving DecidableEq, Repr, Inhabited

/-- A shell and its world. -/
structure State where
  world : World
  session : Session

/-- An act of a shell in its world, which can be broken off. -/
abbrev Exec := EStateM Escape State

namespace Exec

/-! ## Basic acts -/

/-- An act that needs no shell. -/
def act {α : Type} (a : Act α) : Exec α :=
  modifyGet fun s =>
    let (x, world) := a.run s.world
    (x, { s with world })

/-- What the shell remembers. -/
def session : Exec Session := do
  return (← get).session

/-- Changes what the shell remembers. -/
def update (f : Session → Session) : Exec Unit :=
  modify fun s => { s with session := f s.session }

/-- The world of the shell. -/
def world : Exec World := do
  return (← get).world

/-- Changes the world of the shell. -/
def updateWorld (f : World → World) : Exec Unit :=
  modify fun s => { s with world := f s.world }

/-- The result of the last command becomes `n`. -/
def setStatus (n : Nat) : Exec Unit :=
  update fun s => { s with status := n }

/-- An option is on. -/
def hasOption (letter : Char) : Exec Bool := do
  return (← session).options.contains letter

/-- Runs an act, and then another whether or not the first was broken off. -/
def thenAlways {α : Type} (a : Exec α) (after : Exec Unit) : Exec α := fun s =>
  match a s with
  | .ok x s =>
    match after s with
    | .ok _ s => .ok x s
    | .error e s => .error e s
  | .error e s =>
    match after s with
    | .ok _ s => .error e s
    | .error e s => .error e s

/-- The result of an act, or why it was broken off. -/
def attempt {α : Type} (a : Exec α) : Exec (Except Escape α) := fun s =>
  match a s with
  | .ok x s => .ok (.ok x) s
  | .error e s => .ok (.error e) s

/-! ## Complaints -/

/-- The start of a complaint: the script, the line and the command. -/
def heading (s : Session) : Bytes :=
  let command := s.command.elim [] (· ++ [':', ' '])
  s.name ++ [':', ' '] ++ Bytes.ofNat s.line ++ [':', ' '] ++ command

/-- Complains. -/
def complain (text : Bytes) : Exec Unit := do
  let _ ← act (Act.write 2 (heading (← session) ++ text ++ ['\n']))

/-- Breaks off with a complaint. -/
def fail {α : Type} (text : Bytes) : Exec α := do
  complain text
  setStatus 2
  throw .failed

/-- Breaks off with a complaint about something. -/
def failOn {α : Type} (subject : Bytes) (text : String) : Exec α :=
  fail (subject ++ (": " ++ text).toList)

/-! ## Printing -/

/-- Prints when the command at hand ends. -/
def say (text : Bytes) : Exec Unit :=
  update fun s => { s with printed := text :: s.printed }

/-- Prints a line when the command at hand ends. -/
def sayLine (text : Bytes) : Exec Unit :=
  say (text ++ ['\n'])

/-- Prints what the command at hand has to print; says whether it could. -/
def flush : Exec Bool := do
  let text := (← session).printed.reverse.flatten
  update fun s => { s with printed := [] }
  act (Act.write 1 text)

/-! ## Variables -/

/-- The variable of a name. -/
def find? (name : Bytes) : Exec (Option Variable) := do
  return (← session).bindings.lookup name

/-- The value of a variable. -/
def value? (name : Bytes) : Exec (Option Bytes) := do
  return (← find? name).bind (·.value)

/-- A variable is as given, or not there. -/
def put (name : Bytes) (v : Option Variable) : Exec Unit :=
  update fun s =>
    let others := s.bindings.filter (·.1 != name)
    { s with
      bindings := match v with
        | some v => (name, v) :: others
        | none => others }

/-- A whole number that is not negative and has at most 31 bits. -/
def number? (text : Bytes) : Option Nat :=
  let (negative, ds) := Numeral.sign text
  let digits := ds.takeWhile Char.isDigit
  let n := Numeral.value 10 digits
  if digits.isEmpty || !(ds.dropWhile Char.isDigit).all Numeral.isBlank then none
  else if 2147483647 < n || (negative && n != 0) then none
  else some n

/-- A number of an argument; anything else is complained about. -/
def number (text : Bytes) : Exec Nat := do
  match number? text with
  | some n => return n
  | none => fail ("Illegal number: ".toList ++ text)

/-- Gives a variable a value. -/
def set (name value : Bytes) (exports : Bool := false) : Exec Unit := do
  if !isName name then failOn name "bad variable name"
  let old := (← find? name).getD { value := none }
  if old.readOnly then failOn name "is read only"
  let exported := old.exported || exports || (← hasOption 'a')
  put name (some { old with value := some value, exported })
  if name = "OPTIND".toList then
    let index ← number value
    update fun s => { s with optionIndex := max index 1, optionOffset := 0 }

/-- Removes a variable. -/
def unset (name : Bytes) : Exec Unit := do
  let old := (← find? name).getD { value := none }
  if old.readOnly then failOn name "is read only"
  put name none

/-- Something is restored when the innermost command ends that restores anything. -/
def remember (x : Saved) : Exec Unit :=
  update fun s =>
    { s with
      saved := match s.saved with
        | frame :: frames => (x :: frame) :: frames
        | [] => [] }

/-- A variable is restored when the innermost command ends that restores anything. -/
def save (name : Bytes) : Exec Unit := do
  remember (.binding name (← find? name))

/-- The options are restored when the innermost command ends that restores anything. -/
def saveOptions : Exec Unit := do
  remember (.options (← session).options)

/-- Restores something. -/
def restore : Saved → Exec Unit
  | .binding name v => put name v
  | .options letters => update fun s => { s with options := letters }

/-- Runs an act, and restores what was saved in it. -/
def restoring {α : Type} (a : Exec α) : Exec α := do
  update fun s => { s with saved := [] :: s.saved }
  thenAlways a do
    ((← session).saved.head?.getD []).forM restore
    update fun s => { s with saved := s.saved.tail }

/-- The variables that programs get. -/
def environment : Exec (List (Bytes × Bytes)) := do
  return (← session).bindings.reverse.filterMap fun (name, v) =>
    if v.exported then v.value.map (name, ·) else none

/-! ## Parts of a shell -/

/-- Runs an act in which descriptors change, and restores them. -/
def keepingDescriptors {α : Type} (a : Exec α) : Exec α := do
  let ds := (← world).descriptors
  thenAlways a (updateWorld fun w => { w with descriptors := ds })

/-- Runs an act that changes nothing of the shell, only files and channels. -/
def isolated {α : Type} (a : Exec α) : Exec α := do
  let s ← get
  thenAlways a do
    modify fun t =>
      { session := s.session
        world :=
          { t.world with
            directory := s.world.directory, descriptors := s.world.descriptors, id := s.world.id } }

end Exec

end AuroraLint.Shell
