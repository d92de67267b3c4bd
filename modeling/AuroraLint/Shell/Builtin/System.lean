import AuroraLint.Shell.Builtin.Variables

/-!
# Commands on directories, programs and signals

`cd`, `type`, `hash`, `umask`, `trap`, `kill`, `wait` and their like.

Part of the host of recorded runs (`Workspace.host`); no result is about it.
-/

set_option autoImplicit false

namespace AuroraLint.Shell.Builtin

/-! ## Programs -/

/-- The directories in a variable, the working directory for an empty one. -/
def pathEntries (value : Bytes) : List Bytes :=
  Bytes.split (· == ':') value

/-- A name in a directory of a path variable. -/
def pathIn (directory name : Bytes) : Bytes :=
  if directory.isEmpty then name else directory ++ ['/'] ++ name

/-- A node is a file or a program. -/
def isRegular : Node → Bool
  | .file _ _ => true
  | .program _ => true
  | _ => false

/-- The path of the file of a name in the directories of `PATH`. -/
def search (name : Bytes) : Exec (Option Bytes) := do
  let w ← Exec.world
  let entries := pathEntries ((← Exec.value? "PATH".toList).getD [])
  return (entries.map (pathIn · name)).find? fun path =>
    match w.locate path with
    | .ok (_, node) => isRegular node
    | .error _ => false

/-- The path of the program of a name, which is remembered. -/
def lookUp (name : Bytes) : Exec (Option Bytes) := do
  match ← search name with
  | some path =>
    Exec.update fun s =>
      { s with found := s.found.filter (·.1 != name) ++ [(name, path)] }
    return some path
  | none => return none

/-- A path leads somewhere. -/
def leadsSomewhere (path : Bytes) : Exec Bool := do
  return ((← Exec.world).locate path).isOk

/-- Says what a name stands for as a command, in full or by one word. -/
def describe (verbose : Bool) (name : Bytes) : Exec Nat := do
  let s ← Exec.session
  let known := fun (text : String) => do
    Exec.sayLine (if verbose then name ++ text.toList else name)
    return 0
  if (Keyword.ofBytes? name).isSome then known " is a shell keyword"
  else
    match s.aliases.lookup name with
    | some text =>
      Exec.sayLine (if verbose then name ++ " is an alias for ".toList ++ text
        else "alias ".toList ++ aliasLine name text)
      return 0
    | none =>
      if (s.functions.lookup name).isSome then known " is a shell function"
      else if isSpecial name then known " is a special shell builtin"
      else if isKnown name then known " is a shell builtin"
      else
        let tracked := (s.found.lookup name).isSome
        let path ← if name.contains '/' then
            pure (if ← leadsSomewhere name then some name else none)
          else lookUp name
        match path with
        | some path =>
          let start := name ++ (if tracked then " is a tracked alias for " else " is ").toList
          Exec.sayLine (if verbose then start ++ path else path)
          return 0
        | none =>
          if verbose then Exec.sayLine (name ++ ": not found".toList)
          return 127

/-- The command `type`. -/
def typeCommand (args : List Bytes) : Exec Nat := do
  let results ← args.mapM (describe true)
  return if results.contains 127 then 127 else 0

/-- The command `hash`. -/
def hash (args : List Bytes) : Exec Nat := do
  let (found, names) ← letters "rv" args
  if found.contains 'r' then
    Exec.update fun s => { s with found := [] }
    return 0
  if names.isEmpty then
    (← Exec.session).found.forM fun (_, path) => Exec.sayLine path
    return 0
  let results ← names.mapM fun name => do
    if isKnown name || ((← Exec.session).functions.lookup name).isSome then return 0
    if (← lookUp name).isNone then
      Exec.complain (name ++ ": not found".toList)
      return 1
    return 0
  return if results.contains 1 then 1 else 0

/-! ## Directories -/

/-- The working directory becomes another one. -/
def enter (names : Parts) : Exec Unit := do
  let old := Workspace.pathOf (← Exec.world).directory
  Exec.updateWorld fun w => { w with directory := names }
  Exec.set "OLDPWD".toList old true
  Exec.set "PWD".toList (Workspace.pathOf names) true

/-- The directory that a path leads to. Parts are taken back without a look at what they lead to,
unless the path is followed as it is. -/
def directory? (physical : Bool) (path : Bytes) : Exec (Option Parts) := do
  let w ← Exec.world
  let start := if path.head? = some '/' then [] else w.directory
  let names := (Path.resolveFrom start.reverse (Path.pieces path)).reverse
  match if physical then w.locate path else w.locate (Workspace.pathOf names) with
  | .ok (names, .directory) => return some names
  | _ => return none

/-- A path that starts at the root or at a dot. -/
def isFixedPath (path : Bytes) : Bool :=
  path.head? = some '/' || [['.'], ['.', '.']].contains (path.takeWhile (· != '/'))

/-- The command `cd`. -/
def cd (args : List Bytes) : Exec Nat := do
  let (found, args) ← letters "LP" args
  let physical := found.getLast? = some 'P'
  let back := args.head? = some ['-']
  let target ← match args with
    | [] => pure ((← Exec.value? "HOME".toList).getD [])
    | arg :: _ =>
      if back then pure ((← Exec.value? "OLDPWD".toList).getD []) else pure arg
  let path := if target.isEmpty then ['.'] else target
  let path? ← Exec.value? "CDPATH".toList
  let entries := if isFixedPath target then [] else (path?.map pathEntries).getD []
  let candidates := entries.map (fun d => (pathIn d path, !d.isEmpty)) ++ [(path, false)]
  let places ← candidates.filterMapM fun (path, shown) => do
    return (← directory? physical path).map (·, shown)
  match places with
  | [] => Exec.fail ("can't cd to ".toList ++ target)
  | (names, shown) :: _ =>
    enter names
    if back || shown then Exec.sayLine (Workspace.pathOf names)
    return 0

/-- The rights of a mask as letters. -/
def maskLetters (mask : Nat) : Bytes :=
  let rights := fun (shift : Nat) =>
    let allowed := 7 - mask / shift % 8
    (if allowed / 4 % 2 = 1 then ['r'] else []) ++
    (if allowed / 2 % 2 = 1 then ['w'] else []) ++ if allowed % 2 = 1 then ['x'] else []
  "u=".toList ++ rights 64 ++ ",g=".toList ++ rights 8 ++ ",o=".toList ++ rights 1

/-- The command `umask`. -/
def umask (args : List Bytes) : Exec Nat := do
  let (found, args) ← letters "S" args
  let mask := (← Exec.session).mask
  match args with
  | [] =>
    if found.isEmpty then Exec.sayLine (Numeral.padded 8 4 mask)
    else Exec.sayLine (maskLetters mask)
  | arg :: _ =>
    if arg.head?.any Char.isDigit then
      if !arg.all (Numeral.isDigit 8) then Exec.fail ("Illegal number: ".toList ++ arg)
      Exec.update fun s => { s with mask := Numeral.value 8 arg % 512 }
    else Exec.fail ("Illegal mode: ".toList ++ arg)
  return 0

/-! ## Signals -/

/-- The names of signals in their order; the first stands for the end of the shell. -/
def signalNames : List String :=
  "EXIT" :: Ending.signalNames

/-- The number of a signal that is given by its number or name. -/
def signal? (text : Bytes) : Option Nat :=
  if !text.isEmpty && text.all Char.isDigit then
    let n := Numeral.value 10 text
    if n ≤ 64 then some n else none
  else
    let name := String.ofList (text.map Char.toUpper)
    let i := signalNames.findIdx (· == name)
    if i < signalNames.length then some i else none

/-- The name of a signal. -/
def signalName (n : Nat) : Bytes :=
  ((signalNames[n]?).map String.toList).getD (Bytes.ofNat n)

/-- The command `trap`. -/
def trap (args : List Bytes) : Exec Nat := do
  let (_, args) ← letters "" args
  let numbered := args.head?.any fun arg => !arg.isEmpty && arg.all Char.isDigit
  let (action, signals) := match args with
    | action :: signals =>
      if signals.isEmpty || numbered then (none, args)
      else (if action = ['-'] then none else some action, signals)
    | [] => (none, [])
  if args.isEmpty then
    let traps := (← Exec.session).traps
    (List.range 65).forM fun n => do
      match traps.lookup (signalName n) with
      | some text =>
        Exec.sayLine ("trap -- ".toList ++ singleQuoted text ++ [' '] ++ signalName n)
      | none => return ()
    return 0
  let rec install : List Bytes → Exec Nat
    | [] => return 0
    | text :: rest => do
      match signal? text with
      | none =>
        let _ ← Exec.act (Act.write 2 ("trap: ".toList ++ text ++ ": bad trap\n".toList))
        return 1
      | some n =>
        let name := signalName n
        Exec.update fun s =>
          let others := s.traps.filter (·.1 != name)
          { s with
            traps := match action with
              | some text => (name, text) :: others
              | none => others }
        install rest
  install signals

/-- Signals that do nothing to a program that does not look for them. -/
def isHarmless (n : Nat) : Bool :=
  [0, 17, 18, 23, 28].contains n

/-- A signal is sent to a shell or program. -/
def send (id n : Nat) : Exec Nat := do
  let s ← Exec.session
  let w ← Exec.world
  if w.nextId ≤ id then
    Exec.complain "No such process\n".toList
    return 1
  if n = 0 || (s.jobs.lookup id).isSome then return 0
  let action := if id = s.id && w.id = s.id then s.traps.lookup (signalName n) else none
  match action with
  | some text =>
    if n = 9 then throw (.killed id n)
    if !text.isEmpty then
      Exec.update fun s => { s with signals := s.signals ++ [signalName n] }
    return 0
  | none => if isHarmless n then return 0 else throw (.killed id n)

/-- How the command `kill` is used. -/
def killUsage : Bytes :=
  ("Usage: kill [-s sigspec | -signum | -sigspec] [pid | job]... or\n" ++
    "kill -l [exitstatus]").toList

/-- Lists signals by name, or the name of the signal of a number or result. -/
def listSignals (args : List Bytes) : Exec Nat := do
  match args with
  | [] =>
    Exec.sayLine ['0']
    Ending.signalNames.forM fun name => Exec.sayLine name.toList
    return 0
  | arg :: _ =>
    let n ← Exec.number arg
    let n := if 128 < n then n - 128 else n
    if 64 < n then Exec.fail ("invalid signal number or exit status: ".toList ++ arg)
    Exec.sayLine (signalName n)
    return 0

/-- The command `kill`. -/
def kill (args : List Bytes) : Exec Nat := do
  let sendAll := fun (n : Nat) (ids : List Bytes) => do
    if ids.isEmpty then Exec.fail killUsage
    let results ← ids.mapM fun id => do send (← Exec.number id) n
    return if results.contains 1 then 1 else 0
  match args with
  | ['-', 'l'] :: rest => listSignals rest
  | ['-', 's'] :: name :: rest =>
    match signal? name with
    | some n => sendAll n rest
    | none => Exec.fail ("invalid signal number or name: ".toList ++ name)
  | ['-', '-'] :: rest => sendAll 15 rest
  | ('-' :: c :: cs) :: rest =>
    match signal? (c :: cs) with
    | some n => sendAll n rest
    | none => Exec.fail ("Illegal option -".toList ++ [c])
  | args => sendAll 15 args

/-- The command `wait`. -/
def wait (args : List Bytes) : Exec Nat := do
  let (_, args) ← letters "" args
  let results ← args.mapM fun arg => do
    let id ← Exec.number arg
    return ((← Exec.session).jobs.lookup id).getD 127
  return results.getLast?.getD 0

/-- The command `times`, for a shell that takes no time. -/
def times : Exec Nat := do
  let line := "0m0.000000s 0m0.000000s".toList
  Exec.sayLine line
  Exec.sayLine line
  return 0

end AuroraLint.Shell.Builtin
