import AuroraLint.Shell.Builtin.Basic

/-!
# Commands on variables, arguments and options

`export`, `readonly`, `local`, `unset`, `set`, `shift`, `read`, `getopts`, `alias` and `unalias`.

Part of the host of recorded runs (`Workspace.host`); no result is about it.
-/

set_option autoImplicit false

namespace AuroraLint.Shell.Builtin

/-! ## Declarations -/

/-- The name and the value of an argument that may set a variable. -/
def splitSetting (arg : Bytes) : Bytes × Option Bytes :=
  let name := arg.takeWhile (· != '=')
  (name, if name.length < arg.length then some (arg.drop (name.length + 1)) else none)

/-- The variables of a kind in the order of their names. -/
def sorted (isKind : Variable → Bool) : Exec (List (Bytes × Variable)) := do
  let found := (← Exec.session).bindings.filter fun (_, v) => isKind v
  return found.mergeSort fun a b => Bytes.precedes a.1 b.1

/-- Lists variables as commands that set them. -/
def list (command : String) (isKind : Variable → Bool) : Exec Unit := do
  (← sorted isKind).forM fun (name, v) =>
    let start := if command.isEmpty then [] else command.toList ++ [' ']
    let value := v.value.elim [] fun value => '=' :: singleQuoted value
    Exec.sayLine (start ++ name ++ value)

/-- The commands `export` and `readonly`: `mark` is what they make of a variable. -/
def declare (command : String) (isKind : Variable → Bool) (mark : Variable → Variable)
    (args : List Bytes) : Exec Nat := do
  let (found, names) ← letters "p" args
  if names.isEmpty || found.contains 'p' then list command isKind
  else
    names.forM fun arg => do
      let (name, value) := splitSetting arg
      match value with
      | some value => Exec.set name value
      | none => if !isName name then Exec.failOn name "bad variable name"
      let v := (← Exec.find? name).getD { value := none }
      Exec.put name (some (mark v))
  return 0

/-- The command `export`. -/
def exportCommand : List Bytes → Exec Nat :=
  declare "export" (·.exported) fun v => { v with exported := true }

/-- The command `readonly`. -/
def readonlyCommand : List Bytes → Exec Nat :=
  declare "readonly" (·.readOnly) fun v => { v with readOnly := true }

/-- The command `local`. -/
def localCommand (args : List Bytes) : Exec Nat := do
  if (← Exec.session).saved.isEmpty then Exec.fail "not in a function".toList
  args.forM fun arg => do
    let (name, value) := splitSetting arg
    if name = ['-'] then Exec.saveOptions
    else
      if !isName name then Exec.failOn name "bad variable name"
      Exec.save name
      match value with
      | some value => Exec.set name value
      | none => return ()
  return 0

/-- The command `unset`. -/
def unsetCommand (args : List Bytes) : Exec Nat := do
  let (found, names) ← letters "vf" args
  names.forM fun name => do
    if found.getLast? = some 'f' then
      Exec.update fun s => { s with functions := s.functions.filter (·.1 != name) }
    else
      if !isName name then Exec.failOn name "bad variable name"
      Exec.unset name
  return 0

/-! ## Arguments and options -/

/-- The options by their names and letters. -/
def optionNames : List (String × Option Char) :=
  [("errexit", some 'e'), ("noglob", some 'f'), ("ignoreeof", some 'I'), ("interactive", some 'i'),
   ("monitor", some 'm'), ("noexec", some 'n'), ("stdin", some 's'), ("xtrace", some 'x'),
   ("verbose", some 'v'), ("vi", some 'V'), ("emacs", some 'E'), ("noclobber", some 'C'),
   ("allexport", some 'a'), ("notify", some 'b'), ("nounset", some 'u'), ("privileged", some 'p'),
   ("nolog", none), ("debug", none)]

/-- An option is turned on or off. -/
def setOption (letter : Char) (on : Bool) : Exec Unit :=
  Exec.update fun s =>
    let others := s.options.filter (· != letter)
    { s with options := if on then letter :: others else others }

/-- The option of a letter is turned on or off, if there is one. -/
def switch (letter : Char) (on : Bool) : Exec Unit := do
  if optionNames.any (·.2 == some letter) then setOption letter on
  else Exec.fail ("Illegal option -".toList ++ [letter])

/-- The option of a name is turned on or off, if there is one. -/
def switchName (name : Bytes) (on : Bool) : Exec Unit := do
  match optionNames.lookup (String.ofList name) with
  | some (some letter) => setOption letter on
  | some none => return ()
  | none => Exec.fail ("Illegal option -o ".toList ++ name)

/-- Lists all options, as a table or as commands that set them. -/
def listOptions (asTable : Bool) : Exec Unit := do
  let s ← Exec.session
  if asTable then Exec.sayLine "Current option settings".toList
  optionNames.forM fun (name, letter) =>
    let on := letter.any s.options.contains
    let line := if asTable then name.pushn ' ' (16 - name.length) ++ (if on then "on" else "off")
      else (if on then "set -o " else "set +o ") ++ name
    Exec.sayLine line.toList

/-- Turns options on or off that the letters of an argument name; a name can be the next argument. -/
def switchLetters (on : Bool) (args : List Bytes) : Bytes → Exec (List Bytes)
  | [] => return args
  | 'o' :: letters => do
    match args with
    | [] => listOptions on
    | name :: _ => switchName name on
    switchLetters on args.tail letters
  | letter :: letters => do
    switch letter on
    switchLetters on args letters

/-- The options of the command `set`, at most `fuel` arguments, and what follows them; `none` if the
arguments of the shell stay as they are. -/
def setOptions : Nat → List Bytes → Exec (Option (List Bytes))
  | 0, args => return some args
  | fuel + 1, args => do
    match args with
    | [] => return none
    | ['-'] :: rest =>
      setOption 'x' false
      setOption 'v' false
      return if rest.isEmpty then none else some rest
    | ['-', '-'] :: rest => return some rest
    | ('-' :: letters) :: rest => setOptions fuel (← switchLetters true rest letters)
    | ('+' :: letters) :: rest => setOptions fuel (← switchLetters false rest letters)
    | args => return some args

/-- The command `set`. -/
def setCommand (args : List Bytes) : Exec Nat := do
  if args.isEmpty then list "" (·.value.isSome)
  else
    match ← setOptions (args.length + 1) args with
    | none => return 0
    | some args => Exec.update fun s => { s with args, optionIndex := 1, optionOffset := 0 }
  return 0

/-- The command `shift`. -/
def shift (args : List Bytes) : Exec Nat := do
  let n ← match args with
    | [] => pure 1
    | arg :: _ => Exec.number arg
  if (← Exec.session).args.length < n then Exec.fail "can't shift that many".toList
  Exec.update fun s =>
    { s with args := s.args.drop n, optionIndex := 1, optionOffset := 0 }
  return 0

/-! ## Reading -/

/-- The segments of a line at the head of a text: its characters, those behind a backslash apart.
Also how many bytes the line takes, and whether it ends. A backslash before a line end joins two
lines. -/
def readSegments (raw : Bool) (run : List Atom) (guarded : Bool) :
    Bytes → List Segment × Nat × Bool
  | [] => ([⟨.fields, run.reverse⟩], 0, false)
  | c :: cs =>
    let go := fun run guarded =>
      let (segments, n, ends) := readSegments raw run guarded cs
      (segments, n + 1, ends)
    if c = '\x00' then go run guarded
    else if guarded then
      let (segments, n, ends) := readSegments raw [] false cs
      let here : List Segment := if c = '\n' then [⟨.fields, run.reverse⟩]
        else [⟨.fields, run.reverse⟩, ⟨.none, [.char c true]⟩]
      (here ++ segments, n + 1, ends)
    else if c = '\\' && !raw then go run true
    else if c = '\n' then ([⟨.fields, run.reverse⟩], 1, true)
    else go (.char c false :: run) false

/-- Gives variables the values of fields; those without a field become empty. -/
def assignFields : List Bytes → List (List Atom) → Exec Unit
  | [], _ => return ()
  | name :: names, fields => do
    Exec.set name (bytesOf (fields.head?.getD []))
    assignFields names fields.tail

/-- The command `read`. -/
def readCommand (args : List Bytes) : Exec Nat := do
  let (found, names) ← options [('p', true), ('r', false)] args
  if names.isEmpty then Exec.fail "arg count".toList
  let raw := found.any (·.1 == 'r')
  let text := match ← Exec.act (Act.peek 0) with
    | .ok text => text
    | .error _ => []
  let (segments, n, ends) := readSegments raw [] false text
  Exec.act (Act.skip 0 n)
  assignFields names (fields (← Expand.separators) (some names.length) segments)
  return if ends then 0 else 1

/-! ## Options of scripts -/

/-- The next option that `getopts` finds. -/
structure FoundOption where
  /-- The value of the variable that names the option. -/
  name : Bytes
  argument : Option Bytes := none
  /-- What is said about an option that is not known or lacks its argument. -/
  complaint : Option Bytes := none
  /-- Where the next option is. -/
  index : Nat
  offset : Nat := 0

/-- The next option among arguments, from the argument `index` and the letter `offset` on; `none`
and the index of the first argument behind the options if there is none. -/
def nextOption (known : Bytes) (args : List Bytes) (index offset : Nat) :
    Except Nat FoundOption :=
  let silent := known.head? = some ':'
  let start : Except Nat (Bytes × Nat) :=
    match args[index - 1]? with
    | some ('-' :: c :: cs) =>
      let rest := (c :: cs).drop offset
      if rest.isEmpty then .error index
      else if c = '-' ∧ cs.isEmpty then .error (index + 1)
      else .ok (rest, offset)
    | _ => .error index
  match start with
  | .error i => .error i
  | .ok ([], _) => .error index
  | .ok (c :: cs, offset) =>
    let behind := known.drop (known.takeWhile (· != c)).length
    let next := if cs.isEmpty then (index + 1, 0) else (index, offset + 1)
    if c = ':' || behind.isEmpty then
      .ok
        { name := ['?']
          argument := if silent then some [c] else none
          complaint := if silent then none else some ("Illegal option -".toList ++ [c])
          index := next.1
          offset := next.2 }
    else if behind[1]? != some ':' then .ok { name := [c], index := next.1, offset := next.2 }
    else if !cs.isEmpty then .ok { name := [c], argument := some cs, index := index + 1 }
    else
      match args[index]? with
      | some arg => .ok { name := [c], argument := some arg, index := index + 2 }
      | none =>
        .ok
          { name := if silent then [':'] else ['?']
            argument := if silent then some [c] else none
            complaint := if silent then none
              else some ("No arg for -".toList ++ [c] ++ " option".toList)
            index := index + 1 }

/-- The command `getopts`. -/
def getopts (args : List Bytes) : Exec Nat := do
  match args with
  | known :: name :: rest =>
    let s ← Exec.session
    let given := if rest.isEmpty then s.args else rest
    let place := fun index offset =>
      Exec.update fun s => { s with optionIndex := index, optionOffset := offset }
    match nextOption known given s.optionIndex s.optionOffset with
    | .error index =>
      Exec.set "OPTIND".toList (Bytes.ofNat index)
      Exec.set name ['?']
      return 1
    | .ok found =>
      match found.complaint with
      | some text => let _ ← Exec.act (Act.write 2 (text ++ ['\n']))
      | none => pure ()
      match found.argument, found.complaint with
      | some arg, _ => Exec.set "OPTARG".toList arg
      | none, some _ => Exec.unset "OPTARG".toList
      | none, none => Exec.set "OPTARG".toList []
      Exec.set "OPTIND".toList (Bytes.ofNat found.index)
      place found.index found.offset
      Exec.set name found.name
      return 0
  | _ => Exec.fail "Usage: getopts optstring var [arg...]".toList

/-! ## Aliases -/

/-- The texts that stand for words, in the order of the words, as they are listed. -/
def aliasLine (name text : Bytes) : Bytes :=
  name ++ ['='] ++ singleQuoted text

/-- The command `alias`. -/
def aliasCommand (args : List Bytes) : Exec Nat := do
  let known := (← Exec.session).aliases
  if args.isEmpty then
    (known.mergeSort fun a b => Bytes.precedes a.1 b.1).forM fun (name, text) =>
      Exec.sayLine (aliasLine name text)
    return 0
  let results ← args.mapM fun arg => do
    match splitSetting arg with
    | (name, none) =>
      match (← Exec.session).aliases.lookup name with
      | some text =>
        Exec.sayLine (aliasLine name text)
        return 0
      | none =>
        let _ ← Exec.act (Act.write 2 ("alias: ".toList ++ name ++ " not found\n".toList))
        return 1
    | (name, some text) =>
      Exec.update fun s =>
        { s with aliases := (name, text) :: s.aliases.filter (·.1 != name) }
      return 0
  return if results.contains 1 then 1 else 0

/-- The command `unalias`. -/
def unaliasCommand (args : List Bytes) : Exec Nat := do
  let (found, names) ← letters "a" args
  if found.contains 'a' then
    Exec.update fun s => { s with aliases := [] }
    return 0
  let results ← names.mapM fun name => do
    if ((← Exec.session).aliases.lookup name).isNone then
      let _ ← Exec.act (Act.write 2 ("unalias: ".toList ++ name ++ " not found\n".toList))
      return 1
    Exec.update fun s => { s with aliases := s.aliases.filter (·.1 != name) }
    return 0
  return if results.contains 1 then 1 else 0

end AuroraLint.Shell.Builtin
