/-!
# Command line options

* `Options`       : what the arguments ask for.
* `Options.parse` : the options that a list of arguments spells.
-/

set_option autoImplicit false

namespace AuroraLint

/-- The switches of the command line. -/
inductive Switch where
  | json
  | quiet
  | noStyle
  | compiler
  | emitLlvm
  | emitTokens
  | emitSymbols
  | verbose
  deriving DecidableEq, Repr, Inhabited

/-- What the arguments ask for. -/
structure Options where
  file : Option String := none
  switches : List Switch := []
  output : Option String := none
  deriving DecidableEq, Repr, Inhabited

/-- What becomes of the arguments. -/
inductive Request where
  /-- Run on a file. -/
  | run (file : String) (options : Options)
  | showVersion
  | showHelp
  /-- The arguments are not understood. -/
  | invalid
  deriving DecidableEq, Repr

namespace Options

/-- A switch is given. -/
def has (o : Options) (s : Switch) : Bool :=
  o.switches.contains s

/-- What an option name stands for. -/
inductive Meaning where
  | switch (s : Switch)
  | output
  | version
  | help
  deriving DecidableEq, Repr

/-- The long names, which follow two dashes. -/
def longNames : List (String × Meaning) :=
  [("json", .switch .json), ("quiet", .switch .quiet), ("no-style", .switch .noStyle),
   ("compiler", .switch .compiler), ("emit-llvm", .switch .emitLlvm),
   ("emit-tokens", .switch .emitTokens), ("emit-symbols", .switch .emitSymbols),
   ("verbose", .switch .verbose), ("output", .output), ("version", .version), ("help", .help)]

/-- The short names, which follow one dash. -/
def shortNames : List (Char × Meaning) :=
  [('q', .switch .quiet), ('v', .switch .verbose), ('o', .output), ('V', .version), ('h', .help)]

/-- The arguments read so far, or what ends the reading of them. -/
abbrev Step : Type := Except Request Options

/-- Adds a switch, which can be given once. -/
def addSwitch (o : Options) (s : Switch) : Step :=
  if o.has s then .error .invalid else .ok { o with switches := o.switches ++ [s] }

/-- Sets the output file, which can be given once and is not empty. -/
def setOutput (o : Options) (value : String) : Step :=
  if o.output.isSome || value.isEmpty then .error .invalid else .ok { o with output := some value }

/-- Sets the source file, which can be given once and is not empty. -/
def setFile (o : Options) (value : String) : Step :=
  if o.file.isSome || value.isEmpty then .error .invalid else .ok { o with file := some value }

/-- An argument that can be the value of an option: it starts with no dash, or is one dash. -/
def isValue (arg : String) : Bool :=
  arg = "-" || arg.toList.head? != some '-'

/-- The text after an equals sign that it may start with. -/
def dropEquals : List Char → List Char
  | '=' :: rest => rest
  | cs => cs

/-- Reads a group of short names. An output name takes the rest of the group as its value; with
nothing left, the value is the next argument and the group's options wait for it. -/
def shortGroup (o : Options) : List Char → Except Request (Options × Bool)
  | [] => .ok (o, false)
  | c :: cs =>
    match shortNames.lookup c with
    | some (.switch s) =>
      match o.addSwitch s with
      | .ok o => shortGroup o cs
      | .error r => .error r
    | some .output =>
      match cs with
      | [] => .ok (o, true)
      | cs => (o.setOutput (String.ofList (dropEquals cs))).map (·, false)
    | some .version => .error .showVersion
    | some .help => .error .showHelp
    | none => .error .invalid

/-- Reads a long option without its dashes; the answer says whether its value is the next
argument. -/
def longOption (o : Options) (text : List Char) : Except Request (Options × Bool) :=
  let name := String.ofList (text.takeWhile (· != '='))
  let value := match text.dropWhile (· != '=') with
    | [] => none
    | _ :: value => some (String.ofList value)
  match longNames.lookup name, value with
  | some (.switch s), none => (o.addSwitch s).map (·, false)
  | some .output, none => .ok (o, true)
  | some .output, some value => (o.setOutput value).map (·, false)
  | some .version, none => .error .showVersion
  | some .help, none => .error .showHelp
  | _, _ => .error .invalid

/-- How far the reading is: whether options can still come, and whether a value is waited for. -/
inductive Mode where
  | options
  | value
  | files
  deriving DecidableEq, Repr

/-- The mode after an option that may wait for its value. -/
def Mode.next (waits : Bool) : Mode :=
  if waits then .value else .options

/-- Reads arguments from left to right. -/
def readArgs (o : Options) (mode : Mode) : List String → Step
  | [] => if mode = .value then .error .invalid else .ok o
  | arg :: args =>
    match mode, arg.toList with
    | .value, _ =>
      if isValue arg then
        match o.setOutput arg with
        | .ok o => readArgs o .options args
        | .error r => .error r
      else .error .invalid
    | .options, ['-', '-'] => readArgs o .files args
    | .options, '-' :: '-' :: name =>
      match o.longOption name with
      | .ok (o, waits) => readArgs o (.next waits) args
      | .error r => .error r
    | .options, '-' :: c :: cs =>
      match o.shortGroup (c :: cs) with
      | .ok (o, waits) => readArgs o (.next waits) args
      | .error r => .error r
    | mode, _ =>
      match o.setFile arg with
      | .ok o => readArgs o mode args
      | .error r => .error r

/-- What a list of arguments asks for. A file has to be named, and an output file only makes sense
when LLVM code is asked for. -/
def parse (args : List String) : Request :=
  match readArgs {} .options args with
  | .error r => r
  | .ok o =>
    match o.file with
    | none => .invalid
    | some file => if o.output.isSome && !o.has .emitLlvm then .invalid else .run file o

end Options

end AuroraLint
