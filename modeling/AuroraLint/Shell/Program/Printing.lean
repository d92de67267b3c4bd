import AuroraLint.Shell.Condition
import AuroraLint.Shell.Printf
import AuroraLint.Shell.Program.Basic

/-!
# Programs that print

`echo`, `printf`, `pwd`, `true`, `false`, `test`, `env`, `printenv`, `basename`, `dirname`, `seq` and
`expr`.

Part of the host of recorded runs (`Workspace.host`); no result is about it.
-/

set_option autoImplicit false

namespace AuroraLint.Shell.Program

/-! ## Texts -/

/-- The hexadecimal number of up to two digits at the head of a text, and its length. -/
def hexadecimal (cs : Bytes) : Bytes × Nat :=
  let digits := (cs.take 2).takeWhile (Numeral.isDigit 16)
  ([Bytes.ofByte (Numeral.value 16 digits).toUInt8], digits.length)

/-- A text with the escapes of `echo -e`, the first `skip` bytes being part of one already read, and
whether all printing ends there. -/
def unescape (skip : Nat) : Bytes → Bytes × Bool
  | [] => ([], false)
  | c :: cs =>
    match skip with
    | skip + 1 => unescape skip cs
    | 0 =>
      let (out, skip, stop) :=
        if c = '\\' then
          match cs with
          | 'c' :: _ => ([], 0, true)
          | '0' :: ds => ((Printf.octal ds).1, (Printf.octal ds).2 + 1, false)
          | 'x' :: ds =>
            if ds.head?.any (Numeral.isDigit 16) then
              ((hexadecimal ds).1, (hexadecimal ds).2 + 1, false)
            else (['\\'], 0, false)
          | cs => ((Printf.escape cs).1, (Printf.escape cs).2, false)
        else ([c], 0, false)
      if stop then (out, true)
      else
        let (rest, stop) := unescape skip cs
        (out ++ rest, stop)

/-- The options of `echo` at the head of its arguments: whether a line end is left out and escapes
are carried out. -/
def echoOptions (bare escapes : Bool) : List Bytes → Bool × Bool × List Bytes
  | [] => (bare, escapes, [])
  | arg :: args =>
    match arg with
    | '-' :: c :: cs =>
      let letters := c :: cs
      if letters.all fun l => l == 'n' || l == 'e' || l == 'E' then
        let escapes := letters.foldl (fun e l => if l == 'e' then true
          else if l == 'E' then false else e) escapes
        echoOptions (bare || letters.contains 'n') escapes args
      else (bare, escapes, arg :: args)
    | _ => (bare, escapes, arg :: args)

/-- The program `echo`. -/
def echo (c : Call) : Act Finish := do
  let (bare, escapes, args) := echoOptions false false c.args
  let text := List.intercalate [' '] args
  let (out, stop) := if escapes then unescape 0 text else (text, false)
  print (if bare || stop then out else out ++ ['\n'])
  return .exit 0

/-- The program `printf`. -/
def printf (c : Call) : Act Finish := do
  let args := if c.args.head? = some ['-', '-'] then c.args.tail else c.args
  match args with
  | [] => misuse c "missing operand".toList
  | format :: args =>
    let result := Printf.print format args
    result.complaints.forM (complain c)
    print result.output
    return success (result.complaints.isEmpty)

/-- The program `pwd`. -/
def pwd (c : Call) : Act Finish :=
  withOptions c [⟨'L', "logical", false⟩, ⟨'P', "physical", false⟩] false fun p => do
    if !p.operands.isEmpty then complain c "ignoring non-option arguments".toList
    printLines [Workspace.pathOf (← get).directory]
    return .exit 0

/-- The program `test`, and `[`, behind which a bracket comes last. -/
def test (c : Call) (bracket : Bool) : Act Finish := do
  if bracket && c.args.getLast? != some [']'] then
    complain c "missing ']'".toList
    return .exit 2
  match Condition.decide (← get) (if bracket then c.args.dropLast else c.args) with
  | .ok holds => return success holds
  | .error f =>
    complain c f.message
    return .exit 2

/-! ## The environment -/

/-- The program `printenv`. -/
def printenv (c : Call) : Act Finish := do
  if c.args.isEmpty then
    printLines (c.environment.map fun (name, value) => name ++ ['='] ++ value)
    return .exit 0
  let found := c.args.map fun name => c.environment.lookup name
  printLines (found.filterMap id)
  return success (found.all (·.isSome))

/-- The settings at the head of arguments, and what follows them. -/
def settings : List Bytes → List (Bytes × Bytes) × List Bytes
  | [] => ([], [])
  | arg :: args =>
    if arg.contains '=' then
      let name := arg.takeWhile (· != '=')
      let (more, rest) := settings args
      ((name, arg.drop (name.length + 1)) :: more, rest)
    else ([], arg :: args)

/-- The program `env`. -/
def env (c : Call) : Act Finish :=
  let known := [⟨'i', "ignore-environment", false⟩, ⟨'u', "unset", true⟩]
  withOptions c known true fun p => do
    let (set, rest) := settings p.operands
    let (p, rest) := if rest.head? = some ['-'] then
        ({ p with options := ⟨'i', []⟩ :: p.options }, rest.tail) else (p, rest)
    let dropped := p.options.filterMap fun o => if o.letter = 'u' then some o.argument else none
    let old := if p.has 'i' then [] else c.environment
    let kept := old.filter fun (name, _) =>
      !dropped.contains name && (set.lookup name).isNone
    let environment := kept ++ set
    match rest with
    | [] =>
      printLines (environment.map fun (name, value) => name ++ ['='] ++ value)
      return .exit 0
    | name :: args => return .become name args environment

/-! ## Paths -/

/-- A path without the slashes at its end, the root apart. -/
def bare (path : Bytes) : Bytes :=
  let trimmed := (World.trimSlashes path).1
  if trimmed.isEmpty && !path.isEmpty then ['/'] else trimmed

/-- The last part of a path, without a suffix unless it is all of it. -/
def baseName (path suffix : Bytes) : Bytes :=
  let path := bare path
  let name := if path = ['/'] then path else (path.reverse.takeWhile (· != '/')).reverse
  if suffix.isSuffixOf name && suffix.length < name.length then
    name.take (name.length - suffix.length)
  else name

/-- The path without its last part. -/
def directoryName (path : Bytes) : Bytes :=
  let path := bare path
  let front := (path.reverse.dropWhile (· != '/')).reverse
  if path = ['/'] then path
  else if front.isEmpty then ['.']
  else bare front

/-- The program `basename`. -/
def basename (c : Call) : Act Finish :=
  let known := [⟨'a', "multiple", false⟩, ⟨'s', "suffix", true⟩, ⟨'z', "zero", false⟩]
  withOptions c known true fun p => do
    let many := p.has 'a' || p.has 's'
    match p.operands with
    | [] => misuse c "missing operand".toList
    | path :: rest =>
      if many then printLines ((path :: rest).map (baseName · ((p.argument? 's').getD [])))
      else
        match rest with
        | [] => printLines [baseName path []]
        | [suffix] => printLines [baseName path suffix]
        | _ :: extra :: _ => return ← misuse c ("extra operand ".toList ++ quoted extra)
      return .exit 0

/-- The program `dirname`. -/
def dirname (c : Call) : Act Finish :=
  withOptions c [⟨'z', "zero", false⟩] false fun p => do
    if p.operands.isEmpty then return ← misuse c "missing operand".toList
    printLines (p.operands.map directoryName)
    return .exit 0

/-! ## Numbers -/

/-- A whole number with an optional sign. -/
def integer? (text : Bytes) : Option Int :=
  match text with
  | '-' :: ds => if ds.isEmpty || !ds.all Char.isDigit then none
    else some (-(Numeral.value 10 ds : Int))
  | '+' :: ds => if ds.isEmpty || !ds.all Char.isDigit then none else some (Numeral.value 10 ds)
  | ds => if ds.isEmpty || !ds.all Char.isDigit then none else some (Numeral.value 10 ds)

/-- The numbers from one to another in steps. -/
def range (first step last : Int) : List Int :=
  if step = 0 then []
  else
    let count := if 0 < step then (last - first) / step else (first - last) / (-step)
    if count < 0 then []
    else (List.range (count.toNat + 1)).map fun (i : Nat) => first + step * (i : Int)

/-- The program `seq` on whole numbers. -/
def seq (c : Call) : Act Finish := do
  let (separator, args) := match c.args with
    | ['-', 's'] :: s :: rest => (s, rest)
    | args => (['\n'], args)
  let numbers := args.map integer?
  match args.find? fun arg => (integer? arg).isNone with
  | some arg =>
    return ← misuse c ("invalid floating point argument: ".toList ++ quoted arg)
  | none =>
    match numbers.filterMap id with
    | [] => misuse c "missing operand".toList
    | [last] => finish separator (range 1 1 last)
    | [first, last] => finish separator (range first 1 last)
    | [first, step, last] => finish separator (range first step last)
    | _ => misuse c ("extra operand ".toList ++ quoted ((args[3]?).getD []))
where
  /-- Prints numbers with something between them. -/
  finish (separator : Bytes) (numbers : List Int) : Act Finish := do
    let text := List.intercalate separator (numbers.map Bytes.ofInt)
    if !numbers.isEmpty then print (text ++ ['\n'])
    return .exit 0

/-- The value of an expression of `expr` on two operands; `none` if it has none. -/
def exprValue (a : Bytes) (operator : String) (b : Bytes) : Except String Bytes :=
  let ofBool := fun (t : Bool) => if t then ['1'] else ['0']
  let arithmetic := fun (f : Int → Int → Except String Int) =>
    match integer? a, integer? b with
    | some x, some y => (f x y).map Bytes.ofInt
    | _, _ => .error "non-integer argument"
  let ordered := fun (byNumber : Int → Int → Bool) (byText : Bytes → Bytes → Bool) =>
    match integer? a, integer? b with
    | some x, some y => .ok (ofBool (byNumber x y))
    | _, _ => .ok (ofBool (byText a b))
  let isNothing := fun (x : Bytes) => x.isEmpty || integer? x == some 0
  match operator with
  | "+" => arithmetic fun x y => .ok (x + y)
  | "-" => arithmetic fun x y => .ok (x - y)
  | "*" => arithmetic fun x y => .ok (x * y)
  | "/" => arithmetic fun x y => if y = 0 then .error "division by zero" else .ok (x.tdiv y)
  | "%" => arithmetic fun x y => if y = 0 then .error "division by zero" else .ok (x.tmod y)
  | "=" => ordered (· == ·) (· == ·)
  | "!=" => ordered (· != ·) (· != ·)
  | "<" => ordered (· < ·) fun x y => x != y && Bytes.precedes x y
  | "<=" => ordered (· ≤ ·) Bytes.precedes
  | ">" => ordered (fun x y => y < x) fun x y => x != y && Bytes.precedes y x
  | ">=" => ordered (fun x y => y ≤ x) fun x y => Bytes.precedes y x
  | "|" => .ok (if isNothing a then (if isNothing b then ['0'] else b) else a)
  | "&" => .ok (if isNothing a || isNothing b then ['0'] else a)
  | _ => .error "syntax error"

/-- The program `expr` on one operand or two. -/
def expr (c : Call) : Act Finish := do
  let finish := fun (value : Bytes) => do
    printLines [value]
    return success (!(value.isEmpty || integer? value == some 0))
  match c.args with
  | [] => misuse c "missing operand".toList 2
  | [a] => finish a
  | [['l', 'e', 'n', 'g', 't', 'h'], a] => finish (Bytes.ofNat a.length)
  | a :: o :: b :: rest =>
    let rec chain (value : Bytes) : List Bytes → Except String Bytes
      | [] => .ok value
      | [_] => .error "syntax error"
      | o :: b :: rest =>
        match exprValue value (String.ofList o) b with
        | .ok v => chain v rest
        | .error e => .error e
    match chain a (o :: b :: rest) with
    | .ok value => finish value
    | .error text =>
      complain c text.toList
      return .exit 2
  | _ :: o :: _ =>
    complain c ("syntax error: unexpected argument ".toList ++ quoted o)
    return .exit 2

end AuroraLint.Shell.Program
