import AuroraLint.Shell.Arithmetic
import AuroraLint.Shell.Field
import AuroraLint.Shell.Glob
import AuroraLint.Shell.Session

/-!
# Expansion

What the words of a command stand for when it runs. How the output of commands inside a word is
taken is a parameter here.

* `Shell.Expand.fields`  : the fields that a word stands for.
* `Shell.Expand.single`  : the one text that a word stands for where nothing divides it.
* `Shell.Expand.pattern` : the pattern that a word stands for.

Part of the host of recorded runs (`Workspace.host`); no result is about it.
-/

set_option autoImplicit false

namespace AuroraLint.Shell

/-- How the output of a command is taken. -/
abbrev TakeOutput := Command → Exec Bytes

namespace Expand

/-! ## Values -/

/-- Where a part of a word stands. -/
structure Context where
  /-- The word is divided into fields. -/
  divides : Bool := false
  /-- The part stands between double quotes. -/
  quoted : Bool := false
  /-- The part stands in a word behind a parameter. -/
  inside : Bool := false
  /-- A home directory can stand behind a colon. -/
  colons : Bool := false
  deriving DecidableEq, Repr

/-- The atoms of a value. Between quotes, what could mean something to a pattern stands for itself. -/
def atomsOf (quoted : Bool) (value : Bytes) : List Atom :=
  value.map fun c => .char c (quoted && (Lexer.controls.contains c || c == '\\'))

/-- The order in which options are listed. -/
def optionOrder : List Char :=
  "ubaCEVvxsnmiIfe".toList

/-- What stands between arguments that are taken together: a null character where they are divided
again, otherwise the first character that divides fields. Between quotes they are divided only if
they are taken `apart`. -/
def separator (ctx : Context) (apart : Bool) : Exec Bytes := do
  if apart && ctx.quoted && ctx.divides then return ['\x00']
  match ← Exec.value? "IFS".toList with
  | none => return [' ']
  | some ifs => return if ctx.divides && !ctx.quoted then ['\x00'] else ifs.take 1

/-- All arguments together. -/
def joinArguments (ctx : Context) (apart : Bool) : Exec (List Atom) := do
  let args := (← Exec.session).args
  let between ← separator ctx apart
  return List.intercalate (atomsOf ctx.quoted between) (args.map (atomsOf ctx.quoted))

/-- The value of a parameter; `none` if it has none. -/
def valueOf (ctx : Context) (name : Bytes) : Exec (Option (List Atom)) := do
  let s ← Exec.session
  let text := fun b => some (atomsOf ctx.quoted b)
  match name with
  | ['$'] => return text (Bytes.ofNat s.id)
  | ['?'] => return text (Bytes.ofNat s.status)
  | ['#'] => return text (Bytes.ofNat s.args.length)
  | ['!'] => return (s.lastBackground.map Bytes.ofNat).bind text
  | ['-'] => return text (optionOrder.filter s.options.contains)
  | ['@'] => return some (← joinArguments ctx true)
  | ['*'] => return some (← joinArguments ctx false)
  | _ =>
    if name.all Char.isDigit then
      match Numeral.value 10 name with
      | 0 => return text s.name
      | n + 1 => return s.args[n]?.bind text
    return (← Exec.value? name).bind text

/-- The segment of a value. Between quotes, only arguments that are taken together are divided. -/
def record (ctx : Context) (name : Bytes) (atoms : List Atom) : Exec (List Segment) := do
  if !ctx.quoted then return [⟨.fields, atoms⟩]
  if name = ['@'] ∧ !(← Exec.session).args.isEmpty then return [⟨.arguments, atoms⟩]
  return [⟨.none, atoms⟩]

/-- The bytes of segments. -/
def bytes (segments : List Segment) : Bytes :=
  segments.flatMap fun s => bytesOf s.atoms

/-- The atoms of segments. -/
def atoms (segments : List Segment) : List Atom :=
  segments.flatMap (·.atoms)

/-- The home directory of a user; of the user of the shell without a name. -/
def home? (name : Bytes) : Exec (Option Bytes) := do
  if name.isEmpty then Exec.value? "HOME".toList
  else return if name = "root".toList then some "/root".toList else none

/-- The name of a user that a word starts with behind a tilde; `none` if the word has more in the
place of a name. -/
def user? (colons : Bool) (rest : Word) : Option Bytes :=
  let name := (Word.head rest).takeWhile fun c => c != '/' && !(colons && c == ':')
  match rest.drop name.length with
  | [] => some name
  | .plain '/' :: _ => some name
  | .plain ':' :: _ => if colons then some name else none
  | _ => none

/-- The output of a command as a value: without null characters, and without line ends at its end. -/
def outputValue (text : Bytes) : Bytes :=
  ((text.filter (· != '\x00')).reverse.dropWhile (· == '\n')).reverse

/-- The value of an arithmetic expression. -/
def arithmetic (text : Bytes) : Exec Bytes := do
  let s ← Exec.session
  let values := fun name => ((s.bindings.lookup name).bind (·.value)).getD []
  let (result, settings) := Arithmetic.evaluate values text
  settings.forM fun (name, n) => Exec.set name (Bytes.ofInt n)
  match result with
  | .ok n => return Bytes.ofInt n
  | .error f => Exec.fail (f.message text)

/-! ## Words -/

/-- A row of segments in reverse, and the plain characters behind them in reverse. -/
structure Row where
  done : List Segment := []
  run : List Atom := []
  deriving DecidableEq, Repr

namespace Row

/-- The row with the plain characters as a segment. In a word behind a parameter, they are divided
like a value. -/
def flush (r : Row) (ctx : Context) : Row :=
  if r.run.isEmpty then r
  else
    let division := if ctx.inside && !ctx.quoted then Division.fields else .none
    { done := ⟨division, r.run.reverse⟩ :: r.done }

/-- The row with segments behind it. -/
def append (r : Row) (ctx : Context) (segments : List Segment) : Row :=
  { done := segments.reverse ++ (r.flush ctx).done }

/-- The segments of a row. -/
def segments (r : Row) (ctx : Context) : List Segment :=
  (r.flush ctx).done.reverse

end Row

/-- The complaint about a parameter that has no value. -/
def missing {α : Type} (name : Bytes) (orEmpty : Bool) : Exec α :=
  Exec.failOn name (if orEmpty then "parameter not set or null" else "parameter not set")

/-- The place of a word behind a parameter. -/
def Context.within (ctx : Context) : Context :=
  { ctx with inside := true }

/-- Whether quotes are open. -/
inductive Quotes where
  | closed
  | opened
  /-- They stand around all arguments, which may be none: they make no field of nothing. -/
  | aroundArguments
  deriving DecidableEq, Repr

/-- The place of a part, between quotes or not. -/
def Context.between (ctx : Context) (q : Quotes) : Context :=
  { ctx with quoted := ctx.quoted || q != .closed }

/-- All arguments follow, and then a quotation mark. -/
def isAllArguments : Word → Bool
  | .parameter ['@'] .value false [] :: .quotes :: _ => true
  | _ => false

/-- The atoms of a value without what a pattern describes at its front or end. -/
def trim (front greedy : Bool) (value : List Atom) (pattern : Bytes) : List Atom :=
  match Pattern.cut? pattern (bytesOf value) front greedy with
  | none => value
  | some n => if front then value.drop n else value.take (value.length - n)

/-- What a parameter stands for, where `inner` is how the word behind it is expanded, and whether
there is one. -/
def parameter (ctx : Context) (name : Bytes) (usage : Usage) (orEmpty hasWord : Bool)
    (inner : Context → Exec (List Segment)) : Exec (List Segment) := do
  if usage = .unknown then Exec.fail "Bad substitution".toList
  let value ← valueOf ctx name
  let value := if orEmpty then value.filter (!·.isEmpty) else value
  match usage, value with
  | .provided, some _ => inner ctx.within
  | .provided, none => return []
  | .instead, some v => record ctx name v
  | .instead, none => inner ctx.within
  | .assigned, some v => record ctx name v
  | .assigned, none =>
    Exec.set name (bytes (← inner {}))
    match ← valueOf ctx name with
    | some v => record ctx name v
    | none => return []
  | .required, some v => record ctx name v
  | .required, none =>
    if !hasWord then missing name orEmpty
    let text := bytes (← inner {})
    Exec.fail (name ++ [':', ' '] ++ text)
  | _, none =>
    if ← Exec.hasOption 'u' then missing name false
    if usage = .length then record ctx name (atomsOf ctx.quoted ['0']) else return []
  | .length, some v => record ctx name (atomsOf ctx.quoted (Bytes.ofNat v.length))
  | .trimmed front greedy, some v =>
    let p := Shell.pattern (atoms (← inner {}))
    record ctx name (trim front greedy v p)
  | _, some v => record ctx name v

/-- The segments that a word stands for. `here` says that a home directory can stand next, `skip` how
many parts belong to what has been expanded, and `q` whether quotes are open. -/
def word (take : TakeOutput) (ctx : Context) (here : Bool) (skip : Nat) (q : Quotes) (r : Row) :
    Word → Exec (List Segment)
  | [] => return r.segments ctx
  | .plain c :: rest => do
    match skip with
    | skip + 1 => word take ctx false skip q r rest
    | 0 =>
      let user := if here && c == '~' then user? ctx.colons rest else none
      let home ← match user with
        | some name => home? name
        | none => pure none
      match home with
      | some home =>
        let r := r.append ctx [⟨.none, atomsOf true home⟩]
        word take ctx false (user.getD []).length q r rest
      | none =>
        let r := if q = .closed then { r with run := .char c false :: r.run }
          else r.append ctx [⟨.none, [.char c false]⟩]
        word take ctx (ctx.colons && c == ':') 0 q r rest
  | .escaped c :: rest => word take ctx false 0 q (r.append ctx [⟨.none, [.char c true]⟩]) rest
  | .quotes :: rest =>
    match q with
    | .aroundArguments => word take ctx false 0 .closed r rest
    | .opened => word take ctx false 0 .closed (r.append ctx [⟨.none, [.quotes]⟩]) rest
    | .closed =>
      if isAllArguments rest then word take ctx false 0 .aroundArguments r rest
      else word take ctx false 0 .opened (r.append ctx [⟨.none, [.quotes]⟩]) rest
  | .parameter name usage orEmpty w :: rest => do
    let inner := fun c => word take c true 0 .closed {} w
    let segments ← parameter (ctx.between q) name usage orEmpty (!w.isEmpty) inner
    if usage = .value ∧ orEmpty then word take ctx false 0 q (r.append ctx segments) w
    else word take ctx false 0 q (r.append ctx segments) rest
  | .output body :: rest => do
    let quoted := (ctx.between q).quoted
    let value := atomsOf quoted (outputValue (← take body))
    let segment : Segment := ⟨if quoted then .none else .fields, value⟩
    word take ctx false 0 q (r.append ctx [segment]) rest
  | .arithmetic w :: rest => do
    let quoted := (ctx.between q).quoted
    let text := bytes (← word take {} false 0 .closed {} w)
    let value := atomsOf quoted (← arithmetic text)
    let segment : Segment := ⟨if quoted then .none else .fields, value⟩
    word take ctx false 0 q (r.append ctx [segment]) rest

/-! ## Results -/

/-- The characters that divide fields. -/
def separators : Exec Bytes := do
  return (← Exec.value? "IFS".toList).getD blanks

/-- The paths that a field stands for, or else the field itself. -/
def paths (field : List Atom) : Exec (List Bytes) := do
  if !mayBeWild field || (← Exec.hasOption 'f') then return [bytesOf field]
  let w ← Exec.world
  match w.files.glob w.directory (Shell.pattern field) with
  | [] => return [bytesOf field]
  | found => return found

/-- The fields that a word stands for. -/
def fields (take : TakeOutput) (w : Word) : Exec (List Bytes) := do
  let segments ← word take { divides := true } true 0 .closed {} w
  let parts ← (Shell.fields (← separators) none segments).mapM paths
  return parts.flatten

/-- The one text that a word stands for where nothing divides it. -/
def single (take : TakeOutput) (w : Word) : Exec Bytes := do
  return bytes (← word take {} true 0 .closed {} w)

/-- The value that a word gives a variable. -/
def setting (take : TakeOutput) (w : Word) : Exec Bytes := do
  return bytes (← word take { colons := true } true 0 .closed {} w)

/-- The pattern that a word stands for. -/
def pattern (take : TakeOutput) (w : Word) : Exec Bytes := do
  return Shell.pattern (atoms (← word take {} true 0 .closed {} w))

/-- The text of a document. -/
def document (take : TakeOutput) (w : Word) : Exec Bytes := do
  return bytes (← word take { quoted := true } false 0 .closed {} w)

end Expand

end AuroraLint.Shell
