import AuroraLint.Shell.Numeral
import AuroraLint.Shell.Program.Basic

/-!
# Programs about other programs

`sleep` and `xargs`.

Part of the host of recorded runs (`Workspace.host`); no result is about it.
-/

set_option autoImplicit false

namespace AuroraLint.Shell.Program

/-! ## Waiting -/

/-- A length of time: a decimal number with an optional unit. -/
def isInterval (text : Bytes) : Bool :=
  let number := if text.getLast?.any fun c => "smhd".contains c then text.dropLast else text
  number.any Char.isDigit && number.all (fun c => c.isDigit || c == '.') &&
    (number.filter (· == '.')).length ≤ 1

/-- The program `sleep`. No time passes here. -/
def sleep (c : Call) : Act Finish :=
  withOptions c [] false fun p => do
    if p.operands.isEmpty then return ← misuse c "missing operand".toList
    let wrong := p.operands.filter fun text => !isInterval text
    wrong.forM fun text => complain c ("invalid time interval ".toList ++ quoted text)
    if wrong.isEmpty then return .exit 0
    hint c
    return .exit 1

/-! ## Arguments from the input -/

/-- Where a reader of arguments is. -/
structure ArgumentReader where
  /-- The arguments that are complete, the last one first. -/
  complete : List Bytes := []
  /-- The bytes of the argument under way, the last one first. -/
  current : Option Bytes := none
  /-- The quote that is open. -/
  quote : Option Char := none
  /-- The byte before was a backslash. -/
  escaped : Bool := false
  deriving DecidableEq, Repr

/-- Takes the argument under way as complete. -/
def ArgumentReader.close (r : ArgumentReader) : ArgumentReader :=
  match r.current with
  | none => r
  | some text => { r with complete := text.reverse :: r.complete, current := none }

/-- Takes in a byte: blanks end an argument, and quotes and backslashes keep them. -/
def ArgumentReader.take (r : ArgumentReader) (c : Char) : ArgumentReader :=
  let kept := { r with current := some (c :: r.current.getD []), escaped := false }
  if r.escaped then kept
  else
    match r.quote with
    | some q => if c = q then { r with quote := none } else kept
    | none =>
      if c = '\\' then { r with escaped := true, current := some (r.current.getD []) }
      else if c = '\'' || c = '"' then
        { r with quote := some c, current := some (r.current.getD []) }
      else if c = ' ' || c = '\t' || c = '\n' then r.close
      else kept

/-- The arguments in a text. -/
def argumentsIn (text : Bytes) : List Bytes :=
  (text.foldl ArgumentReader.take {}).close.complete.reverse

/-- A list in groups of `size`, at most `fuel`. -/
def groupsOf {α : Type} (size : Nat) : Nat → List α → List (List α)
  | 0, _ => []
  | _ + 1, [] => []
  | fuel + 1, x :: xs => (x :: xs).take size :: groupsOf size fuel ((x :: xs).drop size)

/-- A text in which each place of a word is taken by another, the first `skip` bytes being part of a
place already taken. -/
def substitute (word other : Bytes) (skip : Nat) : Bytes → Bytes
  | [] => []
  | c :: cs =>
    match skip with
    | skip + 1 => substitute word other skip cs
    | 0 =>
      if !word.isEmpty && word.isPrefixOf (c :: cs) then
        other ++ substitute word other (word.length - 1) cs
      else c :: substitute word other 0 cs

/-- The program `xargs`: it runs another with the arguments that it reads. -/
def xargs (c : Call) : Act Finish :=
  let known := [⟨'n', "max-args", true⟩, ⟨'I', "", true⟩, ⟨'0', "null", false⟩,
    ⟨'r', "no-run-if-empty", false⟩, ⟨'d', "delimiter", true⟩, ⟨'L', "max-lines", true⟩]
  withOptions c known true fun p => do
    let text ← match ← Act.readAll 0 with
      | .ok bytes => pure bytes
      | .error _ => pure []
    let (name, fixed) := match p.operands with
      | name :: fixed => (name, fixed)
      | [] => ("echo".toList, [])
    let pieces := fun (divider : Char) =>
      let all := Bytes.split (· == divider) text
      if all.getLast? = some [] then all.dropLast else all
    let found := if p.has '0' then pieces '\x00'
      else if let some d := p.argument? 'd' then pieces (d.head?.getD '\n')
      else if p.has 'I' then
        ((pieces '\n').map fun line => line.dropWhile fun c => c == ' ' || c == '\t').filter
          (!·.isEmpty)
      else argumentsIn text
    match p.argument? 'I' with
    | some word =>
      return .each name (found.map fun value => fixed.map (substitute word value 0))
    | none =>
      if found.isEmpty then return .each name (if p.has 'r' then [] else [fixed])
      let size := match p.argument? 'n' with
        | some n => if n.all Char.isDigit then max 1 (Numeral.value 10 n) else found.length
        | none => found.length
      return .each name ((groupsOf size (found.length + 1) found).map (fixed ++ ·))

end AuroraLint.Shell.Program
