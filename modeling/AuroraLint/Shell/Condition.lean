import AuroraLint.Shell.Numeral
import AuroraLint.Shell.World

/-!
# Conditions

What the command `test` says about its arguments.

* `Condition.decide` : whether a condition holds, or what is wrong with it.

Conditions of up to four arguments are read by their number, so that an argument that looks like an
operator can still be a text.

Part of the host of recorded runs (`Workspace.host`); no result is about it.
-/

set_option autoImplicit false

namespace AuroraLint.Shell.Condition

/-! ## Operators -/

/-- What an argument can be as an operator. -/
inductive Kind where
  | unary
  | binary
  | not
  | and
  | or
  | openParen
  | closeParen
  deriving DecidableEq, Repr

/-- The operators on one argument. -/
def unaryNames : List String :=
  ["-r", "-w", "-x", "-e", "-f", "-d", "-c", "-b", "-p", "-u", "-g", "-k", "-s", "-t", "-z", "-n",
   "-h", "-O", "-G", "-L", "-S"]

/-- The operators on two arguments. -/
def binaryNames : List String :=
  ["=", "!=", "<", ">", "-eq", "-ne", "-ge", "-gt", "-le", "-lt", "-nt", "-ot", "-ef"]

/-- The operator that an argument is. -/
def kind? (arg : Bytes) : Option Kind :=
  let name := String.ofList arg
  if unaryNames.contains name then some .unary
  else if binaryNames.contains name then some .binary
  else
    match name with
    | "!" => some .not
    | "-a" => some .and
    | "-o" => some .or
    | "(" => some .openParen
    | ")" => some .closeParen
    | _ => none

/-! ## Files and numbers -/

/-- Why a condition cannot be decided. -/
inductive Fault where
  | unexpected (arg : Bytes)
  | argumentExpected (operator : Bytes)
  | closingExpected
  | noNumber (text : Bytes)
  deriving DecidableEq, Repr

/-- What is said about a fault. -/
def Fault.message : Fault → Bytes
  | .unexpected [] => "unexpected operator".toList
  | .unexpected arg => arg ++ ": unexpected operator".toList
  | .argumentExpected operator => operator ++ ": argument expected".toList
  | .closingExpected => "closing paren expected".toList
  | .noNumber text => "Illegal number: ".toList ++ text

/-- The whole number that a text is. -/
def integer? (text : Bytes) : Option Int :=
  let (negative, ds) := Numeral.sign text
  let digits := ds.takeWhile Char.isDigit
  let n := Numeral.value 10 digits
  let bound := if negative then 9223372036854775808 else 9223372036854775807
  if digits.isEmpty || !(ds.dropWhile Char.isDigit).all Numeral.isBlank || bound < n then none
  else some (if negative then -(n : Int) else n)

/-- What an operator says about a node. -/
def nodeHas (operator : String) (node : Node) : Bool :=
  match operator with
  | "-f" => match node with
    | .file _ _ => true
    | .program _ => true
    | _ => false
  | "-d" => node == .directory
  | "-c" => match node with
    | .device .null => true
    | .device .full => true
    | _ => false
  | "-p" => match node with
    | .device (.descriptor n) => n != 0
    | _ => false
  | "-s" => match node with
    | .file contents _ => !contents.isEmpty
    | .device _ => false
    | _ => true
  | "-x" => match node with
    | .file _ executable => executable
    | .device _ => false
    | _ => true
  | "-e" | "-r" | "-w" | "-O" | "-G" => true
  | _ => false

/-- What an operator says about an argument. -/
def unary (w : World) (operator : String) (arg : Bytes) : Except Fault Bool :=
  match operator with
  | "-z" => .ok arg.isEmpty
  | "-n" => .ok (!arg.isEmpty)
  | "-t" => if (integer? arg).isSome then .ok false else .error (.noNumber arg)
  | _ =>
    match w.locate arg with
    | .ok (_, node) => .ok (nodeHas operator node)
    | .error _ => .ok false

/-- What an operator says about two numbers. -/
def compare (operator : String) (a b : Int) : Bool :=
  match operator with
  | "-eq" => a == b
  | "-ne" => a != b
  | "-ge" => b ≤ a
  | "-gt" => b < a
  | "-le" => a ≤ b
  | _ => a < b

/-- Two paths lead to the same place. -/
def samePlace (w : World) (a b : Bytes) : Bool :=
  match w.locate a, w.locate b with
  | .ok (p, _), .ok (q, _) => p == q
  | _, _ => false

/-- What an operator says about two arguments. -/
def binary (w : World) (operator : String) (a b : Bytes) : Except Fault Bool :=
  match operator with
  | "=" => .ok (a == b)
  | "!=" => .ok (a != b)
  | "<" => .ok (a != b && Bytes.precedes a b)
  | ">" => .ok (a != b && Bytes.precedes b a)
  | "-nt" => .ok false
  | "-ot" => .ok false
  | "-ef" => .ok (samePlace w a b)
  | _ =>
    match integer? a, integer? b with
    | some x, some y => .ok (compare operator x y)
    | none, _ => .error (.noNumber a)
    | _, none => .error (.noNumber b)

/-! ## Reading -/

/-- What stands at a place among the arguments. -/
inductive Token where
  | finish
  | operand
  | operator (k : Kind)
  deriving DecidableEq, Repr

/-- An operator on one argument is itself an operand where it has none. -/
def isOperand (args : List Bytes) (i : Nat) : Bool :=
  match args[i + 1]?, args[i + 2]? with
  | none, _ => true
  | some _, none => false
  | some next, some _ => kind? next == some .binary

/-- What stands at a place. -/
def tokenAt (args : List Bytes) (i : Nat) : Token :=
  match args[i]? with
  | none => .finish
  | some arg =>
    match kind? arg with
    | none => .operand
    | some .unary => if isOperand args i then .operand else .operator .unary
    | some .openParen => if args.length ≤ i + 1 then .operand else .operator .openParen
    | some k => .operator k

/-- The argument at a place. -/
def argAt (args : List Bytes) (i : Nat) : Bytes :=
  args[i]?.getD []

/-- Reading a condition: the place is the state. -/
abbrev Reader := EStateM Fault Nat

/-- What a condition can be inside another. -/
inductive Goal where
  | or
  | and
  | not
  deriving DecidableEq, Repr

/-- A part of a condition, whose first token is known. -/
abbrev Nested := Goal → Token → Reader Bool

/-- The answer of an operator. -/
def answer (result : Except Fault Bool) : Reader Bool :=
  match result with
  | .ok b => pure b
  | .error f => throw f

/-- A condition without logical operators, or one in parentheses. -/
def primary (w : World) (args : List Bytes) (nested : Nested) (t : Token) : Reader Bool := do
  match t with
  | .finish => return false
  | .operator .openParen =>
    modify (· + 1)
    let next := tokenAt args (← get)
    if next = .operator .closeParen then return false
    let result ← nested .or next
    modify (· + 1)
    if tokenAt args (← get) ≠ .operator .closeParen then throw .closingExpected
    return result
  | .operator .unary =>
    let operator := argAt args (← get)
    modify (· + 1)
    match args[← get]? with
    | none => throw (.argumentExpected operator)
    | some arg => answer (unary w (String.ofList operator) arg)
  | _ =>
    let i ← get
    if tokenAt args (i + 1) = .operator .binary then
      set (i + 2)
      match args[i + 2]? with
      | none => throw (.argumentExpected (argAt args (i + 1)))
      | some arg => answer (binary w (String.ofList (argAt args (i + 1))) (argAt args i) arg)
    else return !(argAt args i).isEmpty

/-- A condition that may be negated. -/
def negation (w : World) (args : List Bytes) (nested : Nested) (t : Token) : Reader Bool := do
  if t ≠ .operator .not then primary w args nested t
  else
    let next := tokenAt args ((← get) + 1)
    if next ≠ .finish then modify (· + 1)
    return !(← nested .not next)

/-- Conditions joined by an operator; all of them are read. -/
def joined (args : List Bytes) (operator : Kind) (part : Token → Reader Bool)
    (rest : Token → Reader Bool) (combine : Bool → Bool → Bool) (t : Token) : Reader Bool := do
  let first ← part t
  if tokenAt args ((← get) + 1) ≠ .operator operator then return first
  modify (· + 2)
  let others ← rest (tokenAt args (← get))
  return combine first others

/-- A part of a condition, nested `depth` deep at most. -/
def within (w : World) (args : List Bytes) : Nat → Nested
  | 0, _, _ => throw .closingExpected
  | depth + 1, .or, t =>
    joined args .or (within w args depth .and) (within w args depth .or) (· || ·) t
  | depth + 1, .and, t =>
    joined args .and (within w args depth .not) (within w args depth .and) (· && ·) t
  | depth + 1, .not, t => negation w args (within w args depth) t

/-- Whether the condition that starts with a token holds. Nothing may follow it. -/
def whole (w : World) (args : List Bytes) (t : Token) : Except Fault Bool :=
  match within w args (4 * args.length + 4) .or t 0 with
  | .ok result i =>
    match args[i]?, args[i + 1]? with
    | some arg, some _ => .error (.unexpected arg)
    | _, _ => .ok result
  | .error f _ => .error f

/-- Whether a condition holds, which may be negated or stand in parentheses. -/
def decideFrom (w : World) : Bool → List Bytes → Except Fault Bool
  | negated, [] => .ok negated
  | negated, arg :: args =>
    let all := arg :: args
    let result := (whole w all (tokenAt all 0)).map (· != negated)
    if all.length = 3 && (args.head?.bind kind?) == some .binary then
      (whole w all .operand).map (· != negated)
    else if all.length = 3 || all.length = 4 then
      if arg = ['('] ∧ all.getLast? = some [')'] then
        let inner := args.dropLast
        (whole w inner (tokenAt inner 0)).map (· != negated)
      else if arg = ['!'] then decideFrom w true args
      else result
    else result

/-- Whether a condition holds. -/
def decide (w : World) (args : List Bytes) : Except Fault Bool :=
  decideFrom w false args

end AuroraLint.Shell.Condition
