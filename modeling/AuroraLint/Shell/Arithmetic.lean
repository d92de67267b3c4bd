import AuroraLint.Shell.Command
import AuroraLint.Shell.Numeral

/-!
# Arithmetic

Expressions on whole numbers of 64 bits. An operation that leaves their range goes on at its other
end.

* `Arithmetic.wrap`     : the number of 64 bits that a whole number becomes.
* `Arithmetic.integer?` : the number that a text is.
* `Arithmetic.evaluate` : the value of an expression, and the variables that it sets.

Where a value decides that a part of an expression does not count, that part is read but not
carried out.

Part of the host of recorded runs (`Workspace.host`); no result is about it.
-/

set_option autoImplicit false

namespace AuroraLint.Shell.Arithmetic

/-! ## Numbers -/

/-- The number of 64 bits that a whole number becomes. -/
def wrap (n : Int) : Int :=
  Int.bmod n 18446744073709551616

/-- The greatest number. -/
def greatest : Nat := 9223372036854775807

/-- The digits of a number in base 10, in base 8 after a zero or in base 16 after `0x`, at the head of
a text: its size and what follows it. -/
def digits (cs : Bytes) : Nat × Bytes :=
  let take := fun (base : Nat) (ds : Bytes) =>
    (Numeral.value base (ds.takeWhile (Numeral.isDigit base)),
      ds.dropWhile (Numeral.isDigit base))
  match cs with
  | '0' :: x :: d :: rest =>
    if x.toLower = 'x' ∧ Numeral.isDigit 16 d then take 16 (d :: rest) else take 8 cs
  | '0' :: _ => take 8 cs
  | _ => take 10 cs

/-- The number that a text is, with blanks around it; a blank text is zero. -/
def integer? (text : Bytes) : Option Int :=
  if text.all Numeral.isBlank then some 0
  else
    let (negative, ds) := Numeral.sign text
    let (size, rest) := digits ds
    let bound := if negative then greatest + 1 else greatest
    if !ds.head?.any Char.isDigit || !rest.all Numeral.isBlank || bound < size then none
    else some (if negative then -(size : Int) else size)

/-! ## Tokens -/

/-- Operations on two numbers. -/
inductive Operation where
  | multiply | divide | remainder | add | subtract | shiftLeft | shiftRight
  | less | lessEqual | greater | greaterEqual | equal | notEqual
  | bitAnd | bitXor | bitOr
  deriving DecidableEq, Repr

/-- Operations that bind more closely come first. -/
def Operation.rank : Operation → Nat
  | .multiply | .divide | .remainder => 0
  | .add | .subtract => 1
  | .shiftLeft | .shiftRight => 2
  | .less | .lessEqual | .greater | .greaterEqual => 3
  | .equal | .notEqual => 4
  | .bitAnd => 5
  | .bitXor => 6
  | .bitOr => 7

/-- What an expression is made of. -/
inductive Token where
  | finish
  | number (n : Int)
  | name (n : Bytes)
  | operation (o : Operation)
  /-- A variable is set, by an operation on its value. -/
  | assign (o : Option Operation)
  | and | or | not | complement
  | question | colon
  | openParen | closeParen
  | unknown
  deriving DecidableEq, Repr

/-- An operator that sets a variable if an equals sign follows. -/
def orAssign (o : Operation) : Bytes → Token × Bytes
  | '=' :: rest => (.assign (some o), rest)
  | rest => (.operation o, rest)

/-- The first token of a text that does not start with a blank, and what follows it. -/
def lex (cs : Bytes) : Token × Bytes :=
  match cs with
  | [] => (.finish, [])
  | '=' :: '=' :: rest => (.operation .equal, rest)
  | '=' :: rest => (.assign none, rest)
  | '>' :: '=' :: rest => (.operation .greaterEqual, rest)
  | '>' :: '>' :: rest => orAssign .shiftRight rest
  | '>' :: rest => (.operation .greater, rest)
  | '<' :: '=' :: rest => (.operation .lessEqual, rest)
  | '<' :: '<' :: rest => orAssign .shiftLeft rest
  | '<' :: rest => (.operation .less, rest)
  | '|' :: '|' :: rest => (.or, rest)
  | '|' :: rest => orAssign .bitOr rest
  | '&' :: '&' :: rest => (.and, rest)
  | '&' :: rest => orAssign .bitAnd rest
  | '!' :: '=' :: rest => (.operation .notEqual, rest)
  | '!' :: rest => (.not, rest)
  | '(' :: rest => (.openParen, rest)
  | ')' :: rest => (.closeParen, rest)
  | '*' :: rest => orAssign .multiply rest
  | '/' :: rest => orAssign .divide rest
  | '%' :: rest => orAssign .remainder rest
  | '+' :: rest => orAssign .add rest
  | '-' :: rest => orAssign .subtract rest
  | '^' :: rest => orAssign .bitXor rest
  | '~' :: rest => (.complement, rest)
  | '?' :: rest => (.question, rest)
  | ':' :: rest => (.colon, rest)
  | c :: _ =>
    if c.isDigit then
      let (n, rest) := digits cs
      (.number (min n greatest : Nat), rest)
    else if isNameStart c then (.name (cs.takeWhile isNameChar), cs.dropWhile isNameChar)
    else (.unknown, cs)

/-- A blank between tokens. -/
def isGap (c : Char) : Bool :=
  c == ' ' || c == '\t' || c == '\n'

/-! ## Evaluation -/

/-- Why an expression has no value. -/
inductive Fault where
  /-- The expression is not written as one. -/
  | malformed (expected : String)
  | divisionByZero
  /-- The value of a variable is no number. -/
  | noNumber (text : Bytes)
  deriving DecidableEq, Repr

/-- The evaluation of an expression: what is left of it, its next token, the values of variables and
those that have been set, the latest first. -/
structure State where
  rest : Bytes
  token : Token := .finish
  values : Bytes → Bytes
  settings : List (Bytes × Int) := []

/-- Evaluation, which can fail. -/
abbrev Eval := EStateM Fault State

/-- Passes over the token at hand. -/
def advance : Eval Unit :=
  modify fun s =>
    let (token, rest) := lex (s.rest.dropWhile isGap)
    { s with token, rest }

/-- The number that a variable stands for. -/
def valueOf (name : Bytes) : Eval Int := do
  let s ← get
  match s.settings.lookup name with
  | some n => return n
  | none =>
    match integer? (s.values name) with
    | some n => return n
    | none => throw (.noNumber (s.values name))

/-- The number of a truth value. -/
def ofBool (b : Bool) : Int :=
  if b then 1 else 0

/-- Combines the bits of two numbers. -/
def bitwise (f : BitVec 64 → BitVec 64 → BitVec 64) (a b : Int) : Int :=
  (f (BitVec.ofInt 64 a) (BitVec.ofInt 64 b)).toInt

/-- How many places a number shifts by: its value modulo 64. -/
def places (b : Int) : Nat :=
  (b % 64).toNat

/-- The result of an operation. A quotient is rounded toward zero. -/
def apply (o : Operation) (a b : Int) : Eval Int :=
  match o with
  | .multiply => pure (wrap (a * b))
  | .divide => if b = 0 then throw .divisionByZero else pure (wrap (a.tdiv b))
  | .remainder => if b = 0 then throw .divisionByZero else pure (a.tmod b)
  | .add => pure (wrap (a + b))
  | .subtract => pure (wrap (a - b))
  | .shiftLeft => pure (wrap (a * Nat.pow 2 (places b)))
  | .shiftRight => pure (a / (Nat.pow 2 (places b) : Nat))
  | .less => pure (ofBool (a < b))
  | .lessEqual => pure (ofBool (a ≤ b))
  | .greater => pure (ofBool (b < a))
  | .greaterEqual => pure (ofBool (b ≤ a))
  | .equal => pure (ofBool (a = b))
  | .notEqual => pure (ofBool (a ≠ b))
  | .bitAnd => pure (bitwise (· &&& ·) a b)
  | .bitXor => pure (bitwise (· ^^^ ·) a b)
  | .bitOr => pure (bitwise (· ||| ·) a b)

/-- What an expression can be inside another. -/
inductive Goal where
  /-- A number, a name, an expression in parentheses, or one of these behind signs. -/
  | primary
  /-- Operations on `left` up to one that binds as loosely as `limit`. -/
  | operations (left : Int) (limit : Nat)
  | conjunction
  | disjunction
  | conditional
  | assignment
  deriving DecidableEq, Repr

/-- A part of an expression that counts or does not. -/
abbrev Nested := Goal → Bool → Eval Int

/-- A number, a name, an expression in parentheses, or one of these behind signs. -/
def primary (nested : Nested) (counts : Bool) : Eval Int := do
  match (← get).token with
  | .openParen =>
    advance
    let n ← nested .assignment counts
    if (← get).token ≠ .closeParen then throw (.malformed "')'")
    advance
    return n
  | .number n =>
    advance
    return n
  | .name name =>
    advance
    if counts then valueOf name else return 0
  | .operation .add =>
    advance
    nested .primary counts
  | .operation .subtract =>
    advance
    return wrap (-(← nested .primary counts))
  | .not =>
    advance
    return ofBool ((← nested .primary counts) = 0)
  | .complement =>
    advance
    return -(← nested .primary counts) - 1
  | _ => throw (.malformed "primary")

/-- The operations on `left` that bind more closely than `limit`. -/
def operations (nested : Nested) (left : Int) (limit : Nat) (counts : Bool) : Eval Int := do
  match (← get).token with
  | .operation o =>
    if limit ≤ o.rank then return left
    advance
    let right ← nested .primary counts
    let right ← nested (.operations right o.rank) counts
    let result ← if counts then apply o left right else pure right
    nested (.operations result limit) counts
  | _ => return left

/-- The rank behind all operations. -/
def maxRank : Nat := 8

/-- Expressions joined by `&&`. -/
def conjunction (nested : Nested) (counts : Bool) : Eval Int := do
  let a ← nested .primary counts
  let a ← nested (.operations a maxRank) counts
  if (← get).token ≠ .and then return a
  advance
  let b ← nested .conjunction (counts && a != 0)
  return ofBool (a ≠ 0 ∧ b ≠ 0)

/-- Expressions joined by `||`. -/
def disjunction (nested : Nested) (counts : Bool) : Eval Int := do
  let a ← nested .conjunction counts
  if (← get).token ≠ .or then return a
  advance
  let b ← nested .disjunction (counts && a == 0)
  return ofBool (a ≠ 0 ∨ b ≠ 0)

/-- An expression that may choose between two others. -/
def conditional (nested : Nested) (counts : Bool) : Eval Int := do
  let a ← nested .disjunction counts
  if (← get).token ≠ .question then return a
  advance
  let yes ← nested .assignment (counts && a != 0)
  if (← get).token ≠ .colon then throw (.malformed "':'")
  advance
  let no ← nested .conditional (counts && a == 0)
  return if a ≠ 0 then yes else no

/-- An expression that may set a variable. -/
def assignment (nested : Nested) (counts : Bool) : Eval Int := do
  let s ← get
  match s.token, lex (s.rest.dropWhile isGap) with
  | .name name, (.assign o, _) =>
    advance
    advance
    let n ← nested .assignment counts
    if !counts then return n
    let n ← match o with
      | none => pure n
      | some o => apply o (← valueOf name) n
    modify fun s => { s with settings := (name, n) :: s.settings }
    return n
  | _, _ => nested .conditional counts

/-- An expression of a kind, nested `depth` deep at most. -/
def within : Nat → Nested
  | 0, _, _ => throw (.malformed "primary")
  | depth + 1, goal, counts =>
    match goal with
    | .primary => primary (within depth) counts
    | .operations left limit => operations (within depth) left limit counts
    | .conjunction => conjunction (within depth) counts
    | .disjunction => disjunction (within depth) counts
    | .conditional => conditional (within depth) counts
    | .assignment => assignment (within depth) counts

/-- A whole expression. -/
def expression (depth : Nat) : Eval Int := do
  advance
  let n ← within depth .assignment true
  if (← get).token ≠ .finish then throw (.malformed "EOF")
  return n

/-- The value of an expression or why it has none, and the variables that it sets, in order. -/
def evaluate (values : Bytes → Bytes) (text : Bytes) :
    Except Fault Int × List (Bytes × Int) :=
  match expression (8 * text.length + 16) { rest := text, values } with
  | .ok n s => (.ok n, s.settings.reverse)
  | .error f s => (.error f, s.settings.reverse)

/-- What is said about a fault in the expression `text`. -/
def Fault.message (text : Bytes) : Fault → Bytes
  | .malformed expected =>
    ("arithmetic expression: expecting " ++ expected ++ ": \"").toList ++ text ++ ['"']
  | .divisionByZero => "arithmetic expression: division by zero: \"".toList ++ text ++ ['"']
  | .noNumber value => "Illegal number: ".toList ++ value

end AuroraLint.Shell.Arithmetic
