import AuroraLint.Text.Blank
import AuroraLint.Token.Kind

/-!
# Lexemes

How far a token reaches, read off the characters alone.

* `trivia`      : the length of the blanks and comments at the head of a text.
* `Lexeme.read` : the kind and length of the token at the head of a text.
-/

set_option autoImplicit false

namespace AuroraLint

/-! ## What lies between tokens -/

/-- The number of characters of blanks and comments at the head of a text. A comment runs from `#`
to the end of its line; `inComment` says that one is open. -/
def trivia (inComment : Bool) : List Char → Nat
  | [] => 0
  | c :: cs =>
    if inComment then
      if c = '\n' then trivia false cs + 1 else trivia true cs + 1
    else if Text.isBlank c then trivia false cs + 1
    else if c = '#' then trivia true cs + 1
    else 0

/-! ## The shapes of tokens -/

/-- A letter or underscore: what a name starts with. -/
def isNameStart (c : Char) : Bool :=
  c.isAlpha || c == '_'

/-- A letter, digit or underscore: what a name goes on with. -/
def isNamePart (c : Char) : Bool :=
  c.isAlphanum || c == '_'

/-- A token by its extent: one character and `more` after it. `terminated` is false for a string
literal that its line cuts off. -/
structure Lexeme where
  kind : Kind
  more : Nat
  terminated : Bool := true
  deriving DecidableEq, Repr

namespace Lexeme

/-- How many characters of `cs` belong to a string literal whose last character so far is `prev`,
and whether it is closed. A quote closes it unless a backslash precedes. -/
def stringTail (prev : Char) : List Char → Nat × Bool
  | [] => (0, false)
  | c :: cs =>
    if c = '"' ∧ prev ≠ '\\' then (1, true)
    else if c = '\n' then (0, false)
    else
      let (n, closed) := stringTail c cs
      (n + 1, closed)

/-- The number of digits at the head of a text. -/
def digits (cs : List Char) : Nat :=
  (cs.takeWhile Char.isDigit).length

/-- A number whose first digit has been read. A point makes it a float, unless a second point or a
name follows: `1..5` is a range and `1.x` a member. -/
def number (cs : List Char) : Lexeme :=
  let whole := digits cs
  match cs.drop whole with
  | '.' :: after =>
    if after.head?.any (fun c => c == '.' || isNameStart c) then ⟨.intLiteral, whole, true⟩
    else ⟨.floatLiteral, whole + 1 + digits after, true⟩
  | _ => ⟨.intLiteral, whole, true⟩

/-- A name that starts with `c`: a reserved word or an identifier. -/
def name (c : Char) (cs : List Char) : Lexeme :=
  let tail := cs.takeWhile isNamePart
  ⟨(Kind.keyword? (String.ofList (c :: tail))).getD .identifier, tail.length, true⟩

/-- The longest symbol at the head of a text, or a single unknown character. -/
def symbol (c : Char) (cs : List Char) : Lexeme :=
  match Kind.symbols.find? fun (spelling, _) => spelling.isPrefixOf (c :: cs) with
  | some (spelling, kind) => ⟨kind, spelling.length - 1, true⟩
  | none => ⟨.unknown, 0, true⟩

/-- The token that starts with `c` and may go on into `cs`. A quote right after a backslash opens
no string. -/
def read (prev : Option Char) (c : Char) (cs : List Char) : Lexeme :=
  if c = '"' then
    if prev = some '\\' then ⟨.unknown, 0, true⟩
    else
      let (n, closed) := stringTail c cs
      ⟨.stringLiteral, n, closed⟩
  else if c.isDigit then number cs
  else if isNameStart c then name c cs
  else if c = '.' ∧ 0 < digits cs then ⟨.floatLiteral, digits cs, true⟩
  else symbol c cs

end Lexeme

end AuroraLint
