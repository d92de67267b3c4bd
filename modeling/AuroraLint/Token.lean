import AuroraLint.Span
import AuroraLint.Token.Kind

/-!
# Tokens

* `Token`   : a kind, the text that spells it and where it stands.
* `tokenAt` : a token of a list by index; past the end stands the end of the document.
-/

set_option autoImplicit false

namespace AuroraLint

/-- A piece of code. String literals keep their quotes in the lexeme. -/
structure Token where
  kind : Kind
  lexeme : String
  span : Span
  deriving DecidableEq, Repr

instance : Inhabited Token := ⟨⟨.eof, "", Span.nowhere⟩⟩

namespace Token

/-- The line the token starts on. -/
def line (t : Token) : Nat := t.span.start.line

/-- The text `Kind(lexeme)`. -/
def render (t : Token) : String :=
  s!"{t.kind.name}({t.lexeme})"

end Token

/-- The token at an index. -/
def tokenAt (tokens : List Token) (i : Nat) : Token :=
  tokens.getD i default

/-- The kind of the token at an index; `eof` past the end. -/
def kindAt (tokens : List Token) (i : Nat) : Kind :=
  (tokenAt tokens i).kind

@[simp] theorem kindAt_of_length_le {tokens : List Token} {i : Nat} (h : tokens.length ≤ i) :
    kindAt tokens i = .eof := by
  simp [kindAt, tokenAt, List.getD, List.getElem?_eq_none h]
  rfl

end AuroraLint
