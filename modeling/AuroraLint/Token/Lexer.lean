import AuroraLint.Cursor
import AuroraLint.Diagnostic
import AuroraLint.Token
import AuroraLint.Token.Lexeme

/-!
# From text to tokens

* `Lexer.scan`     : the tokens ahead of a cursor, each with the mark of a finished literal.
* `Lexer.tokenize` : the tokens of a document and the errors met on the way.
-/

set_option autoImplicit false

namespace AuroraLint.Lexer

/-- A token and whether it is finished; only a string literal cut off by its line is not. -/
structure Scanned where
  token : Token
  terminated : Bool
  deriving DecidableEq, Repr

/-- The tokens ahead of a cursor. The end of the document is always the last. -/
def scan (c : Cursor) : List Scanned :=
  let start := c.skip (trivia false c.rest)
  match h : start.rest with
  | [] => [⟨⟨.eof, "", start.spanFrom start.pos⟩, true⟩]
  | ch :: cs =>
    let lexeme := Lexeme.read start.prev ch cs
    let stop := start.skip (lexeme.more + 1)
    let text := String.ofList (ch :: cs.take lexeme.more)
    ⟨⟨lexeme.kind, text, stop.spanFrom start.pos⟩, lexeme.terminated⟩ :: scan stop
termination_by c.rest.length
decreasing_by
  have h' := congrArg List.length h
  simp only [start, Cursor.rest_skip, List.length_drop, List.length_cons] at h' ⊢
  omega

/-- The error of a string literal that its line cuts off. -/
def Scanned.diagnostic? (s : Scanned) : Option Diagnostic :=
  if s.terminated then none
  else some (.error "unterminated string literal" s.token.span)

/-- The tokens of a document, the end of the document last, and its lexical errors. -/
def tokenize (file : String) (text : String) : List Token × List Diagnostic :=
  let scanned := scan (Cursor.ofText file text.toList)
  (scanned.map (·.token), scanned.filterMap Scanned.diagnostic?)

end AuroraLint.Lexer
