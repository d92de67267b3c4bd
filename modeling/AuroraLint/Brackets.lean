import AuroraLint.Diagnostic
import AuroraLint.Token

/-!
# Bracket balance

* `Brackets.Verdict`  : what becomes of a bracket.
* `Brackets.verdicts` : the verdicts on the brackets of a token list.
* `Brackets.check`    : the errors among them.
-/

set_option autoImplicit false

namespace AuroraLint.Brackets

/-- An opening bracket that waits for its closer. -/
structure Opener where
  index : Nat
  token : Token
  shape : BracketShape
  deriving DecidableEq, Repr

/-- What becomes of a bracket. -/
inductive Verdict where
  /-- An opener and the closer of its shape. -/
  | matched (opener : Opener) (index : Nat) (closer : Token)
  /-- A closer that meets an opener of another shape; both are used up. -/
  | mismatched (opener : Opener) (index : Nat) (closer : Token) (found : BracketShape)
  /-- A closer that meets no opener. -/
  | unexpected (index : Nat) (closer : Token) (found : BracketShape)
  /-- An opener that no closer meets. -/
  | unclosed (opener : Opener)
  deriving DecidableEq, Repr

/-- The verdicts on a list of tokens with their indices; `waiting` holds the open brackets, the
innermost first. Brackets left open come last, in the order they stand in the document. -/
def verdictsFrom (waiting : List Opener) : List (Token × Nat) → List Verdict
  | [] => waiting.reverse.map .unclosed
  | (t, i) :: rest =>
    match t.kind.opens?, t.kind.closes?, waiting with
    | some shape, _, _ => verdictsFrom (⟨i, t, shape⟩ :: waiting) rest
    | none, none, _ => verdictsFrom waiting rest
    | none, some shape, [] => .unexpected i t shape :: verdictsFrom [] rest
    | none, some shape, o :: os =>
      (if o.shape = shape then .matched o i t else .mismatched o i t shape) :: verdictsFrom os rest

/-- The verdicts on the brackets of a token list. -/
def verdicts (ts : List Token) : List Verdict :=
  verdictsFrom [] ts.zipIdx

/-- The error that a verdict stands for; matched brackets are in order. -/
def Verdict.diagnostic? : Verdict → Option Diagnostic
  | .matched .. => none
  | .unexpected _ closer found =>
    some (.error s!"Unexpected closing '{found.closeChar}' - no matching opening bracket"
      closer.span)
  | .mismatched opener _ closer found =>
    let message := s!"Mismatched bracket: expected '{opener.shape.closeChar}' but found " ++
      s!"'{found.closeChar}' (to match '{opener.shape.openChar}' at line {opener.token.line})"
    some ((Diagnostic.error message closer.span).withRelated opener.token.span
      s!"Opening '{opener.shape.openChar}' here")
  | .unclosed opener =>
    let message := s!"Unclosed '{opener.shape.openChar}' - expected " ++
      s!"'{opener.shape.closeChar}' before end of file"
    some (.error message opener.token.span)

/-- The bracket errors of a token list, each at the bracket it is about. -/
def check (ts : List Token) : List Diagnostic :=
  (verdicts ts).filterMap Verdict.diagnostic?

end AuroraLint.Brackets
