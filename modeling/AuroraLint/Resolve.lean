import AuroraLint.Resolve.Calls
import AuroraLint.Resolve.Variables

/-!
# Scope resolution

One walk over the tokens that checks calls, declarations, assignments and literals against the
symbol table and the open scopes.

* `Resolve.findings` : what is wrong at a token, given the state before it.
* `Resolve.check`    : what is wrong in a document, token by token.
-/

set_option autoImplicit false

namespace AuroraLint.Resolve

/-- The errors at the identifier at token `i`: of a call, or of an assignment. -/
def checkIdentifier (doc : Document) (symbols : SymbolTable) (st : State) (i : Nat) :
    List Diagnostic :=
  if doc.kind (i + 1) = .leftParen then checkCall doc symbols st i
  else if (doc.kind (i + 1)).isAssignment && isStatementStart doc i then checkAssignment doc st i
  else []

/-- The errors at token `i`, given the state before it. -/
def findings (doc : Document) (symbols : SymbolTable) (st : State) (i : Nat) : List Diagnostic :=
  match doc.kind i with
  | .kwLet | .kwVar => checkDeclaration doc st i
  | .identifier => checkIdentifier doc symbols st i
  | .stringLiteral => checkLiteralOperation doc i
  | _ => []

/-- The errors at `n` tokens from index `i` on, where `st` is the state before token `i`. -/
def walk (doc : Document) (symbols : SymbolTable) (st : State) (i : Nat) : Nat → List Diagnostic
  | 0 => []
  | n + 1 => findings doc symbols st i ++ walk doc symbols (st.step doc i) (i + 1) n

/-- The errors of a document in the order of its tokens. -/
def check (doc : Document) (symbols : SymbolTable) : List Diagnostic :=
  walk doc symbols {} 0 doc.tokens.length

theorem walk_eq (doc : Document) (symbols : SymbolTable) (i n : Nat) :
    walk doc symbols (stateBefore doc i) i n =
      (List.range' i n).flatMap fun k => findings doc symbols (stateBefore doc k) k := by
  induction n generalizing i with
  | zero => rfl
  | succ n ih =>
    rw [walk, List.range'_succ, List.flatMap_cons, ← ih (i + 1)]
    rfl

/-- The walk reports at each token what is wrong there in the state before it. -/
theorem check_eq (doc : Document) (symbols : SymbolTable) :
    check doc symbols = (List.range doc.tokens.length).flatMap fun i =>
      findings doc symbols (stateBefore doc i) i := by
  rw [List.range_eq_range']
  exact walk_eq doc symbols 0 doc.tokens.length

end AuroraLint.Resolve
