import AuroraLint.Token

/-!
# Extents in a token list

Where calls, arguments, expressions and blocks end. All indices count tokens from 0.

* `callClose`      : the parenthesis that closes an argument list.
* `splitArguments` : the arguments between two parentheses.
* `expressionEnd`  : the end of the expression that starts at a token.
* `blockEnd`       : the brace that closes a block.
* `startsLine`, `endsLine` : a token's place on its line.
-/

set_option autoImplicit false

namespace AuroraLint

/-- The token indices from `start` up to, not including, `stop`. -/
structure Extent where
  start : Nat
  stop : Nat
  deriving DecidableEq, Repr, Inhabited

namespace Extent

/-- The tokens of an extent. -/
def tokens (e : Extent) (ts : List Token) : List Token :=
  (ts.drop e.start).take (e.stop - e.start)

/-- The span from the first to the last token of a non-empty extent. -/
def span (e : Extent) (ts : List Token) : Span :=
  (tokenAt ts e.start).span.merge (tokenAt ts (e.stop - 1)).span

end Extent

/-! ## Argument lists -/

/-- Opens a nested list: `(` or `[`. -/
def Kind.opensList : Kind → Bool
  | .leftParen | .leftBracket => true
  | _ => false

/-- Closes a nested list: `)` or `]`. -/
def Kind.closesList : Kind → Bool
  | .rightParen | .rightBracket => true
  | _ => false

/-- Cannot stand in an argument list: a brace, `;` or the end of the document. -/
def Kind.breaksList : Kind → Bool
  | .leftBrace | .rightBrace | .semicolon | .eof => true
  | _ => false

/-- The index of the `)` that brings the nesting depth back to zero, where the head of `ts` has
index `i` and stands at nesting `depth`. -/
def closeFrom (depth i : Nat) : List Token → Option Nat
  | [] => none
  | t :: ts =>
    if t.kind.opensList then closeFrom (depth + 1) (i + 1) ts
    else if t.kind.closesList then
      if depth ≤ 1 then (if t.kind = .rightParen then some i else none)
      else closeFrom (depth - 1) (i + 1) ts
    else if t.kind.breaksList then none
    else closeFrom depth (i + 1) ts

/-- The `)` that closes the list opened at `opener`; `none` when a brace, `;`, a `]` or the end of
the document comes first. -/
def callClose (ts : List Token) (opener : Nat) : Option Nat :=
  closeFrom 0 opener (ts.drop opener)

/-- The segment from `start` to `stop`, unless it is empty. -/
def segment (start stop : Nat) : List Extent :=
  if start < stop then [⟨start, stop⟩] else []

/-- The segments between the commas of nesting depth zero; the head of the list has index `i`, and
the segment being read began at `start`. -/
def splitFrom (depth start i : Nat) : List Token → List Extent
  | [] => segment start i
  | t :: ts =>
    if t.kind.opensList then splitFrom (depth + 1) start (i + 1) ts
    else if t.kind.closesList then splitFrom (depth - 1) start (i + 1) ts
    else if t.kind = .comma ∧ depth = 0 then segment start i ++ splitFrom depth (i + 1) (i + 1) ts
    else splitFrom depth start (i + 1) ts

/-- The arguments strictly between `opener` and `closer`. Empty ones are dropped, so `f()` has none
and `f(a,)` one. -/
def splitArguments (ts : List Token) (opener closer : Nat) : List Extent :=
  splitFrom 0 (opener + 1) (opener + 1) ((ts.drop (opener + 1)).take (closer - (opener + 1)))

/-! ## Expressions -/

/-- Ends an expression that is not inside brackets. -/
def Kind.endsExpression : Kind → Bool
  | .eof | .semicolon | .leftBrace | .rightBrace | .rightParen | .rightBracket | .comma
  | .kwLet | .kwVar | .kwFn | .kwClass | .kwExtern | .kwReturn => true
  | _ => false

/-- Ends an expression even inside brackets: a body and the end of the document are never part of
one. -/
def Kind.endsAnyExpression : Kind → Bool
  | .leftBrace | .rightBrace | .eof => true
  | _ => false

/-- The index after the expression whose rest is the list; its head has index `i` and nesting
`depth`, and the token before stood on `lastLine`. -/
def expressionFrom (depth lastLine i : Nat) : List Token → Nat
  | [] => i
  | t :: ts =>
    if depth = 0 ∧ (t.kind.endsExpression ∨ t.line ≠ lastLine) then i
    else if t.kind.endsAnyExpression then i
    else
      let depth :=
        if t.kind.opensList then depth + 1
        else if t.kind.closesList then depth - 1
        else depth
      expressionFrom depth t.line (i + 1) ts

/-- The index after the expression that starts at `start`. It runs to the end of its line, and over
the line's end only while a bracket is open. -/
def expressionEnd (ts : List Token) (start : Nat) : Nat :=
  match ts.drop start with
  | [] => start
  | t :: rest => expressionFrom 0 t.line start (t :: rest)

/-! ## Blocks -/

/-- The index of the `}` that brings the brace depth to zero, or of the end of the document. -/
def blockFrom (depth i : Nat) : List Token → Option Nat
  | [] => none
  | t :: ts =>
    match t.kind with
    | .leftBrace => blockFrom (depth + 1) (i + 1) ts
    | .rightBrace => if depth ≤ 1 then some i else blockFrom (depth - 1) (i + 1) ts
    | .eof => some i
    | _ => blockFrom depth (i + 1) ts

/-- The `}` that closes the `{` at `opener`, or the end of the document if none does. -/
def blockEnd (ts : List Token) (opener : Nat) : Nat :=
  (blockFrom 0 opener (ts.drop opener)).getD (ts.length - 1)

/-! ## Places on a line -/

/-- The token is the first on its line. -/
def startsLine (ts : List Token) (i : Nat) : Bool :=
  i == 0 || (tokenAt ts (i - 1)).line != (tokenAt ts i).line

/-- The token is the last on its line, the end of the document apart. -/
def endsLine (ts : List Token) (i : Nat) : Bool :=
  match ts[i + 1]? with
  | some next => next.kind == .eof || next.line != (tokenAt ts i).line
  | none => true

/-! ## Bounds -/

theorem closeFrom_bounds {depth i j : Nat} {ts : List Token} (h : closeFrom depth i ts = some j) :
    i ≤ j ∧ j < i + ts.length := by
  fun_induction closeFrom depth i ts with
  | case1 => simp at h
  | case2 _ _ _ _ _ ih => have := ih h; simp only [List.length_cons]; omega
  | case3 => simp only [Option.some.injEq] at h; subst h; simp
  | case4 => simp at h
  | case5 _ _ _ _ _ _ _ ih => have := ih h; simp only [List.length_cons]; omega
  | case6 => simp at h
  | case7 _ _ _ _ _ _ _ ih => have := ih h; simp only [List.length_cons]; omega

/-- A closing parenthesis stands at or after its opener and within the list. -/
theorem callClose_bounds {ts : List Token} {opener closer : Nat}
    (h : callClose ts opener = some closer) : opener ≤ closer ∧ closer < ts.length := by
  have hb := closeFrom_bounds h
  simp only [List.length_drop] at hb
  omega

end AuroraLint
