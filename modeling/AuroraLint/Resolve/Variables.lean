import AuroraLint.Resolve.State

/-!
# Declarations, assignments and literals

* `checkDeclaration`      : a name declared again, or a value of the wrong type.
* `checkAssignment`       : a name that is unknown, or that cannot be assigned.
* `checkLiteralOperation` : arithmetic on a string literal and a number or boolean.
-/

set_option autoImplicit false

namespace AuroraLint.Resolve

/-- The error of an initial value that does not fit the annotation. -/
def checkInitializer (doc : Document) (d : VarDecl) : List Diagnostic :=
  match d.type, d.init with
  | some t, some e =>
    let declared := Ty.ofName t.text
    let (actual, span) := doc.inferExtent e
    if declared.accepts actual then []
    else
      [.error s!"Type mismatch: cannot assign '{actual.render}' to '{declared.render}'"
        (d.nameSpan.merge span)]
  | _, _ => []

/-- The errors of the declaration at token `i`. A name that the innermost scope has is reported and
nothing else of the declaration is looked at. -/
def checkDeclaration (doc : Document) (st : State) (i : Nat) : List Diagnostic :=
  match varDeclAt doc.tokens i with
  | none => []
  | some d =>
    match st.scopes.lookupCurrent d.name with
    | some earlier =>
      let message := s!"Variable '{d.name}' is already declared at line {earlier.declaredAt.line}"
      [(Diagnostic.error message d.nameSpan).withRelated earlier.declaredAt
        "Previous declaration here"]
    | none => checkInitializer doc d

/-- The errors of an assignment to the name at token `i`. -/
def checkAssignment (doc : Document) (st : State) (i : Nat) : List Diagnostic :=
  let name := (doc.token i).lexeme
  let span := (doc.token i).span
  match st.scopes.lookup name with
  | none => [.error s!"Undefined variable '{name}'" span]
  | some v =>
    if v.kind.isAssignable then []
    else
      let message := s!"Cannot assign to immutable variable '{name}'. Declared with 'let' at " ++
        s!"line {v.declaredAt.line}. Use 'var' for mutable variables."
      [((Diagnostic.error message span).withRelated v.declaredAt "Declared here").withSuggestion
        s!"declare it as `var {name}`"]

/-- What messages call a literal that cannot be joined to a string by arithmetic. -/
def operandName : Kind → Option String
  | .intLiteral | .floatLiteral => some "number"
  | .kwTrue | .kwFalse => some "boolean"
  | _ => none

/-- The error of `"..." OP literal` with the string at token `i`. -/
def checkLiteralOperation (doc : Document) (i : Nat) : List Diagnostic :=
  if (doc.kind (i + 1)).isArithmetic then
    match operandName (doc.kind (i + 2)) with
    | some operand =>
      let message := s!"Cannot perform arithmetic operation '{(doc.token (i + 1)).lexeme}' " ++
        s!"on string and {operand}"
      [.error message ((doc.token i).span.merge (doc.token (i + 2)).span)]
    | none => []
  else []

/-- A statement can start at token `i`: it is the first on its line, or stands right after `;` or
a brace. -/
def isStatementStart (doc : Document) (i : Nat) : Bool :=
  startsLine doc.tokens i ||
    match doc.kind (i - 1) with
    | .semicolon | .leftBrace | .rightBrace => true
    | _ => false

end AuroraLint.Resolve
