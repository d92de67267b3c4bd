import AuroraLint.Document
import AuroraLint.Header.Reader
import AuroraLint.Symbols.Collect

/-!
# Return statements

Every `fn` with a body is checked on its own; without annotation it returns nothing.

* `Returns.checkFunction` : what is wrong with the returns of one function.
* `Returns.check`         : the same for every function of a document.
-/

set_option autoImplicit false

namespace AuroraLint.Returns

/-- The `return` at token `i` gives a value: something other than `;` and `}` follows on its
line. -/
def hasValue (doc : Document) (i : Nat) : Bool :=
  !endsLine doc.tokens i &&
    match doc.kind (i + 1) with
    | .semicolon | .rightBrace => false
    | _ => true

/-- The error of the `return` at token `i` in a function with a name and return type. -/
def checkReturn (doc : Document) (name : String) (returnType : Ty) (i : Nat) :
    Option Diagnostic :=
  match hasValue doc i, returnType == .void with
  | true, true =>
    some (.error s!"Cannot return a value from a void function '{name}'"
      (doc.source.toLineEnd (doc.token i).span.start))
  | false, false =>
    let message := s!"Cannot use empty return in non-void function '{name}'. " ++
      s!"Expected return type: '{returnType.render}'"
    some (.error message (doc.token i).span)
  | _, _ => none

/-- The tokens `return` strictly between two indices. -/
def returnsBetween (doc : Document) (opener closer : Nat) : List Nat :=
  (List.range' (opener + 1) (closer - (opener + 1))).filter fun i => doc.kind i == .kwReturn

/-- The errors of the function with a header whose body opens at token `body`. -/
def checkFunction (doc : Document) (h : FnHeader) (body : Nat) : List Diagnostic :=
  let returnType := TypeRef.typeOr h.returnType .void
  let returns := returnsBetween doc body (blockEnd doc.tokens body)
  let missing :=
    if returns.isEmpty && returnType != .void then
      let message := s!"Function '{h.name}' with return type '{returnType.render}' " ++
        "should have at least one return statement"
      [.warning message h.span]
    else []
  returns.filterMap (checkReturn doc h.name returnType) ++ missing

/-- The errors of the function that starts at token `i`, if one with a body does. -/
def checkAt (doc : Document) (i : Nat) : List Diagnostic :=
  match fnHeaderAt doc.tokens i with
  | some h =>
    match h.body with
    | some body => checkFunction doc h body
    | none => []
  | none => []

/-- The errors of every function of a document. -/
def check (doc : Document) : List Diagnostic :=
  (List.range doc.tokens.length).flatMap (checkAt doc)

end AuroraLint.Returns
