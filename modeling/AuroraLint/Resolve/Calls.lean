import AuroraLint.Resolve.State

/-!
# Calls

* `lookupCallable` : what an unqualified call refers to.
* `checkCall`      : the errors of a call `NAME(args)` or `new NAME(args)`.
-/

set_option autoImplicit false

namespace AuroraLint.Resolve

/-- What an unqualified call refers to: a function, else a method of the innermost enclosing class,
else a method of any class. -/
def lookupCallable (symbols : SymbolTable) (st : State) (name : String) : Option Signature :=
  symbols.function? name <|>
    (st.classes.head?.bind fun (className, _) =>
      (symbols.class? className).bind (·.method? name)) <|>
    symbols.method? name

/-- The error of one argument whose type does not fit its parameter. -/
def checkArgument (doc : Document) (arg : Extent) (param : Parameter) : Option Diagnostic :=
  let (actual, span) := doc.inferExtent arg
  if param.type.accepts actual then none
  else some (.error s!"Type mismatch: expected '{param.type.render}', got '{actual.render}'" span)

/-- The errors of the arguments, each against the parameter in its place. -/
def checkArguments (doc : Document) (args : List Extent) (params : List Parameter) :
    List Diagnostic :=
  (args.zip params).filterMap fun (arg, param) => checkArgument doc arg param

/-- The errors of a call, with its name at token `i`, of a callable that messages name `what`: its
number of arguments, then their types. A list that is never closed is not looked at. -/
def checkAgainst (doc : Document) (i : Nat) (what : String) (s : Signature) : List Diagnostic :=
  match callClose doc.tokens (i + 1) with
  | none => []
  | some closer =>
    let args := splitArguments doc.tokens (i + 1) closer
    let arity :=
      if args.length = s.arity then []
      else
        [.error s!"{what} expects {s.arity} argument(s), but got {args.length}"
          ((doc.token i).span.merge (doc.token closer).span)]
    arity ++ checkArguments doc args s.params

/-- The errors of `NAME(args)` with the name at token `i`. -/
def checkFunctionCall (doc : Document) (symbols : SymbolTable) (st : State) (i : Nat) :
    List Diagnostic :=
  let name := (doc.token i).lexeme
  match lookupCallable symbols st name with
  | none =>
    [(Diagnostic.error s!"Undefined function '{name}'" (doc.token i).span).withSuggestion
      s!"declare it with `fn {name}(...)` or `extern {name}(...)`"]
  | some s => checkAgainst doc i s!"Function '{name}'" s

/-- The errors of `new NAME(args)` with the name at token `i`. A class without constructor takes
any arguments. -/
def checkConstructorCall (doc : Document) (symbols : SymbolTable) (i : Nat) : List Diagnostic :=
  let name := (doc.token i).lexeme
  match symbols.class? name with
  | none => [.error s!"Undefined class '{name}'" (doc.token i).span]
  | some c =>
    match c.constructor? with
    | none => []
    | some s => checkAgainst doc i s!"Constructor of class '{name}'" s

/-- What the token before a name in front of `(` makes of it. -/
inductive CallForm where
  /-- The name is being declared, or is a member; nothing is called that could be looked up. -/
  | notCalled
  | constructor
  | function
  deriving DecidableEq, Repr

/-- The form of the call with its name at token `i`. -/
def callForm (doc : Document) : Nat → CallForm
  | 0 => .function
  | i + 1 =>
    match doc.kind i with
    | .kwFn | .kwExtern | .kwClass | .dot => .notCalled
    | .kwNew => .constructor
    | _ => .function

/-- The errors of the call with its name at token `i`. -/
def checkCall (doc : Document) (symbols : SymbolTable) (st : State) (i : Nat) :
    List Diagnostic :=
  match callForm doc i with
  | .notCalled => []
  | .constructor => checkConstructorCall doc symbols i
  | .function => checkFunctionCall doc symbols st i

end AuroraLint.Resolve
