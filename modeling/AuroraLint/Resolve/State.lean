import AuroraLint.Document
import AuroraLint.Scope
import AuroraLint.Symbols.Collect

/-!
# The state of the walk

While the tokens are walked through in order, the open scopes are kept in step with the braces.

* `Resolve.State`       : the open scopes, the enclosing classes and the bodies waited for.
* `State.step`          : the state after one more token.
* `Resolve.stateBefore` : the state just before a token.

No part of the state depends on the symbol table.
-/

set_option autoImplicit false

namespace AuroraLint.Resolve

/-- What is known just before a token. -/
structure State where
  scopes : ScopeStack := {}
  /-- The `{` of the function header last seen, with its parameters. -/
  awaitedBody : Option (Nat × List Param) := none
  /-- The `{` of the class header last seen, with the name of the class. -/
  awaitedClass : Option (Nat × String) := none
  /-- The name of a `for` loop, as a token index, until a block takes it. -/
  awaitedBinding : Option Nat := none
  /-- The enclosing classes, the innermost first, with the scope depth of each body. -/
  classes : List (String × Nat) := []
  deriving DecidableEq, Repr

/-! ## Variables that tokens introduce -/

/-- The variable that a parameter defines in the body of its function. -/
def parameterVariable (p : Param) : Variable :=
  ⟨p.name, p.toParameter.type, .parameter, p.span⟩

/-- The variable that a loop defines in its block. -/
def bindingVariable (t : Token) : Variable :=
  ⟨t.lexeme, .double, .varBound, t.span⟩

/-- The type of a variable: as annotated, else that of its initial value, else `double`. -/
def declaredType (doc : Document) (d : VarDecl) : Ty :=
  match d.type, d.init with
  | some t, _ => Ty.ofName t.text
  | none, some e => (doc.inferExtent e).1
  | none, none => .double

/-- The variable that a declaration defines. -/
def declaredVariable (doc : Document) (d : VarDecl) : Variable :=
  ⟨d.name, declaredType doc d, if d.isMutable then .varBound else .letBound, d.nameSpan⟩

namespace State

/-! ## Braces -/

/-- Opens the body of a function: one scope, which holds the parameters. -/
def openFunction (st : State) (params : List Param) : State :=
  { st with
    awaitedBody := none
    scopes := params.foldl (fun s p => s.define (parameterVariable p)) (st.scopes.push .function) }

/-- Opens any other block. It is the body of the class waited for, if its header named this `{`;
else it takes the loop name that waits for a block. -/
def openBlock (doc : Document) (st : State) (i : Nat) : State :=
  let opened :=
    { st with awaitedBody := none, awaitedClass := none, scopes := st.scopes.push .block }
  match st.awaitedClass.filter (·.1 == i), st.awaitedBinding with
  | some (_, name), _ => { opened with classes := (name, opened.scopes.depth) :: st.classes }
  | none, some binding =>
    { opened with
      awaitedBinding := none
      scopes := opened.scopes.define (bindingVariable (doc.token binding)) }
  | none, none => opened

/-- The state after a `{` at token `i`. -/
def openScope (doc : Document) (st : State) (i : Nat) : State :=
  match st.awaitedBody.filter (·.1 == i) with
  | some (_, params) => st.openFunction params
  | none => st.openBlock doc i

/-- The state after a `}`. A class ends with the scope of its body. -/
def closeScope (st : State) : State :=
  { st with
    classes :=
      if st.classes.head?.any (·.2 == st.scopes.depth) then st.classes.tail else st.classes
    scopes := st.scopes.pop }

/-! ## Headers and declarations -/

/-- Waits for the body of a header that has one. -/
def expectBody (st : State) (header : Option FnHeader) : State :=
  match header with
  | some h =>
    match h.body with
    | some body => { st with awaitedBody := some (body, h.params) }
    | none => st
  | none => st

/-- Waits for the body of a class; a header without one ends all waiting. -/
def expectClass (st : State) (header : Option ClassHeader) : State :=
  { st with awaitedClass := header.bind fun h => h.body.map fun body => (body, h.name) }

/-- Defines the variable of a declaration; a name that the innermost scope has stays. -/
def declare (doc : Document) (st : State) (decl : Option VarDecl) : State :=
  match decl with
  | some d => { st with scopes := st.scopes.define (declaredVariable doc d) }
  | none => st

/-- Waits for the block of a loop `for NAME in`. -/
def expectLoop (doc : Document) (st : State) (i : Nat) : State :=
  if doc.kind (i + 1) = .identifier ∧ doc.kind (i + 2) = .kwIn then
    { st with awaitedBinding := some (i + 1) }
  else st

/-! Of a header, a declaration or a loop, the state keeps all parts but one. -/

theorem expectBody_eq (st : State) (header : Option FnHeader) :
    st.expectBody header =
      { st with
        awaitedBody :=
          (header.bind fun h => h.body.map fun body => (body, h.params)).or st.awaitedBody } := by
  unfold expectBody
  split
  · split
    · rename_i hbody
      simp only [Option.bind_some, hbody, Option.map_some, Option.some_or]
    · rename_i hbody
      simp only [Option.bind_some, hbody, Option.map_none, Option.none_or]
  · rfl

theorem declare_eq (doc : Document) (st : State) (decl : Option VarDecl) :
    st.declare doc decl =
      { st with
        scopes := decl.elim st.scopes fun d => st.scopes.define (declaredVariable doc d) } := by
  cases decl <;> rfl

theorem expectLoop_eq (doc : Document) (st : State) (i : Nat) :
    st.expectLoop doc i =
      { st with
        awaitedBinding :=
          if doc.kind (i + 1) = .identifier ∧ doc.kind (i + 2) = .kwIn then some (i + 1)
          else st.awaitedBinding } := by
  unfold expectLoop
  split <;> rfl

/-- The state after token `i`. -/
def step (doc : Document) (st : State) (i : Nat) : State :=
  match doc.kind i with
  | .leftBrace => st.openScope doc i
  | .rightBrace => st.closeScope
  | .kwFn => st.expectBody (fnHeaderAt doc.tokens i)
  | .kwConstructor => st.expectBody (constructorHeaderAt doc.tokens i)
  | .kwClass => st.expectClass (classHeaderAt doc.tokens i)
  | .kwFor => st.expectLoop doc i
  | .kwLet | .kwVar => st.declare doc (varDeclAt doc.tokens i)
  | _ => st

end State

/-- The state just before token `i`. -/
def stateBefore (doc : Document) : Nat → State
  | 0 => {}
  | i + 1 => (stateBefore doc i).step doc i

end AuroraLint.Resolve
