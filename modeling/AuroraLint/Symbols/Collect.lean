import AuroraLint.Diagnostic
import AuroraLint.Header.Reader
import AuroraLint.Symbols

/-!
# Collecting symbols

* `Member`, `membersOf`        : the members that stand directly in a class body.
* `Declaration`, `declarations` : the functions and classes of a document in order.
* `SymbolTable.collect`        : the table they make, and an error for each name declared again.
-/

set_option autoImplicit false

namespace AuroraLint

/-! ## From headers to signatures -/

/-- The type of an annotation, or a default where none is written. -/
def TypeRef.typeOr (t : Option TypeRef) (fallback : Ty) : Ty :=
  (t.map fun t => Ty.ofName t.text).getD fallback

/-- The parameter that a written one declares; without annotation it is `double`. -/
def Param.toParameter (p : Param) : Parameter :=
  ⟨p.name, TypeRef.typeOr p.type .double⟩

/-- The signature of a header; `fallback` is the return type where none is written. -/
def FnHeader.signature (h : FnHeader) (fallback : Ty) (origin : Origin) : Signature where
  name := h.name
  params := h.params.map Param.toParameter
  returnType := TypeRef.typeOr h.returnType fallback
  origin := origin
  declaredAt := some h.span

/-! ## Members of a class -/

/-- A member of a class. -/
inductive Member where
  | field (name : String) (type : Ty)
  | method (key : String) (signature : Signature)
  deriving DecidableEq, Repr

/-- The lexemes of some tokens with a blank between any two. -/
def joinLexemes (ts : List Token) : List Char :=
  List.intercalate [' '] (ts.map fun t => t.lexeme.toList)

/-- The type of a field: as annotated, else that of its initial value, else `double`. -/
def VarDecl.fieldType (ts : List Token) (d : VarDecl) : Ty :=
  match d.type, d.init with
  | some t, _ => Ty.ofName t.text
  | none, some e => Ty.infer (joinLexemes (e.tokens ts))
  | none, none => .double

/-- The constructor of a class always makes an object of that class, whatever is written. -/
def FnHeader.constructorSignature (h : FnHeader) (className : String) : Signature :=
  { h.signature (.named className) .constructor with returnType := .named className }

/-- The member whose declaration starts at token `i`, and the index of its last token. -/
def memberAt (className : String) (ts : List Token) (i : Nat) : Option (Member × Nat) :=
  match kindAt ts i with
  | .kwLet | .kwVar =>
    match Reading.varDecl ⟨ts, i⟩ with
    | (some d, c) => some (.field d.name (d.fieldType ts), c.pos - 1)
    | (none, _) => none
  | .kwFn => (fnHeaderAt ts i).map fun h => (.method h.name (h.signature .double .method), h.last)
  | .kwConstructor =>
    (constructorHeaderAt ts i).map fun h =>
      (.method ClassInfo.constructorName (h.constructorSignature className), h.last)
  | _ => none

/-- The members among the tokens `body`, of which the first has index `i`. Tokens before index
`resume` belong to a member already found; `depth` counts the braces open inside the body. -/
def membersFrom (className : String) (ts : List Token) (depth resume i : Nat) :
    List Token → List Member
  | [] => []
  | t :: body =>
    if i < resume then membersFrom className ts depth resume (i + 1) body
    else
      match t.kind with
      | .leftBrace => membersFrom className ts (depth + 1) resume (i + 1) body
      | .rightBrace => membersFrom className ts (depth - 1) resume (i + 1) body
      | kind =>
        if 0 < depth then membersFrom className ts depth resume (i + 1) body
        else
          match memberAt className ts (if kind = .kwPub then i + 1 else i) with
          | some (m, last) => m :: membersFrom className ts depth (last + 1) (i + 1) body
          | none => membersFrom className ts depth resume (i + 1) body

/-- The members that stand directly between the braces at `opener` and `closer`. -/
def membersOf (className : String) (ts : List Token) (opener closer : Nat) : List Member :=
  membersFrom className ts 0 (opener + 1) (opener + 1)
    ((ts.drop (opener + 1)).take (closer - (opener + 1)))

/-- The class with one more member; of equal names the last one stays. -/
def ClassInfo.addMember (c : ClassInfo) : Member → ClassInfo
  | .field name type => { c with fields := c.fields.insert name type }
  | .method key signature => { c with methods := c.methods.insert key signature }

/-! ## Declarations of a document -/

/-- A declaration that goes into the symbol table. -/
inductive Declaration where
  | function (header : FnHeader)
  | external (header : FnHeader)
  | classDef (header : ClassHeader) (members : List Member)
  deriving DecidableEq, Repr

/-- The last token of a class: its closing brace, or the end of its header without a body. -/
def ClassHeader.lastToken (ts : List Token) (h : ClassHeader) : Nat :=
  match h.body with
  | some opener => blockEnd ts opener
  | none => h.last

/-- The members of the class with a header. -/
def ClassHeader.members (ts : List Token) (h : ClassHeader) : List Member :=
  match h.body with
  | some opener => membersOf h.name ts opener (blockEnd ts opener)
  | none => []

/-- The declaration that starts at token `i`, and the index of the last token it takes: all of a
class, the header of a function. -/
def declarationAt (ts : List Token) (i : Nat) : Option (Declaration × Nat) :=
  match kindAt ts i with
  | .kwExtern => (externHeaderAt ts i).map fun h => (.external h, h.last)
  | .kwFn => (fnHeaderAt ts i).map fun h => (.function h, h.last)
  | .kwClass => (classHeaderAt ts i).map fun h => (.classDef h (h.members ts), h.lastToken ts)
  | _ => none

/-- The declarations among the tokens `rest`, of which the first has index `i`; tokens before
index `resume` belong to a declaration already found. -/
def declarationsFrom (ts : List Token) (resume i : Nat) : List Token → List Declaration
  | [] => []
  | _ :: rest =>
    if i < resume then declarationsFrom ts resume (i + 1) rest
    else
      match declarationAt ts i with
      | some (d, last) => d :: declarationsFrom ts (last + 1) (i + 1) rest
      | none => declarationsFrom ts resume (i + 1) rest

/-- The declarations of a document in the order they stand in it. -/
def declarations (ts : List Token) : List Declaration :=
  declarationsFrom ts 0 0 ts

/-! ## The table -/

namespace SymbolTable

/-- Adds a function. A name that the document has declared before stays as it is, with an error;
a built-in function is replaced. -/
def addFunction (t : SymbolTable) (h : FnHeader) (s : Signature) :
    SymbolTable × List Diagnostic :=
  match (t.function? h.name).bind (·.declaredAt) with
  | some earlier =>
    let message := s!"Function '{h.name}' is already defined at line {earlier.line}"
    (t, [(Diagnostic.error message h.span).withRelated earlier "Previous definition here"])
  | none => ({ t with functions := t.functions.insert h.name s }, [])

/-- Adds a class. A name that is taken stays as it is, with an error. -/
def addClass (t : SymbolTable) (h : ClassHeader) (members : List Member) :
    SymbolTable × List Diagnostic :=
  match t.class? h.name with
  | some earlier =>
    let message := s!"Class '{h.name}' is already defined at line {earlier.declaredAt.line}"
    (t, [(Diagnostic.error message h.nameSpan).withRelated earlier.declaredAt
      "Previous definition here"])
  | none =>
    let info : ClassInfo := ⟨h.name, ∅, ∅, h.nameSpan⟩
    ({ t with classes := t.classes.insert h.name (members.foldl ClassInfo.addMember info) }, [])

/-- Adds a declaration. A function without return type is `void`, an external one `double`. -/
def add (t : SymbolTable) : Declaration → SymbolTable × List Diagnostic
  | .function h => t.addFunction h (h.signature .void .function)
  | .external h => t.addFunction h (h.signature .double .external)
  | .classDef h members => t.addClass h members

/-- Adds declarations in order, with the errors that arise. -/
def addAll (t : SymbolTable) : List Declaration → SymbolTable × List Diagnostic
  | [] => (t, [])
  | d :: ds =>
    let (t, first) := t.add d
    let (t, others) := t.addAll ds
    (t, first ++ others)

/-- The symbol table of a document, and an error for each name that it declares again. -/
def collect (ts : List Token) : SymbolTable × List Diagnostic :=
  builtins.addAll (declarations ts)

end SymbolTable

end AuroraLint
