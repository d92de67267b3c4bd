import AuroraLint.Token
import AuroraLint.Extent

/-!
# Declaration headers

The parts of declarations that the analysis looks at: everything but the bodies.

* `TypeRef`, `Param`                  : annotations and parameters as written.
* `FnHeader`, `ClassHeader`, `VarDecl` : headers, with the token indices they reach over.
-/

set_option autoImplicit false

namespace AuroraLint

/-- A type as written: a name with an optional `?`. -/
structure TypeRef where
  text : String
  span : Span
  deriving DecidableEq, Repr, Inhabited

/-- A parameter: `name` or `name: type`. -/
structure Param where
  name : String
  type : Option TypeRef
  span : Span
  deriving DecidableEq, Repr, Inhabited

/-- The header of a function, an external function or a constructor. -/
structure FnHeader where
  /-- Index of the word that starts the header. -/
  keyword : Nat
  name : String
  nameSpan : Span
  params : List Param
  returnType : Option TypeRef
  /-- Index of the last token of the header. -/
  last : Nat
  /-- Index of the `{` right after the header, if one stands there. -/
  body : Option Nat
  /-- From the first word to the end of the header. -/
  span : Span
  deriving DecidableEq, Repr, Inhabited

/-- The header of a class: its name, and a list in parentheses that is skipped. -/
structure ClassHeader where
  keyword : Nat
  name : String
  nameSpan : Span
  last : Nat
  body : Option Nat
  deriving DecidableEq, Repr, Inhabited

/-- The declaration of a variable: `let` or `var`, a name, a type and an initial value. -/
structure VarDecl where
  keyword : Nat
  isMutable : Bool
  name : String
  nameSpan : Span
  type : Option TypeRef
  init : Option Extent
  deriving DecidableEq, Repr, Inhabited

end AuroraLint
