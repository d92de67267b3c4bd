import AuroraLint.Ty
import AuroraLint.Span
import Std.Data.TreeMap

/-!
# Symbol tables

* `Signature`   : what a call has to agree with.
* `ClassInfo`   : the fields and methods of a class.
* `SymbolTable` : the functions and classes of a document, by name.
-/

set_option autoImplicit false

namespace AuroraLint

/-- A declared parameter. -/
structure Parameter where
  name : String
  type : Ty
  deriving DecidableEq, Repr, Inhabited

/-- Where a callable comes from. -/
inductive Origin where
  /-- Part of the language. -/
  | builtin
  /-- Declared with `extern`. -/
  | external
  | function
  | method
  | constructor
  deriving DecidableEq, Repr, Inhabited

/-- What a call has to agree with. -/
structure Signature where
  name : String
  params : List Parameter
  returnType : Ty
  origin : Origin
  /-- The header; `none` for what no document declares. -/
  declaredAt : Option Span
  deriving DecidableEq, Repr, Inhabited

/-- The number of parameters. -/
def Signature.arity (s : Signature) : Nat := s.params.length

/-- The line of the declaration. -/
def Signature.line? (s : Signature) : Option Nat := s.declaredAt.map Span.line

/-- A class and its members. -/
structure ClassInfo where
  name : String
  fields : Std.TreeMap String Ty
  /-- Methods by name; the constructor stands under a name of its own. -/
  methods : Std.TreeMap String Signature
  declaredAt : Span

namespace ClassInfo

/-- The name that the constructor stands under. -/
def constructorName : String := "constructor"

/-- The constructor of the class. -/
def constructor? (c : ClassInfo) : Option Signature :=
  c.methods[constructorName]?

/-- A method by name, never the constructor. -/
def method? (c : ClassInfo) (name : String) : Option Signature :=
  if name = constructorName then none else c.methods[name]?

end ClassInfo

/-- The functions and classes of a document. -/
structure SymbolTable where
  functions : Std.TreeMap String Signature
  classes : Std.TreeMap String ClassInfo

namespace SymbolTable

/-- The function that every document can call. -/
def printd : Signature where
  name := "printd"
  params := [⟨"x", .double⟩]
  returnType := .double
  origin := .builtin
  declaredAt := none

/-- The table that holds the built-in functions alone. -/
def builtins : SymbolTable where
  functions := (∅ : Std.TreeMap String Signature).insert printd.name printd
  classes := ∅

/-- A function by name. -/
def function? (t : SymbolTable) (name : String) : Option Signature :=
  t.functions[name]?

/-- A class by name. -/
def class? (t : SymbolTable) (name : String) : Option ClassInfo :=
  t.classes[name]?

/-- The method of a name in the first class, in the order of class names, that has one. -/
def method? (t : SymbolTable) (name : String) : Option Signature :=
  t.classes.values.findSome? (·.method? name)

end SymbolTable

end AuroraLint
