import AuroraLint.Text.Blank

/-!
# Types

Types are compared by name alone; class names are never looked up.

* `Ty.ofName`, `Ty.render` : a type from its name, and its name.
* `Ty.accepts`             : where a value of a type may be used.
* `Ty.infer`               : the type of a literal, `double` for any other expression.
-/

set_option autoImplicit false

namespace AuroraLint

/-- The type of a value, as far as the analysis can tell. -/
inductive Ty where
  | int
  | double
  | bool
  | string
  | void
  | null
  /-- A class, or any other name. -/
  | named (name : String)
  /-- `T?`. -/
  | optional (inner : Ty)
  deriving DecidableEq, Repr, Inhabited

namespace Ty

/-- The type that a name without `?` at its end stands for. -/
def ofBaseName (name : String) : Ty :=
  match name with
  | "int" => .int
  | "double" => .double
  | "bool" => .bool
  | "string" => .string
  | "void" => .void
  | "null" => .null
  | _ => .named name

/-- The type whose written name is `cs` read backwards. -/
def ofReversed : List Char → Ty
  | [] => ofBaseName ""
  | c :: cs =>
    if c = '?' then .optional (ofReversed cs) else ofBaseName (String.ofList (c :: cs).reverse)

/-- The type with a written name: each final `?` makes it optional. -/
def ofName (name : String) : Ty :=
  ofReversed name.toList.reverse

/-- The type as it is written. -/
def render : Ty → String
  | .int => "int"
  | .double => "double"
  | .bool => "bool"
  | .string => "string"
  | .void => "void"
  | .null => "null"
  | .named name => name
  | .optional inner => inner.render ++ "?"

/-- `int` or `double`. -/
def isNumeric : Ty → Bool
  | .int | .double => true
  | _ => false

/-- `null` given for an optional type. -/
def isNullFor : Ty → Ty → Bool
  | .null, .optional _ => true
  | _, _ => false

/-- A value of type `actual` may stand where `expected` is asked for: the types are the same, both
are numeric, or `null` is given for an optional type. -/
def accepts (expected actual : Ty) : Bool :=
  actual == expected || (actual.isNumeric && expected.isNumeric) || actual.isNullFor expected

/-! ## Literals -/

/-- Digits only, at least one. -/
def isIntText (cs : List Char) : Bool :=
  !cs.isEmpty && cs.all Char.isDigit

/-- Digits with one point among them: `1.`, `1.5` or `.5`. -/
def isDoubleText (cs : List Char) : Bool :=
  match cs.dropWhile (· != '.') with
  | [] => false
  | _ :: fraction =>
    let whole := cs.takeWhile (· != '.')
    if whole.isEmpty then isIntText fraction
    else isIntText whole && fraction.all Char.isDigit

/-- A quote at either end, not the same one. -/
def isStringText (cs : List Char) : Bool :=
  2 ≤ cs.length && cs.head? == some '"' && cs.getLast? == some '"'

/-- The type of an expression without blanks at its ends. -/
def inferTrimmed (cs : List Char) : Ty :=
  if isIntText cs then .int
  else if isDoubleText cs then .double
  else if cs = ['t', 'r', 'u', 'e'] ∨ cs = ['f', 'a', 'l', 's', 'e'] then .bool
  else if cs = ['n', 'u', 'l', 'l'] then .null
  else if isStringText cs then .string
  else .double

/-- The type of an expression by its text. Only literals are told apart; all else is `double`. -/
def infer (cs : List Char) : Ty :=
  inferTrimmed (Text.trim cs)

@[simp] theorem accepts_self (t : Ty) : t.accepts t = true := by
  simp [accepts]

end Ty

end AuroraLint
