/-!
# TOML values

* `Toml.Value`     : the values of a document.
* `Toml.TableForm` : how a table came to be, which decides what may still be added to it.
-/

set_option autoImplicit false

namespace AuroraLint.Toml

/-- How a table came to be. -/
inductive TableForm where
  /-- Written between braces, or the document itself, or named by a header. -/
  | explicit
  /-- Passed through by a header for a table inside it. -/
  | implied
  /-- Passed through by a dotted key. -/
  | dotted
  deriving DecidableEq, Repr, Inhabited

/-- A value. Floats and dates are checked but their values are not kept. -/
inductive Value where
  | string (s : String)
  | integer (n : Int)
  | float
  | boolean (b : Bool)
  | datetime
  | array (items : List Value)
  /-- A table between braces; nothing can be added to it from outside. -/
  | inlineTable (form : TableForm) (members : List (String × Value))
  | table (form : TableForm) (members : List (String × Value))
  /-- The tables of one repeated header `[[name]]`, the latest first. -/
  | tables (latest : List (List (String × Value)))
  deriving Repr, Inhabited

/-- The members of a table, in the order they were added. -/
abbrev Members : Type := List (String × Value)

namespace Members

/-- The value of a key. -/
def get? (ms : Members) (key : String) : Option Value :=
  ms.lookup key

/-- The members with the value of a key put in place; a new key goes to the end. -/
def set (ms : Members) (key : String) (value : Value) : Members :=
  match ms with
  | [] => [(key, value)]
  | (k, v) :: rest => if k = key then (key, value) :: rest else (k, v) :: set rest key value

end Members

end AuroraLint.Toml
