/-!
# Character classes of a line

Which characters of one line are code, string or comment, decided by quotes and `#` alone.

* `CharClass.classify` : the class of every character of a line.
-/

set_option autoImplicit false

namespace AuroraLint

/-- What a character of a line belongs to. -/
inductive CharClass where
  | code
  /-- Inside a string literal, its quotes included. -/
  | string
  /-- From a `#` outside a string to the end of the line. -/
  | comment
  deriving DecidableEq, Repr, Inhabited

namespace CharClass

/-- The classes of the characters of `line`, of which `prev` was the character before and
`inString` the state reached. A quote that no backslash precedes changes the state. -/
def classifyFrom (inString : Bool) (prev : Option Char) : List Char → List CharClass
  | [] => []
  | c :: cs =>
    if c = '"' ∧ prev ≠ some '\\' then .string :: classifyFrom (!inString) (some c) cs
    else if c = '#' ∧ inString = false then List.replicate (cs.length + 1) .comment
    else (if inString then .string else .code) :: classifyFrom inString (some c) cs

/-- The class of every character of a line. -/
def classify (line : List Char) : List CharClass :=
  classifyFrom false none line

theorem length_classifyFrom (inString : Bool) (prev : Option Char) (line : List Char) :
    (classifyFrom inString prev line).length = line.length := by
  induction line generalizing inString prev with
  | nil => rfl
  | cons c cs ih =>
    rw [classifyFrom]
    split
    · simp [ih]
    · split <;> simp [ih]

/-- Every character gets one class. -/
@[simp] theorem length_classify (line : List Char) : (classify line).length = line.length :=
  length_classifyFrom false none line

end CharClass

end AuroraLint
