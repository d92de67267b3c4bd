import AuroraLint.Span
import AuroraLint.Ty

/-!
# Scopes

* `Variable`   : a declared name.
* `Scope`      : the names of one block; the first definition of a name stays.
* `ScopeStack` : nested scopes over a global one that is never closed.
-/

set_option autoImplicit false

namespace AuroraLint

/-- How a variable came to be. -/
inductive VariableKind where
  /-- Declared with `let`; it cannot be assigned. -/
  | letBound
  /-- Declared with `var`. -/
  | varBound
  /-- A parameter; it can be assigned. -/
  | parameter
  deriving DecidableEq, Repr, Inhabited

/-- Variables of every kind but `let` can be assigned. -/
def VariableKind.isAssignable : VariableKind → Bool
  | .letBound => false
  | _ => true

/-- A declared name. -/
structure Variable where
  name : String
  type : Ty
  kind : VariableKind
  declaredAt : Span
  deriving DecidableEq, Repr, Inhabited

/-- What a scope belongs to. -/
inductive ScopeKind where
  | global
  /-- The body of a function, method or constructor. -/
  | function
  /-- Any other pair of braces. -/
  | block
  deriving DecidableEq, Repr, Inhabited

/-- The names of one block, in the order they were defined. -/
structure Scope where
  kind : ScopeKind
  bindings : List Variable := []
  deriving DecidableEq, Repr, Inhabited

namespace Scope

/-- The variable of a name. -/
def find? (s : Scope) (name : String) : Option Variable :=
  s.bindings.find? (·.name == name)

/-- The scope with one more variable; a name that is taken changes nothing. -/
def define (s : Scope) (v : Variable) : Scope :=
  match s.find? v.name with
  | some _ => s
  | none => { s with bindings := s.bindings ++ [v] }

/-- The names of the scope in ascending order. -/
def names (s : Scope) : List String :=
  (s.bindings.map (·.name)).mergeSort (· ≤ ·)

end Scope

/-- Nested scopes: those that can be closed, the innermost first, above the global one. -/
structure ScopeStack where
  inner : List Scope := []
  global : Scope := ⟨.global, []⟩
  deriving DecidableEq, Repr, Inhabited

namespace ScopeStack

/-- The innermost scope. -/
def current (s : ScopeStack) : Scope :=
  s.inner.head?.getD s.global

/-- All scopes, the innermost first. -/
def scopes (s : ScopeStack) : List Scope :=
  s.inner ++ [s.global]

/-- The number of open scopes, the global one included. -/
def depth (s : ScopeStack) : Nat :=
  s.inner.length + 1

/-- Opens a scope. -/
def push (s : ScopeStack) (kind : ScopeKind) : ScopeStack :=
  { s with inner := ⟨kind, []⟩ :: s.inner }

/-- Closes the innermost scope; the global one stays open. -/
def pop (s : ScopeStack) : ScopeStack :=
  { s with inner := s.inner.tail }

/-- The scope that `pop` closes. -/
def popped? (s : ScopeStack) : Option Scope :=
  s.inner.head?

/-- Defines a variable in the innermost scope. -/
def define (s : ScopeStack) (v : Variable) : ScopeStack :=
  match s.inner with
  | [] => { s with global := s.global.define v }
  | top :: rest => { s with inner := top.define v :: rest }

/-- The variable of a name in the innermost scope. -/
def lookupCurrent (s : ScopeStack) (name : String) : Option Variable :=
  s.current.find? name

/-- The variable of a name in the innermost scope that has one. -/
def lookup (s : ScopeStack) (name : String) : Option Variable :=
  s.scopes.findSome? (·.find? name)

@[simp] theorem pop_push (s : ScopeStack) (kind : ScopeKind) : (s.push kind).pop = s := rfl

@[simp] theorem depth_push (s : ScopeStack) (kind : ScopeKind) :
    (s.push kind).depth = s.depth + 1 := rfl

theorem depth_pos (s : ScopeStack) : 0 < s.depth := Nat.succ_pos _

@[simp] theorem depth_define (s : ScopeStack) (v : Variable) : (s.define v).depth = s.depth := by
  cases s with
  | mk inner global => cases inner <;> rfl

end ScopeStack

end AuroraLint
