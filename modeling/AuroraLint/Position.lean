import AuroraLint.Text.Utf8

/-!
# Positions

A place between two characters of a document.

* `Position`         : line and column from 1, byte offset from 0.
* `Position.advance` : the position after one more character.
* `Position.after`   : the position after a text.

The counts have no bound here. Which texts leave them below the size of a machine word is said by
`Text.Countable`; the walk and the pipeline on machine words are `Checked.run` and
`Checked.analyze`.
-/

set_option autoImplicit false

namespace AuroraLint

/-- A place in a document. Lines and columns count from 1, columns in characters; the offset counts
UTF-8 bytes from the start of the document. -/
structure Position where
  line : Nat
  column : Nat
  offset : Nat
  deriving DecidableEq, Repr, Inhabited

namespace Position

/-- The start of every document. -/
def start : Position := ⟨1, 1, 0⟩

/-- The position of nothing in particular, for what no document declares. -/
def nowhere : Position := ⟨0, 0, 0⟩

/-- The position after character `c` at position `p`. -/
def advance (p : Position) (c : Char) : Position :=
  if c = '\n' then ⟨p.line + 1, 1, p.offset + c.utf8Size⟩
  else ⟨p.line, p.column + 1, p.offset + c.utf8Size⟩

/-- The position after the text `cs` that starts at position `p`. -/
def after (p : Position) (cs : List Char) : Position :=
  cs.foldl advance p

/-- Line and column counted from 0, as editors do. A zero stays zero. -/
def zeroBased (p : Position) : Nat × Nat :=
  (p.line - 1, p.column - 1)

/-- Positions are ordered by line, then column, then offset. -/
def before (p q : Position) : Bool :=
  p.line < q.line || p.line == q.line &&
    (p.column < q.column || p.column == q.column && p.offset < q.offset)

/-- The text `line:column`. -/
def render (p : Position) : String :=
  s!"{p.line}:{p.column}"

@[simp] theorem after_nil (p : Position) : p.after [] = p := rfl

@[simp] theorem after_cons (p : Position) (c : Char) (cs : List Char) :
    p.after (c :: cs) = (p.advance c).after cs := rfl

@[simp] theorem offset_advance (p : Position) (c : Char) :
    (p.advance c).offset = p.offset + c.utf8Size := by
  unfold advance; split <;> rfl

/-- The offset moves by the bytes of the text. -/
@[simp] theorem offset_after (p : Position) (cs : List Char) :
    (p.after cs).offset = p.offset + Text.byteSize cs := by
  induction cs generalizing p with
  | nil => rfl
  | cons c cs ih => simp [ih, Nat.add_assoc]

/-- The line moves by the line feeds of the text. -/
theorem line_after (p : Position) (cs : List Char) :
    (p.after cs).line = p.line + cs.count '\n' := by
  induction cs generalizing p with
  | nil => rfl
  | cons c cs ih =>
    rw [after_cons, ih]
    by_cases h : c = '\n'
    · subst h
      rw [List.count_cons_self]
      simp only [advance, ↓reduceIte]
      omega
    · simp [advance, h]

end Position

end AuroraLint
