import AuroraLint.Span

/-!
# Reading cursors

A place in a text that is being read: what lies behind, what lies ahead, and the position between.

* `Cursor.advance`   : one character further.
* `Cursor.eatWhile`  : as far as a condition holds.
* `Cursor.sliceFrom` : what has been read since a byte offset.
-/

set_option autoImplicit false

namespace AuroraLint

/-- A reading position in the document `file`. `past` holds the characters behind the cursor, the
last one first, and `rest` those ahead. -/
structure Cursor where
  file : String
  past : List Char
  rest : List Char
  pos : Position
  deriving DecidableEq, Repr

namespace Cursor

/-- A cursor at the start of a text. -/
def ofText (file : String) (text : List Char) : Cursor :=
  ⟨file, [], text, Position.start⟩

/-- The whole text, behind and ahead. -/
def text (c : Cursor) : List Char :=
  c.past.reverse ++ c.rest

/-- The next character. -/
def peek (c : Cursor) : Option Char :=
  c.rest.head?

/-- The character after the next one. -/
def peekSecond (c : Cursor) : Option Char :=
  c.rest[1]?

/-- The last character read, unless it ended a line. -/
def prev (c : Cursor) : Option Char :=
  c.past.head?.filter (· != '\n')

/-- Nothing is left to read. -/
def atEnd (c : Cursor) : Bool :=
  c.rest.isEmpty

/-- The cursor after the next character; at the end it stays. -/
def advance (c : Cursor) : Cursor :=
  match c.rest with
  | [] => c
  | ch :: rest => ⟨c.file, ch :: c.past, rest, c.pos.advance ch⟩

/-- The cursor `n` characters further, or at the end. -/
def skip (c : Cursor) : Nat → Cursor
  | 0 => c
  | n + 1 => c.advance.skip n

/-- Reads the next character if it is the expected one. -/
def eat (c : Cursor) (expected : Char) : Bool × Cursor :=
  if c.peek = some expected then (true, c.advance) else (false, c)

/-- Reads as long as the condition holds. -/
def eatWhile (c : Cursor) (p : Char → Bool) : Cursor :=
  c.skip (c.rest.takeWhile p).length

/-- The text read since byte offset `start`. -/
def sliceFrom (c : Cursor) (start : Nat) : Option (List Char) :=
  Text.slice? start c.pos.offset c.text

/-- The span from an earlier position to the cursor. -/
def spanFrom (c : Cursor) (start : Position) : Span :=
  ⟨c.file, start, c.pos⟩

/-! ## What is ahead -/

theorem rest_advance (c : Cursor) : c.advance.rest = c.rest.tail := by
  unfold Cursor.advance
  split <;> simp_all

/-- What is ahead after reading `n` characters. -/
@[simp] theorem rest_skip (c : Cursor) (n : Nat) : (c.skip n).rest = c.rest.drop n := by
  induction n generalizing c with
  | zero => rfl
  | succ n ih => rw [skip, ih, rest_advance, List.drop_tail]

end Cursor

end AuroraLint
