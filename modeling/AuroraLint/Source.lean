import AuroraLint.Span
import AuroraLint.Text.Line

/-!
# Source documents

A named text, addressed by line and column.

* `Source.line?`     : the text of a line, without its terminator.
* `Source.position?` : the position of a line and column, kept within the line.
* `Source.slice?`    : the text between two positions.

Lines and columns have no bound here. `Checked.lineCount`, `Checked.position` and `Checked.lineEnd`
are the same on machine words.
-/

set_option autoImplicit false

namespace AuroraLint

/-- A document: its name, used in spans, and its text. -/
structure Source where
  name : String
  text : String
  deriving DecidableEq, Repr, Inhabited

namespace Source

/-- The characters of the document. -/
def chars (s : Source) : List Char := s.text.toList

/-- The size of the document in bytes. -/
def byteSize (s : Source) : Nat := Text.byteSize s.chars

/-- The pieces between the line feeds of the document. -/
def rawLines (s : Source) : List (List Char) := Text.rawLines s.chars

/-- The number of lines; an empty document has one. -/
def lineCount (s : Source) : Nat := s.rawLines.length

/-- A line by its number from 1, with the carriage return it may end in. -/
def rawLine? (s : Source) : Nat → Option (List Char)
  | 0 => none
  | n + 1 => s.rawLines[n]?

/-- A line by its number from 1, without line feed and without a final carriage return. -/
def line? (s : Source) (n : Nat) : Option (List Char) :=
  (s.rawLine? n).map Text.stripReturn

/-- The number of characters of a line; zero for a line that does not exist. -/
def lineLength (s : Source) (n : Nat) : Nat :=
  ((s.line? n).map List.length).getD 0

/-- The bytes of the first `n` lines, each with its line feed. -/
def bytesOfLines : Nat → List (List Char) → Nat
  | 0, _ => 0
  | _ + 1, [] => 0
  | n + 1, line :: rest => Text.byteSize line + 1 + bytesOfLines n rest

/-- The byte offset at which line `n` starts. -/
def lineStart (s : Source) (n : Nat) : Nat :=
  bytesOfLines (n - 1) s.rawLines

/-- The position of a line and column, both from 1. A column past the end of the line means the
end of the line, and column 0 its start. -/
def position? (s : Source) (line column : Nat) : Option Position :=
  (s.line? line).map fun text =>
    let front := text.take (column - 1)
    ⟨line, front.length + 1, s.lineStart line + Text.byteSize front⟩

/-- The position after the last character of a line; for a line that does not exist, column 1 at
the end of the document. -/
def lineEnd (s : Source) (line : Nat) : Position :=
  (s.position? line (s.lineLength line + 1)).getD ⟨line, 1, s.byteSize⟩

/-- A span of this document. -/
def span (s : Source) (start stop : Position) : Span :=
  ⟨s.name, start, stop⟩

/-- The span from a position to the end of its line. -/
def toLineEnd (s : Source) (start : Position) : Span :=
  s.span start (s.lineEnd start.line)

/-- The span of a whole line. -/
def lineSpan (s : Source) (line : Nat) : Span :=
  s.toLineEnd ((s.position? line 1).getD ⟨line, 1, s.byteSize⟩)

/-- The text between two positions, with both kept within the document and in order; `none` when
an offset lies inside a character. -/
def slice? (s : Source) (start stop : Position) : Option (List Char) :=
  let size := s.byteSize
  let lo := min start.offset size
  let hi := min (max stop.offset lo) size
  Text.slice? lo hi s.chars

/-- The text between two positions, empty where `slice?` has none. -/
def slice (s : Source) (start stop : Position) : List Char :=
  (s.slice? start stop).getD []

/-- No line has number 0. -/
@[simp] theorem line?_zero (s : Source) : s.line? 0 = none := rfl

theorem line?_eq_none_iff (s : Source) (n : Nat) :
    s.line? n = none ↔ n = 0 ∨ s.lineCount < n := by
  cases n with
  | zero => simp
  | succ n =>
    simp only [line?, rawLine?, lineCount, Option.map_eq_none_iff, List.getElem?_eq_none_iff]
    omega

end Source

end AuroraLint
