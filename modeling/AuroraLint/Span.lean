import AuroraLint.Position

/-!
# Spans

A stretch of a named document, from its first position to the position after its last character.

* `Span.merge` : the smallest span that covers two spans of one document.
-/

set_option autoImplicit false

namespace AuroraLint

/-- A stretch of the document `file`; `stop` is exclusive. -/
structure Span where
  file : String
  start : Position
  stop : Position
  deriving DecidableEq, Repr, Inhabited

namespace Span

/-- The span of what no document declares. -/
def nowhere : Span := ⟨"", Position.nowhere, Position.nowhere⟩

/-- The span from the earlier start to the later stop, by byte offset. Of two equal offsets the
first span's position is taken, and so is its file. -/
def merge (a b : Span) : Span where
  file := a.file
  start := if a.start.offset ≤ b.start.offset then a.start else b.start
  stop := if b.stop.offset ≤ a.stop.offset then a.stop else b.stop

/-- The line the span starts on. -/
def line (s : Span) : Nat := s.start.line

/-- The text `file:line:column` of the start. -/
def render (s : Span) : String :=
  s!"{s.file}:{s.start.line}:{s.start.column}"

@[simp] theorem merge_file (a b : Span) : (a.merge b).file = a.file := rfl

theorem merge_start_offset (a b : Span) :
    (a.merge b).start.offset = min a.start.offset b.start.offset := by
  simp only [merge]; split <;> omega

theorem merge_stop_offset (a b : Span) :
    (a.merge b).stop.offset = max a.stop.offset b.stop.offset := by
  simp only [merge]; split <;> omega

@[simp] theorem merge_self (a : Span) : a.merge a = a := by
  simp [merge]

end Span

end AuroraLint
