/-!
# Lines of a text

* `rawLines`    : a text cut at its line feeds.
* `stripReturn` : a line without the carriage return that may end it.
* `shownLines`  : the lines as a reader of the output sees them.
-/

set_option autoImplicit false

namespace AuroraLint.Text

/-- The pieces of a text between its line feeds; a text has one more line than line feeds. -/
def rawLines : List Char → List (List Char)
  | [] => [[]]
  | c :: cs =>
    if c = '\n' then [] :: rawLines cs
    else
      match rawLines cs with
      | [] => [[c]]
      | line :: rest => (c :: line) :: rest

/-- A line without one carriage return at its end. -/
def stripReturn (line : List Char) : List Char :=
  if line.getLast? = some '\r' then line.dropLast else line

/-- The lines of an output text. A line feed ends a line, with the carriage return before it; what
follows the last line feed is a line of its own, unless it is empty. -/
def shownLines (cs : List Char) : List (List Char) :=
  let lines := rawLines cs
  let last := lines.getLast?.getD []
  lines.dropLast.map stripReturn ++ if last.isEmpty then [] else [last]

@[simp] theorem rawLines_ne_nil (cs : List Char) : rawLines cs ≠ [] := by
  cases cs with
  | nil => simp [rawLines]
  | cons c cs =>
    rw [rawLines]
    split
    · simp
    · split <;> simp

/-- Joining the raw lines with line feeds gives the text back. -/
theorem intercalate_rawLines (cs : List Char) :
    List.intercalate ['\n'] (rawLines cs) = cs := by
  induction cs with
  | nil => rfl
  | cons c cs ih =>
    rw [rawLines]
    split
    · next h =>
      subst h
      cases hl : rawLines cs with
      | nil => exact absurd hl (rawLines_ne_nil cs)
      | cons line rest =>
        rw [hl] at ih
        simpa [List.intercalate, List.intersperse] using ih
    · split
      · next hl => exact absurd hl (rawLines_ne_nil cs)
      · next line rest hl =>
        rw [hl] at ih
        cases rest with
        | nil => simpa [List.intercalate, List.intersperse] using ih
        | cons l ls => simpa [List.intercalate, List.intersperse] using ih

end AuroraLint.Text
