import AuroraLint.Text.CharRange

/-!
# Blank characters

The `White_Space` characters, and removing them from the ends of a text.

* `isBlank` : the character is white space.
* `trim`    : a text without the blanks at its two ends.
-/

set_option autoImplicit false

namespace AuroraLint.Text

/-- The code points with the property `White_Space`. -/
def blankRanges : List (Nat × Nat) :=
  [(0x0009, 0x000D), (0x0020, 0x0020), (0x0085, 0x0085), (0x00A0, 0x00A0), (0x1680, 0x1680),
   (0x2000, 0x200A), (0x2028, 0x2029), (0x202F, 0x202F), (0x205F, 0x205F), (0x3000, 0x3000)]

/-- White space: tab, line feed, space and the other `White_Space` characters. -/
def isBlank (c : Char) : Bool :=
  inRanges blankRanges c

/-- The text without its leading blanks. -/
def trimStart (cs : List Char) : List Char :=
  cs.dropWhile isBlank

/-- The text without its trailing blanks. -/
def trimEnd (cs : List Char) : List Char :=
  (cs.reverse.dropWhile isBlank).reverse

/-- The text without the blanks at either end. -/
def trim (cs : List Char) : List Char :=
  trimEnd (trimStart cs)

@[simp] theorem isBlank_space : isBlank ' ' = true := by decide
@[simp] theorem isBlank_newline : isBlank '\n' = true := by decide
@[simp] theorem isBlank_return : isBlank '\r' = true := by decide
@[simp] theorem isBlank_hash : isBlank '#' = false := by decide
@[simp] theorem isBlank_quote : isBlank '"' = false := by decide
@[simp] theorem trim_nil : trim [] = [] := rfl

end AuroraLint.Text
