import AuroraLint.Text.Printable

/-!
# Quoted text

A text between quotes on one line, with what would not show written as an escape.

* `quoted` : the quoted form of a text.
-/

set_option autoImplicit false

namespace AuroraLint.Text

/-- The code point of a character in braces, as few hexadecimal digits as it takes. -/
def codeEscape (c : Char) : List Char :=
  ['\\', 'u', '\x7b'] ++ Nat.toDigits 16 c.toNat ++ ['\x7d']

/-- A character inside quotes. -/
def quotedChar (c : Char) : List Char :=
  match c with
  | '"' => ['\\', '"']
  | '\\' => ['\\', '\\']
  | '\n' => ['\\', 'n']
  | '\r' => ['\\', 'r']
  | '\t' => ['\\', 't']
  | '\x00' => ['\\', '0']
  | c => if isAttached c || !isPrintable c then codeEscape c else [c]

/-- A text between quotes. -/
def quoted (cs : List Char) : List Char :=
  '"' :: (cs.flatMap quotedChar ++ ['"'])

end AuroraLint.Text
