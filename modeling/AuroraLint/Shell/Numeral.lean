/-!
# Numerals

Digits in a base up to 16, as they are read from arguments and written to output.

* `Numeral.value`  : the number that digits stand for.
* `Numeral.padded` : the digits of a number, at least so many.
* `Numeral.sign`   : the sign at the head of a text, behind blanks.

Part of the host of recorded runs (`Workspace.host`); no result is about it.
-/

set_option autoImplicit false

namespace AuroraLint.Numeral

/-- The value of a digit in a base up to 16; `none` if the character is no such digit. -/
def digit? (base : Nat) (c : Char) : Option Nat :=
  let value :=
    if c.isDigit then c.toNat - '0'.toNat
    else if 'a' ≤ c.toLower ∧ c.toLower ≤ 'f' then c.toLower.toNat - 'a'.toNat + 10
    else base
  if value < base then some value else none

/-- A digit in a base up to 16. -/
def isDigit (base : Nat) (c : Char) : Bool :=
  (digit? base c).isSome

/-- The number that digits stand for. -/
def value (base : Nat) (ds : List Char) : Nat :=
  ds.foldl (fun n c => base * n + (digit? base c).getD 0) 0

/-- The digits of a number, at least so many. -/
def padded (base count n : Nat) : List Char :=
  let ds := Nat.toDigits base n
  List.replicate (count - ds.length) '0' ++ ds

/-- A blank of the basic characters. -/
def isBlank (c : Char) : Bool :=
  c == ' ' || ('\t' ≤ c && c ≤ '\r')

/-- Whether the head of a text, behind blanks, is a minus sign, and what follows a sign. -/
def sign (cs : List Char) : Bool × List Char :=
  match cs.dropWhile isBlank with
  | '-' :: rest => (true, rest)
  | '+' :: rest => (false, rest)
  | rest => (false, rest)

end AuroraLint.Numeral
