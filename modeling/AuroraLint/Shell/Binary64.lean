import AuroraLint.Shell.Numeral

/-!
# Floating-point numbers of 64 bits

Numbers with 53 binary digits, and their texts.

* `Binary64.ofRatio`    : the number nearest to a quotient.
* `Binary64.read`       : the number at the head of a text.
* `Binary64.positional` : a number with a fixed count of decimal places.
* `Binary64.scientific` : a number with a decimal exponent.
* `Binary64.general`    : whichever of the two suits a count of digits.
* `Binary64.binary`     : a number in base 16 with a binary exponent.

All arithmetic is exact on natural numbers and is rounded once, a tie to the even neighbour.

Part of the host of recorded runs (`Workspace.host`); no result is about it.
-/

set_option autoImplicit false

namespace AuroraLint

/-- The size of a number that is neither infinite nor undefined: `significand * 2 ^ exponent`. -/
structure Binary64.Size where
  significand : Nat
  exponent : Int
  deriving DecidableEq, Repr

/-- What a floating-point number can be, apart from its sign. -/
inductive Binary64 where
  | finite (size : Binary64.Size)
  | infinite
  /-- The result of no operation on numbers. -/
  | undefined
  deriving DecidableEq, Repr

/-- The natural number nearest to `n / d`, the even one of two. -/
def roundDiv (n d : Nat) : Nat :=
  if d < 2 * (n % d) ∨ (d = 2 * (n % d) ∧ n / d % 2 = 1) then n / d + 1 else n / d

/-- The number `n * base ^ e`, or `n` where `e` is negative. -/
def scale (base n : Nat) (e : Int) : Nat :=
  n * Nat.pow base e.toNat

/-- The natural number nearest to `n * base ^ shift / d`. -/
def roundScaled (base n d : Nat) (shift : Int) : Nat :=
  roundDiv (scale base n shift) (scale base d (-shift))

/-- The greatest `k` with `base ^ k ≤ n / d`, where `estimate` is that or one more. -/
def magnitude (base n d : Nat) (estimate : Int) : Int :=
  if scale base n (-estimate) < scale base d estimate then estimate - 1 else estimate

namespace Binary64

/-- The number of binary digits. -/
def precision : Nat := 53

/-- The exponent of the smallest numbers. -/
def leastExponent : Int := -1074

/-- The exponent of the largest numbers. -/
def greatestExponent : Int := 971

/-- Zero. -/
def zero : Binary64 :=
  .finite ⟨0, leastExponent⟩

/-- The number nearest to `n / d`, and whether `n / d` is out of range: too large, or so small that
digits are lost. -/
def ofRatio (n d : Nat) : Binary64 × Bool :=
  if n = 0 then (zero, false)
  else
    let top := magnitude 2 n d ((n.log2 : Int) - d.log2)
    let ideal := top - (precision - 1)
    let exponent := max ideal leastExponent
    let significand := roundScaled 2 n d (-exponent)
    let size : Size :=
      if significand = Nat.pow 2 precision then ⟨Nat.pow 2 (precision - 1), exponent + 1⟩
      else ⟨significand, exponent⟩
    let exact := scale 2 (significand * d) exponent = scale 2 n (-exponent)
    let tiny := ideal < leastExponent ∧
      ¬ (ideal + 1 = leastExponent ∧ roundScaled 2 n d (-ideal) = Nat.pow 2 precision)
    if greatestExponent < size.exponent then (.infinite, true)
    else (.finite size, decide (tiny ∧ ¬ exact))

/-! ## Reading -/

/-- The exponent behind the letter `mark` in either case, and what follows it. Without digits,
nothing of it is read. -/
def readExponent (mark : Char) (cs : List Char) : Int × List Char :=
  match cs with
  | [] => (0, cs)
  | c :: rest =>
    let (negative, ds) := match rest with
      | '-' :: ds => (true, ds)
      | '+' :: ds => (false, ds)
      | ds => (false, ds)
    let digits := ds.takeWhile Char.isDigit
    if c.toLower ≠ mark ∨ digits.isEmpty then (0, cs)
    else
      let size : Int := Numeral.value 10 digits
      (if negative then -size else size, ds.dropWhile Char.isDigit)

/-- The number `n * unit ^ shift`, where `n` has so many digits. A size that no number comes near to
is not worked out. -/
def ofScaled (unit n : Nat) (digits shift : Int) : Binary64 × Bool :=
  if n = 0 then (zero, false)
  else if 1100 < digits + shift then (.infinite, true)
  else if digits + shift < -1200 then (zero, true)
  else ofRatio (scale unit n shift) (scale unit 1 (-shift))

/-- Reads digits with a point among them and an exponent; `none` if there is no digit. In base 16
the exponent counts binary digits. -/
def readDigits (base : Nat) (cs : List Char) : Option ((Binary64 × Bool) × List Char) :=
  let whole := cs.takeWhile (Numeral.isDigit base)
  let (places, rest) := match cs.dropWhile (Numeral.isDigit base) with
    | '.' :: rest => (rest.takeWhile (Numeral.isDigit base), rest.dropWhile (Numeral.isDigit base))
    | rest => ([], rest)
  let digits := whole ++ places
  if digits.isEmpty then none
  else
    let n := Numeral.value base digits
    let count : Int := (digits.dropWhile (· = '0')).length
    if base = 16 then
      let (exponent, rest) := readExponent 'p' rest
      some (ofScaled 2 n (4 * count) (exponent - 4 * places.length), rest)
    else
      let (exponent, rest) := readExponent 'e' rest
      some (ofScaled 10 n count (exponent - places.length), rest)

/-- What follows a word at the head of a text, in letters of either case. -/
def dropWord? (word : String) (cs : List Char) : Option (List Char) :=
  if (cs.take word.length).map Char.toLower = word.toList then some (cs.drop word.length) else none

/-- Reads a word for an infinite or undefined number. Behind the second, letters between parentheses
mean nothing. -/
def readWord (cs : List Char) : Option ((Binary64 × Bool) × List Char) :=
  match dropWord? "infinity" cs <|> dropWord? "inf" cs with
  | some rest => some ((.infinite, false), rest)
  | none =>
    match dropWord? "nan" cs with
    | some ('(' :: rest) =>
      match rest.dropWhile fun c => c.isAlphanum || c == '_' with
      | ')' :: rest => some ((.undefined, false), rest)
      | _ => some ((.undefined, false), '(' :: rest)
    | some rest => some ((.undefined, false), rest)
    | none => none

/-- A number that was read: its sign, itself, whether the text is out of range, and what follows. -/
structure Reading where
  negative : Bool
  number : Binary64
  outOfRange : Bool
  rest : List Char
  deriving DecidableEq, Repr

/-- Reads the number at the head of a text, behind blanks and a sign. Without a number, nothing is
read. -/
def read (cs : List Char) : Reading :=
  let (negative, body) := Numeral.sign cs
  let found := match dropWord? "0x" body with
    | some digits => readDigits 16 digits <|> readDigits 10 body
    | none => readDigits 10 body <|> readWord body
  match found with
  | some ((number, outOfRange), rest) => ⟨negative, number, outOfRange, rest⟩
  | none => ⟨false, zero, false, cs⟩

/-! ## Writing -/

/-- Digits with a point before the last `places` ones. Without such, the point is there only if it
is always to be. -/
def withPoint (point : Bool) (places : Nat) (ds : List Char) : List Char :=
  let (whole, rest) := ds.splitAt (ds.length - places)
  if rest.isEmpty && !point then whole else whole ++ '.' :: rest

/-- A size as a quotient. -/
def ratio (x : Size) : Nat × Nat :=
  (scale 2 x.significand x.exponent, scale 2 1 (-x.exponent))

/-- A number with decimal places. -/
def positional (point : Bool) (places : Nat) (x : Size) : List Char :=
  let (n, d) := ratio x
  withPoint point places (Numeral.padded 10 (places + 1) (roundScaled 10 n d places))

/-- The leading decimal digits of a number, one more than `places`, and the exponent of the
first. -/
def leading (places : Nat) (x : Size) : Nat × Int :=
  let (n, d) := ratio x
  if n = 0 then (0, 0)
  else
    let length := fun n : Nat => ((Nat.toDigits 10 n).length : Int)
    let exponent := magnitude 10 n d (length n - length d)
    let digits := roundScaled 10 n d (places - exponent)
    if digits = Nat.pow 10 (places + 1) then (Nat.pow 10 places, exponent + 1)
    else (digits, exponent)

/-- An exponent behind its letter, with a sign and at least so many digits. -/
def writeExponent (mark : Char) (count : Nat) (exponent : Int) : List Char :=
  mark :: (if exponent < 0 then '-' else '+') :: Numeral.padded 10 count exponent.natAbs

/-- A number with a decimal exponent. -/
def scientific (point : Bool) (places : Nat) (x : Size) : List Char :=
  let (digits, exponent) := leading places x
  withPoint point places (Numeral.padded 10 (places + 1) digits) ++ writeExponent 'e' 2 exponent

/-- Digits without the zeros behind the point, and without the point if nothing follows it. -/
def dropZeros (ds : List Char) : List Char :=
  if ds.contains '.' then
    let ds := ds.reverse.dropWhile (· = '0')
    (if ds.head? = some '.' then ds.tail else ds).reverse
  else ds

/-- A number with so many digits, one at least: with an exponent if it is very small or has more
digits before the point. Zeros at the end are left out unless the point is always there. -/
def general (point : Bool) (count : Nat) (x : Size) : List Char :=
  let places := count - 1
  let (_, exponent) := leading places x
  let trim := fun ds => if point then ds else dropZeros ds
  if -4 ≤ exponent ∧ exponent ≤ places then
    trim (positional point (places - exponent).toNat x)
  else
    let text := scientific point places x
    trim (text.takeWhile (· ≠ 'e')) ++ text.dropWhile (· ≠ 'e')

/-- The number of digits that a number has in base 16 behind the first. -/
def fullPlaces : Nat := 13

/-- A number in base 16 with a binary exponent. Without a count of places there are as many as the
number needs. -/
def binary (point : Bool) (places : Option Nat) (x : Size) : List Char :=
  let exponent : Int :=
    if x.significand = 0 then 0 else x.exponent + (precision - 1)
  let count := places.getD fullPlaces
  let digits := roundScaled 16 x.significand 1 ((count : Int) - fullPlaces)
  let text := withPoint point count (Numeral.padded 16 (count + 1) digits)
  let text := if places.isNone then dropZeros text else text
  let text := if point && !text.contains '.' then text ++ ['.'] else text
  text ++ writeExponent 'p' 1 exponent

end Binary64

end AuroraLint
