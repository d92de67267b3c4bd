import AuroraLint.Toml.Value

/-!
# TOML scalars

* `readString`  : a string of any of the four quotings at the head of a text.
* `ofWord?`     : the number, date or truth value that a word without quotes spells.
-/

set_option autoImplicit false

namespace AuroraLint.Toml

/-! ## Characters -/

/-- A space or tab. -/
def isGap (c : Char) : Bool :=
  c == ' ' || c == '\t'

/-- A character that may stand in comments: no control character but the tab. -/
def isPlain (c : Char) : Bool :=
  c == '\t' || (0x20 ≤ c.toNat && c.toNat != 0x7F)

/-- A character that stands for itself between double quotes. -/
def isBasic (c : Char) : Bool :=
  isPlain c && c != '"' && c != '\\'

/-- A character that stands for itself between single quotes. -/
def isLiteral (c : Char) : Bool :=
  isPlain c && c != '\''

/-! ## Escapes -/

/-- The value of a hexadecimal digit. -/
def hexValue? (c : Char) : Option Nat :=
  if c.isDigit then some (c.toNat - '0'.toNat)
  else if 'a' ≤ c && c ≤ 'f' then some (c.toNat - 'a'.toNat + 10)
  else if 'A' ≤ c && c ≤ 'F' then some (c.toNat - 'A'.toNat + 10)
  else none

/-- The character with a code point in hexadecimal digits; surrogates are no characters. -/
def codeChar? (digits : List Char) : Option Char := do
  let n ← digits.foldlM (fun n c => (hexValue? c).map (16 * n + ·)) 0
  if n.isValidChar then some (Char.ofNat n) else none

/-- The character that a letter after a backslash stands for. -/
def escapeChar? : Char → Option Char
  | 'b' => some '\x08'
  | 't' => some '\t'
  | 'n' => some '\n'
  | 'f' => some '\x0c'
  | 'r' => some '\r'
  | '"' => some '"'
  | '\\' => some '\\'
  | _ => none

/-! ## Strings -/

/-- Adds a character to the front of what is read. -/
def push (c : Char) (read : Option (List Char × List Char)) : Option (List Char × List Char) :=
  read.map fun (text, rest) => (c :: text, rest)

/-- The rest of a string between double quotes, and what follows it. -/
def basicTail : List Char → Option (List Char × List Char)
  | [] => none
  | '"' :: rest => some ([], rest)
  | '\\' :: 'u' :: a :: b :: c :: d :: rest =>
    match codeChar? [a, b, c, d] with
    | some ch => push ch (basicTail rest)
    | none => none
  | '\\' :: 'U' :: a :: b :: c :: d :: e :: f :: g :: h :: rest =>
    match codeChar? [a, b, c, d, e, f, g, h] with
    | some ch => push ch (basicTail rest)
    | none => none
  | '\\' :: c :: rest =>
    match escapeChar? c with
    | some ch => push ch (basicTail rest)
    | none => none
  | c :: rest => if isBasic c then push c (basicTail rest) else none

/-- The rest of a string between single quotes, and what follows it. -/
def literalTail : List Char → Option (List Char × List Char)
  | [] => none
  | '\'' :: rest => some ([], rest)
  | c :: rest => if isLiteral c then push c (literalTail rest) else none

/-- The text starts with a line feed, or with a carriage return and a line feed. -/
def atNewline : List Char → Bool
  | '\n' :: _ => true
  | '\r' :: '\n' :: _ => true
  | _ => false

/-- The text without the newline it may start with. -/
def skipNewline : List Char → List Char
  | '\n' :: rest => rest
  | '\r' :: '\n' :: rest => rest
  | cs => cs

/-- The rest of a string between three double quotes. Up to two quotes may stand before the
closing ones. A backslash at the end of a line takes away all blanks and newlines that follow;
`trimming` says that this is going on. -/
def multiBasicTail (trimming : Bool) : List Char → Option (List Char × List Char)
  | [] => none
  | '"' :: '"' :: '"' :: '"' :: '"' :: rest => some (['"', '"'], rest)
  | '"' :: '"' :: '"' :: '"' :: rest => some (['"'], rest)
  | '"' :: '"' :: '"' :: rest => some ([], rest)
  | '\\' :: 'u' :: a :: b :: c :: d :: rest =>
    match codeChar? [a, b, c, d] with
    | some ch => push ch (multiBasicTail false rest)
    | none => none
  | '\\' :: 'U' :: a :: b :: c :: d :: e :: f :: g :: h :: rest =>
    match codeChar? [a, b, c, d, e, f, g, h] with
    | some ch => push ch (multiBasicTail false rest)
    | none => none
  | '\\' :: c :: rest =>
    if atNewline ((c :: rest).dropWhile isGap) then multiBasicTail true (c :: rest)
    else
      match escapeChar? c with
      | some ch => push ch (multiBasicTail false rest)
      | none => none
  | '\r' :: '\n' :: rest =>
    if trimming then multiBasicTail true rest else push '\n' (multiBasicTail false rest)
  | c :: rest =>
    if trimming && (isGap c || c == '\n') then multiBasicTail true rest
    else if isBasic c || c == '"' || c == '\n' then push c (multiBasicTail false rest)
    else none

/-- The rest of a string between three single quotes. -/
def multiLiteralTail : List Char → Option (List Char × List Char)
  | [] => none
  | '\'' :: '\'' :: '\'' :: '\'' :: '\'' :: rest => some (['\'', '\''], rest)
  | '\'' :: '\'' :: '\'' :: '\'' :: rest => some (['\''], rest)
  | '\'' :: '\'' :: '\'' :: rest => some ([], rest)
  | '\r' :: '\n' :: rest => push '\n' (multiLiteralTail rest)
  | c :: rest =>
    if isPlain c || c == '\n' then push c (multiLiteralTail rest) else none

/-- A string at the head of a text, and what follows it. A newline right after three opening quotes
is not part of the string. -/
def readString : List Char → Option (List Char × List Char)
  | '"' :: '"' :: '"' :: rest => multiBasicTail false (skipNewline rest)
  | '"' :: rest => basicTail rest
  | '\'' :: '\'' :: '\'' :: rest => multiLiteralTail (skipNewline rest)
  | '\'' :: rest => literalTail rest
  | _ => none

/-! ## Numbers -/

/-- The digits of a numeral without its underscores, each of which must stand between two
digits. -/
def digits? (isDigit : Char → Bool) : List Char → Option (List Char)
  | [] => none
  | [c] => if isDigit c then some [c] else none
  | c :: '_' :: rest => if isDigit c then (digits? isDigit rest).map (c :: ·) else none
  | c :: rest => if isDigit c then (digits? isDigit rest).map (c :: ·) else none

/-- The value of digits in a base. -/
def valueOf (base : Nat) (digits : List Char) : Nat :=
  digits.foldl (fun n c => base * n + (hexValue? c).getD 0) 0

/-- The digits of a decimal numeral; only zero itself starts with a zero. -/
def decimal? (cs : List Char) : Option (List Char) :=
  match digits? Char.isDigit cs with
  | some ('0' :: _ :: _) => none
  | found => found

/-- The sign of a numeral, negative or not, and the rest. -/
def splitSign : List Char → Bool × List Char
  | '+' :: rest => (false, rest)
  | '-' :: rest => (true, rest)
  | cs => (false, cs)

/-- A number that fits in 64 bits with sign. -/
def fits (n : Int) : Bool :=
  -9223372036854775808 ≤ n && n ≤ 9223372036854775807

/-- The digits of a base, letters in either case. -/
def isDigitOf (base : Nat) (c : Char) : Bool :=
  (hexValue? c).any (· < base)

/-- The value of a numeral with the mark of its base taken off. -/
def based? (base : Nat) (cs : List Char) : Option Int := do
  let n : Int := valueOf base (← digits? (isDigitOf base) cs)
  if fits n then some n else none

/-- The value of an integer. -/
def integer? (cs : List Char) : Option Int :=
  match cs with
  | '0' :: 'x' :: rest => based? 16 rest
  | '0' :: 'o' :: rest => based? 8 rest
  | '0' :: 'b' :: rest => based? 2 rest
  | _ => do
    let (negative, rest) := splitSign cs
    let n : Int := valueOf 10 (← decimal? rest)
    let n := if negative then -n else n
    if fits n then some n else none

/-- The least number that a double cannot hold, and that reads as infinity. -/
def floatLimit : Nat := Nat.pow 2 1024 - Nat.pow 2 970

/-- The number `mantissa * 10 ^ exponent` reads as infinity. -/
def overflows (mantissa : List Char) (exponent : Int) : Bool :=
  let mantissa := mantissa.dropWhile (· == '0')
  let magnitude := mantissa.length + exponent
  if mantissa.isEmpty || magnitude < 300 then false
  else if 400 < magnitude then true
  else if 0 ≤ exponent then floatLimit ≤ valueOf 10 mantissa * Nat.pow 10 exponent.toNat
  else floatLimit * Nat.pow 10 (-exponent).toNat ≤ valueOf 10 mantissa

/-- The value of an exponent: a sign and digits. -/
def exponent? (cs : List Char) : Option Int := do
  let (negative, rest) := splitSign cs
  let n : Int := valueOf 10 (← digits? Char.isDigit rest)
  return if negative then -n else n

/-- The mantissa and exponent of a float without sign: digits, then a point and digits, an
exponent, or both. -/
def floatParts? (cs : List Char) : Option (List Char × Int) := do
  let isMark (c : Char) : Bool := c == 'e' || c == 'E'
  let body := cs.takeWhile (!isMark ·)
  let exponent ← match cs.drop body.length with
    | [] => some 0
    | _ :: rest => exponent? rest
  let whole ← decimal? (body.takeWhile (· != '.'))
  match body.dropWhile (· != '.') with
  | [] => if body.length < cs.length then some (whole, exponent) else none
  | _ :: fraction =>
    let fraction ← digits? Char.isDigit fraction
    some (whole ++ fraction, exponent - fraction.length)

/-- The word spells a float. A number too large to hold is refused, unless it is negative. -/
def isFloat (cs : List Char) : Bool :=
  let (negative, rest) := splitSign cs
  if rest = ['i', 'n', 'f'] ∨ rest = ['n', 'a', 'n'] then true
  else
    match floatParts? rest with
    | some (mantissa, exponent) => negative || !overflows mantissa exponent
    | none => false

/-! ## Dates and times -/

/-- The value of exactly `n` digits at the head of a text, and the rest. -/
def fixedDigits (n : Nat) (cs : List Char) : Option (Nat × List Char) :=
  let digits := cs.take n
  if digits.length = n ∧ digits.all Char.isDigit then some (valueOf 10 digits, cs.drop n) else none

/-- The rest of a text after a character it has to start with. -/
def after (c : Char) (cs : List Char) : Option (List Char) :=
  match cs with
  | d :: rest => if d = c then some rest else none
  | [] => none

/-- The number of days of a month. -/
def daysIn (year month : Nat) : Nat :=
  match month with
  | 2 => if year % 4 = 0 ∧ (year % 100 ≠ 0 ∨ year % 400 = 0) then 29 else 28
  | 4 | 6 | 9 | 11 => 30
  | _ => 31

/-- The rest after a date at the head of a text. -/
def date? (cs : List Char) : Option (List Char) := do
  let (year, cs) ← fixedDigits 4 cs
  let cs ← after '-' cs
  let (month, cs) ← fixedDigits 2 cs
  let cs ← after '-' cs
  let (day, cs) ← fixedDigits 2 cs
  if 1 ≤ month ∧ month ≤ 12 ∧ 1 ≤ day ∧ day ≤ daysIn year month then some cs else none

/-- The rest after hours and minutes. -/
def hourMinute? (cs : List Char) : Option (List Char) := do
  let (hour, cs) ← fixedDigits 2 cs
  let cs ← after ':' cs
  let (minute, cs) ← fixedDigits 2 cs
  if hour ≤ 23 ∧ minute ≤ 59 then some cs else none

/-- The rest after the fraction of a second, if one is written. -/
def fraction? (cs : List Char) : Option (List Char) :=
  match cs with
  | '.' :: rest =>
    let rest' := rest.dropWhile Char.isDigit
    if rest'.length < rest.length then some rest' else none
  | _ => some cs

/-- The rest after a time with seconds; there may be a leap second. -/
def time? (cs : List Char) : Option (List Char) := do
  let cs ← after ':' (← hourMinute? cs)
  let (second, cs) ← fixedDigits 2 cs
  if second ≤ 60 then fraction? cs else none

/-- The rest after the distance from universal time, if one is written. -/
def offset? (cs : List Char) : Option (List Char) :=
  match cs with
  | 'Z' :: rest | 'z' :: rest => some rest
  | '+' :: rest | '-' :: rest => hourMinute? rest
  | _ => some cs

/-- The word spells a date, a time, or both. -/
def isDatetime (cs : List Char) : Bool :=
  match date? cs with
  | some [] => true
  | some (mark :: rest) =>
    (mark == 'T' || mark == 't' || mark == ' ') && ((time? rest).bind offset?) == some []
  | none => time? cs == some []

/-! ## Words -/

/-- The value of a word without quotes. -/
def ofWord? (word : List Char) : Option Value :=
  if word = ['t', 'r', 'u', 'e'] then some (.boolean true)
  else if word = ['f', 'a', 'l', 's', 'e'] then some (.boolean false)
  else if isDatetime word then some .datetime
  else if isFloat word then some .float
  else (integer? word).map .integer

/-- A character of a word without quotes. -/
def isWordChar (c : Char) : Bool :=
  c.isAlphanum || c == '+' || c == '-' || c == '_' || c == '.' || c == ':'

/-- The word at the head of a text. A date takes in the time that follows it after one space. -/
def takeWord (cs : List Char) : List Char :=
  let word := cs.takeWhile isWordChar
  match date? word, cs.drop word.length with
  | some [], ' ' :: rest =>
    match rest with
    | a :: b :: ':' :: _ =>
      if a.isDigit && b.isDigit then word ++ ' ' :: rest.takeWhile isWordChar else word
    | _ => word
  | _, _ => word

end AuroraLint.Toml
