import AuroraLint.Shell.Binary64
import AuroraLint.Text.Bytes

/-!
# Printing by a format

What the command `printf` of a shell prints.

* `Printf.unescape` : a text with its backslash escapes carried out.
* `Printf.print`    : a format filled with arguments, as often as it takes to use them up.

Part of the host of recorded runs (`Workspace.host`); no result is about it.
-/

set_option autoImplicit false

namespace AuroraLint.Printf

/-! ## Escapes -/

/-- The byte that a letter after a backslash stands for. -/
def escapeByte? : Char → Option Char
  | 'a' => some '\x07'
  | 'b' => some '\x08'
  | 'e' => some '\x1b'
  | 'f' => some '\x0c'
  | 'n' => some '\n'
  | 'r' => some '\r'
  | 't' => some '\t'
  | 'v' => some '\x0b'
  | '\\' => some '\\'
  | _ => none

/-- The octal number of up to three digits at the head of a text, and its length. -/
def octal (cs : Bytes) : Bytes × Nat :=
  let digits := (cs.take 3).takeWhile (Numeral.isDigit 8)
  ([Bytes.ofByte (Numeral.value 8 digits).toUInt8], digits.length)

/-- What a backslash before a text stands for: bytes, and how many characters of the text it
takes. -/
def escape : Bytes → Bytes × Nat
  | [] => (['\\'], 0)
  | c :: cs =>
    if Numeral.isDigit 8 c then octal (c :: cs)
    else
      match escapeByte? c with
      | some b => ([b], 1)
      | none => (['\\'], 0)

/-- A text with its escapes, the first `skip` characters being part of one already read. Here an
octal number may have a zero before its three digits, and `\c` ends all printing, which the answer
says. -/
def unescape (skip : Nat) : Bytes → Bytes × Bool
  | [] => ([], false)
  | c :: cs =>
    match skip with
    | skip + 1 => unescape skip cs
    | 0 =>
      let (out, skip, stop) :=
        if c = '\\' then
          match cs with
          | 'c' :: _ => ([], 0, true)
          | '0' :: ds => ((octal ds).1, (octal ds).2 + 1, false)
          | cs => ((escape cs).1, (escape cs).2, false)
        else ([c], 0, false)
      if stop then (out, true)
      else
        let (rest, stop) := unescape skip cs
        (out ++ rest, stop)

/-! ## Numbers -/

/-- A number read from the head of a text: its sign, its size, and what follows it. -/
structure Reading where
  negative : Bool
  size : Nat
  rest : Bytes
  deriving DecidableEq, Repr

/-- The digits of a base at the head of a text as a number. -/
def readDigits (negative : Bool) (base : Nat) (cs : Bytes) : Reading :=
  ⟨negative, Numeral.value base (cs.takeWhile (Numeral.isDigit base)),
    cs.dropWhile (Numeral.isDigit base)⟩

/-- Reads a number: blanks, a sign, and decimal digits, octal ones after a zero, or hexadecimal ones
after `0x`. -/
def readNumber (cs : Bytes) : Reading :=
  let (negative, ds) := Numeral.sign cs
  match ds with
  | '0' :: x :: d :: rest =>
    if x.toLower = 'x' ∧ Numeral.isDigit 16 d then readDigits negative 16 (d :: rest)
    else readDigits negative 8 ds
  | '0' :: _ => readDigits negative 8 ds
  | d :: _ => if d.isDigit then readDigits negative 10 ds else ⟨false, 0, cs⟩
  | [] => ⟨false, 0, cs⟩

/-- The least number of 64 bits that is too large, with and without a sign. -/
def limit (signed : Bool) : Nat :=
  if signed then 9223372036854775808 else 18446744073709551616

/-- What is wrong with an argument of which `rest` is left over: it does not start with a number,
has more than a number, or is out of range. -/
def fault? (arg rest : Bytes) (outOfRange : Bool) : Option String :=
  if rest.isEmpty then if outOfRange then some "Numerical result out of range" else none
  else if rest.length = arg.length then some "expected numeric value"
  else some "not completely converted"

/-- The number that an argument stands for by a quote: that of the first byte behind it. -/
def quoted? : Bytes → Option Nat
  | '"' :: cs => some (cs.head?.getD '\x00').toNat
  | '\'' :: cs => some (cs.head?.getD '\x00').toNat
  | _ => none

/-- The number that an argument stands for, and what is wrong with it. Without a sign, a negative
number counts from the limit down. -/
def number (signed : Bool) (arg : Bytes) : Int × Option String :=
  match quoted? arg with
  | some n => (n, none)
  | none =>
    let r := readNumber arg
    let top := if signed && r.negative then limit true else limit signed - 1
    let size := min r.size top
    let fault := fault? arg r.rest (top < r.size)
    if r.negative then
      if signed then (-(size : Int), fault)
      else if top < r.size then (size, fault)
      else (((limit false - size) % limit false : Nat), fault)
    else (size, fault)

/-- The floating-point number that an argument stands for, behind its sign, and what is wrong with
it. -/
def real (arg : Bytes) : (Bool × Binary64) × Option String :=
  match quoted? arg with
  | some n => ((false, (Binary64.ofRatio n 1).1), none)
  | none =>
    let r := Binary64.read arg
    ((r.negative, r.number), fault? arg r.rest r.outOfRange)

/-! ## Conversions -/

/-- How a converted argument is laid out. -/
structure Layout where
  left : Bool := false
  plus : Bool := false
  blank : Bool := false
  zero : Bool := false
  alternate : Bool := false
  width : Nat := 0
  precision : Option Nat := none
  deriving DecidableEq, Repr

namespace Layout

/-- The layout with a flag. -/
def addFlag (l : Layout) (c : Char) : Layout :=
  match c with
  | '-' => { l with left := true }
  | '+' => { l with plus := true }
  | ' ' => { l with blank := true }
  | '0' => { l with zero := true }
  | _ => { l with alternate := true }

/-- A text in a field that is at least as wide as asked for. -/
def fill (l : Layout) (out : Bytes) : Bytes :=
  let blanks := List.replicate (l.width - out.length) ' '
  if l.left then out ++ blanks else blanks ++ out

/-- A text, cut to the precision. -/
def text (l : Layout) (out : Bytes) : Bytes :=
  l.fill (match l.precision with
    | some n => out.take n
    | none => out)

/-- The least number of digits after a mark: the precision. Without one, zeros can fill the
field. -/
def leastDigits (l : Layout) (mark : Bytes) : Nat :=
  match l.precision with
  | some n => n
  | none => if l.zero && !l.left then l.width - mark.length else 0

/-- Digits after a sign or mark. With a precision of zero, the number zero has none. -/
def digits (l : Layout) (mark : Bytes) (ds : Bytes) : Bytes :=
  let ds := if l.precision = some 0 ∧ ds = ['0'] then [] else ds
  l.fill (mark ++ List.replicate (l.leastDigits mark - ds.length) '0' ++ ds)

/-- The sign of a number. -/
def sign (l : Layout) (negative : Bool) : Bytes :=
  if negative then ['-'] else if l.plus then ['+'] else if l.blank then [' '] else []

/-- A number with its sign. -/
def signed (l : Layout) (n : Int) : Bytes :=
  l.digits (l.sign (n < 0)) (Nat.toDigits 10 n.natAbs)

/-- A number without sign in a base. The alternate form marks the base. -/
def unsigned (l : Layout) (base : Nat) (upper : Bool) (n : Nat) : Bytes :=
  let ds := Nat.toDigits base n
  let ds := if upper then ds.map Char.toUpper else ds
  if l.alternate && base == 16 && n != 0 then l.digits ['0', if upper then 'X' else 'x'] ds
  else if l.alternate && base == 8 && n == 0 then l.fill (Numeral.padded 8 (l.leastDigits []) 0)
  else if l.alternate && base == 8 && l.precision.getD 0 ≤ ds.length then
    l.digits [] ('0' :: ds)
  else l.digits [] ds

/-- A floating-point number in the notation of a small letter. Only a finite one is filled up with
zeros. -/
def real (l : Layout) (letter : Char) (negative : Bool) (x : Binary64) : Bytes :=
  let sign := l.sign negative
  let places := l.precision.getD 6
  match x with
  | .infinite => sign ++ ['i', 'n', 'f']
  | .undefined => sign ++ ['n', 'a', 'n']
  | .finite size =>
    let (mark, body) := match letter with
      | 'f' => (sign, Binary64.positional l.alternate places size)
      | 'e' => (sign, Binary64.scientific l.alternate places size)
      | 'g' => (sign, Binary64.general l.alternate places size)
      | _ => (sign ++ ['0', 'x'], Binary64.binary l.alternate l.precision size)
    let least := if l.zero && !l.left then l.width - mark.length else 0
    mark ++ List.replicate (least - body.length) '0' ++ body

end Layout

/-- The arguments that are left, and what has been said about those taken. -/
structure Supply where
  args : List Bytes
  complaints : List Bytes := []
  deriving DecidableEq, Repr

namespace Supply

/-- The next argument; a missing one is empty. -/
def text (s : Supply) : Bytes × Supply :=
  (s.args.head?.getD [], { s with args := s.args.tail })

/-- What is said about an argument. -/
def blame (s : Supply) (arg : Bytes) : Option String → Supply
  | none => s
  | some fault => { s with complaints := s.complaints ++ [arg ++ (": " ++ fault).toList] }

/-- The next argument as a number; a missing one is zero. -/
def number (s : Supply) (signed : Bool) : Int × Supply :=
  let (arg, rest) := s.text
  let (n, fault) := Printf.number signed arg
  (n, rest.blame arg fault)

/-- The next argument as a floating-point number; a missing one is zero. -/
def real (s : Supply) : (Bool × Binary64) × Supply :=
  let (arg, rest) := s.text
  let (x, fault) := Printf.real arg
  (x, rest.blame arg fault)

end Supply

/-- A number cut to 32 bits with a sign, as widths are. -/
def short (n : Int) : Int :=
  Int.bmod n 4294967296

/-- Reads the flags, width and precision at the head of a text, and says how many characters they
take. A star takes its number from the arguments. -/
def readLayout (s : Supply) (cs : Bytes) : Layout × Nat × Supply :=
  let isFlag := fun c => c = '#' || c = '-' || c = '+' || c = ' ' || c = '0'
  let flags := cs.takeWhile isFlag
  let l := flags.foldl Layout.addFlag {}
  let cs := cs.dropWhile isFlag
  let (l, taken, cs, s) := match cs with
    | '*' :: rest =>
      let (n, s) := s.number true
      ({ l with width := (short n).natAbs, left := l.left || short n < 0 }, 1, rest, s)
    | _ =>
      let ds := cs.takeWhile Char.isDigit
      ({ l with width := Numeral.value 10 ds }, ds.length, cs.dropWhile Char.isDigit, s)
  let taken := flags.length + taken
  match cs with
  | '.' :: '*' :: _ =>
    let (n, s) := s.number true
    ({ l with precision := if short n < 0 then none else some (short n).natAbs }, taken + 2, s)
  | '.' :: rest =>
    let ds := rest.takeWhile Char.isDigit
    ({ l with precision := some (Numeral.value 10 ds) }, taken + 1 + ds.length, s)
  | _ => (l, taken, s)

/-- Why printing ends early. -/
inductive Stop where
  /-- A text asked for it. -/
  | requested
  /-- A conversion is not known or not there. -/
  | failed (message : Bytes)
  deriving DecidableEq, Repr

/-- The next argument as a floating-point number in the notation of a letter. A capital letter makes
capitals of all others. -/
def convertReal (c : Char) (l : Layout) (s : Supply) : Bytes × Supply :=
  let ((negative, x), s) := s.real
  let text := l.real c.toLower negative x
  (l.fill (if c.isUpper then text.map Char.toUpper else text), s)

/-- One conversion: its letter, its layout, the arguments, and how it is written. -/
def convert (c : Char) (l : Layout) (s : Supply) (spelling : Bytes) :
    Bytes × Supply × Option Stop :=
  match c with
  | 's' => (l.text s.text.1, s.text.2, none)
  | 'b' =>
    let (out, stop) := unescape 0 s.text.1
    (l.text out, s.text.2, if stop then some .requested else none)
  | 'c' => (l.fill [s.text.1.head?.getD '\x00'], s.text.2, none)
  | 'd' | 'i' => let (n, s) := s.number true; (l.signed n, s, none)
  | 'u' => let (n, s) := s.number false; (l.unsigned 10 false n.toNat, s, none)
  | 'o' => let (n, s) := s.number false; (l.unsigned 8 false n.toNat, s, none)
  | 'x' => let (n, s) := s.number false; (l.unsigned 16 false n.toNat, s, none)
  | 'X' => let (n, s) := s.number false; (l.unsigned 16 true n.toNat, s, none)
  | 'a' | 'A' | 'e' | 'E' | 'f' | 'F' | 'g' | 'G' =>
    let (out, s) := convertReal c l s
    (out, s, none)
  | _ => ([], s, some (.failed (spelling ++ ": invalid directive".toList)))

/-! ## Formats -/

/-- One pass over a format, the first `skip` characters being part of what has been read. -/
def pass (skip : Nat) (s : Supply) : Bytes → Bytes × Supply × Option Stop
  | [] => ([], s, none)
  | c :: cs =>
    match skip with
    | skip + 1 => pass skip s cs
    | 0 =>
      let (out, skip, s, stop) :=
        if c = '\\' then ((escape cs).1, (escape cs).2, s, none)
        else if c = '%' then
          if cs.head? = some '%' then (['%'], 1, s, none)
          else
            let (l, n, s) := readLayout s cs
            match cs[n]? with
            | none => ([], 0, s, some (.failed "missing format character".toList))
            | some d =>
              let (out, s, stop) := convert d l s (c :: cs.take (n + 1))
              (out, n + 1, s, stop)
        else ([c], 0, s, none)
      match stop with
      | some stop => (out, s, some stop)
      | none =>
        let (rest, s, stop) := pass skip s cs
        (out ++ rest, s, stop)

/-- The format again and again while it takes arguments and some are left, `fuel` times at most. -/
def passes (format : Bytes) (s : Supply) : Nat → Bytes × Supply × Option Stop
  | 0 => ([], s, none)
  | fuel + 1 =>
    match pass 0 s format with
    | (out, rest, none) =>
      if rest.args.isEmpty || rest.args.length == s.args.length then (out, rest, none)
      else
        let (more, rest, stop) := passes format rest fuel
        (out ++ more, rest, stop)
    | stopped => stopped

/-- What is printed, what is said about the arguments, and whether a conversion failed. -/
structure Printed where
  output : Bytes
  complaints : List Bytes
  failed : Bool
  deriving DecidableEq, Repr

/-- A format filled with arguments. -/
def print (format : Bytes) (args : List Bytes) : Printed :=
  match passes format { args } (args.length + 1) with
  | (output, s, some (.failed message)) => ⟨output, s.complaints ++ [message], true⟩
  | (output, s, _) => ⟨output, s.complaints, false⟩

end AuroraLint.Printf
