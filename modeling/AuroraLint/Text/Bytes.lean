import AuroraLint.Text.Utf8

/-!
# Texts as bytes

Programs read and write bytes, which need not spell a text. Here bytes are characters with numbers
below 256, so that they can be compared with the characters that matter to a program.

* `Bytes.ofText`  : the bytes of a text.
* `Bytes.toText`  : the text that bytes spell; every ill-formed part becomes U+FFFD.
* `Bytes.toText?` : the text that bytes spell, if they are well-formed.
-/

set_option autoImplicit false

namespace AuroraLint

/-- Bytes, each as the character of its number. -/
abbrev Bytes := List Char

namespace Bytes

/-- The character of a byte. -/
def ofByte (b : UInt8) : Char :=
  Char.ofNat b.toNat

/-- The bytes of characters. -/
def ofChars (cs : List Char) : Bytes :=
  (cs.flatMap String.utf8EncodeChar).map ofByte

/-- The bytes of a text. -/
def ofText (s : String) : Bytes :=
  ofChars s.toList

/-- The characters that bytes spell, with U+FFFD for each ill-formed part. -/
def toChars (b : Bytes) : List Char :=
  Text.decodeLossy (b.map fun c => c.toNat.toUInt8)

/-- The text that bytes spell, with U+FFFD for each ill-formed part. -/
def toText (b : Bytes) : String :=
  String.ofList b.toChars

/-- The text that bytes spell; `none` if a part is ill-formed. -/
def toText? (b : Bytes) : Option String :=
  String.fromUTF8? ⟨(b.map fun c => c.toNat.toUInt8).toArray⟩

/-- The digits of a number. -/
def ofNat (n : Nat) : Bytes :=
  Nat.toDigits 10 n

/-- The digits of a number, with its sign. -/
def ofInt (n : Int) : Bytes :=
  if n < 0 then '-' :: ofNat n.natAbs else ofNat n.natAbs

/-- The pieces of bytes between the bytes that divide them. -/
def split (isDivider : Char → Bool) : Bytes → List Bytes
  | [] => [[]]
  | c :: cs =>
    match isDivider c, split isDivider cs with
    | true, pieces => [] :: pieces
    | false, piece :: pieces => (c :: piece) :: pieces
    | false, [] => [[c]]

/-- The lines of bytes, without their ends. What follows the last line end is a line if it is not
empty. -/
def lines (b : Bytes) : List Bytes :=
  let pieces := split (· == '\n') b
  if pieces.getLast? = some [] then pieces.dropLast else pieces

/-- Bytes come before others in the order of their numbers. -/
def precedes : Bytes → Bytes → Bool
  | [], _ => true
  | _ :: _, [] => false
  | a :: as, b :: bs => if a = b then precedes as bs else a.toNat < b.toNat

end Bytes

end AuroraLint
