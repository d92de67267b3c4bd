import AuroraLint.Text.Bytes

/-!
# Patterns

A pattern is bytes in which `*` stands for any bytes, `?` for one byte, and brackets for one byte of
a set; a backslash takes the meaning from the byte behind it.

* `Pattern.fits`   : a text is what a pattern describes.
* `Pattern.trim`   : a text without the part at its front or end that a pattern describes.
* `Pattern.isWild` : a pattern describes more than one text.

Part of the host of recorded runs (`Workspace.host`); no result is about it.
-/

set_option autoImplicit false

namespace AuroraLint.Shell.Pattern

/-! ## Sets of bytes -/

/-- The number of a byte, in the order in which ranges are taken: those from 128 on come first. -/
def rank (c : Char) : Int :=
  if c.toNat < 128 then c.toNat else (c.toNat : Int) - 256

/-- A byte below 128 that prints something, the blank aside. -/
def isGraphic (c : Char) : Bool :=
  '!' ≤ c && c ≤ '~'

/-- The classes of bytes that have names. -/
def classes : List (String × (Char → Bool)) :=
  [("alnum", Char.isAlphanum),
   ("alpha", Char.isAlpha),
   ("blank", fun c => c == ' ' || c == '\t'),
   ("cntrl", fun c => c.toNat < 32 || c.toNat == 127),
   ("digit", Char.isDigit),
   ("graph", isGraphic),
   ("lower", Char.isLower),
   ("print", fun c => isGraphic c || c == ' '),
   ("punct", fun c => isGraphic c && !c.isAlphanum),
   ("space", fun c => c == ' ' || ('\t' ≤ c && c ≤ '\r')),
   ("upper", Char.isUpper),
   ("xdigit", fun c => c.isDigit || ('a' ≤ c.toLower && c.toLower ≤ 'f'))]

/-- The class whose name stands behind a bracket, and what follows it. -/
def class? (cs : Bytes) : Option ((Char → Bool) × Bytes) :=
  classes.findSome? fun (name, isKind) =>
    let text := (":" ++ name ++ ":]").toList
    if text.isPrefixOf cs then some (isKind, cs.drop text.length) else none

/-- A byte that a set names, and what follows it. Behind a backslash, any byte is one. -/
def member : Char → Bytes → Char × Bytes
  | '\\', c :: cs => (c, cs)
  | c, cs => (c, cs)

/-- The set whose next byte is `c`: whether it has the byte `b`, and what follows the bracket that
closes it; `none` if none does. At most `fuel` members are read. -/
def set? (b : Char) (found : Bool) : Nat → Bytes → Option (Bool × Bytes)
  | 0, _ => none
  | _ + 1, [] => none
  | fuel + 1, c :: cs =>
    let go := fun (found : Bool) (rest : Bytes) =>
      match rest with
      | ']' :: rest => some (found, rest)
      | rest => set? b found fuel rest
    match if c = '[' then class? cs else none with
    | some (isKind, rest) => go (found || isKind b) rest
    | none =>
      let (low, cs) := member c cs
      match cs with
      | '-' :: d :: rest =>
        if d = ']' then go (found || b == low) cs
        else
          let (high, rest) := member d rest
          go (found || (rank low ≤ rank b && rank b ≤ rank high)) rest
      | cs => go (found || b == low) cs

/-- Whether the set behind a bracket has a byte, and what follows the set; `none` if the bracket opens
none. -/
def bracket? (b : Char) (cs : Bytes) : Option (Bool × Bytes) :=
  match cs with
  | '!' :: rest => (set? b false (rest.length + 1) rest).map fun (found, rest) => (!found, rest)
  | cs => set? b false (cs.length + 1) cs

/-! ## Matching -/

/-- A text is what a pattern describes; `fuel` is as long as both together. -/
def fitsWithin : Nat → Bytes → Bytes → Bool
  | 0, _, _ => false
  | _ + 1, [], text => text.isEmpty
  | fuel + 1, p :: ps, text =>
    let literal := fun (c : Char) (ps : Bytes) =>
      match text with
      | [] => false
      | b :: rest => b == c && fitsWithin fuel ps rest
    match p with
    | '\\' =>
      match ps with
      | c :: ps => literal c ps
      | [] => literal '\\' []
    | '?' =>
      match text with
      | [] => false
      | _ :: rest => fitsWithin fuel ps rest
    | '*' =>
      fitsWithin fuel ps text ||
        match text with
        | [] => false
        | _ :: rest => fitsWithin fuel (p :: ps) rest
    | '[' =>
      match text with
      | [] => false
      | b :: rest =>
        match bracket? b ps with
        | some (found, ps) => found && fitsWithin fuel ps rest
        | none => literal '[' ps
    | c => literal c ps

/-- A text is what a pattern describes. -/
def fits (pattern text : Bytes) : Bool :=
  fitsWithin (pattern.length + text.length + 1) pattern text

/-- The part of a text before its first null character, where a pattern takes it to end. -/
def seen (text : Bytes) : Bytes :=
  text.takeWhile (· != '\x00')

/-- The places at which a text can be cut in the order in which they are tried: from its front to the
first null character in it, or from its end to its front. -/
def places (fromFront : Bool) (text : Bytes) : List Nat :=
  if fromFront then List.range ((seen text).length + 1)
  else (List.range (text.length + 1)).reverse

/-- The number of bytes at the front or end of a text that a pattern describes; as many or as few as
possible. -/
def cut? (pattern text : Bytes) (front greedy : Bool) : Option Nat :=
  let place? := (places (front != greedy) text).find? fun n =>
    fits pattern (seen (if front then text.take n else text.drop n))
  place?.map fun n => if front then n else text.length - n

/-! ## Wildness -/

/-- A bracket before these bytes is closed before the next slash. -/
def isClosed : Bytes → Bool
  | [] => false
  | '/' :: _ => false
  | '\\' :: _ :: rest => closes rest
  | _ :: rest => closes rest
where
  /-- The bracket is closed at these bytes or later. -/
  closes : Bytes → Bool
    | [] => false
    | ']' :: _ => true
    | '/' :: _ => false
    | '\\' :: _ :: rest => closes rest
    | _ :: rest => closes rest

/-- The bytes behind an opening bracket close it. -/
def opensSet : Bytes → Bool
  | '!' :: rest => isClosed rest
  | rest => isClosed rest

/-- A pattern describes more than one text. -/
def isWild : Bytes → Bool
  | [] => false
  | '*' :: _ => true
  | '?' :: _ => true
  | '\\' :: _ :: rest => isWild rest
  | '[' :: rest => opensSet rest || isWild rest
  | _ :: rest => isWild rest

/-- A pattern without its backslashes. -/
def literal : Bytes → Bytes
  | '\\' :: c :: rest => c :: literal rest
  | c :: rest => c :: literal rest
  | [] => []

end AuroraLint.Shell.Pattern
