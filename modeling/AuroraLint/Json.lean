/-!
# JSON documents

The JSON values that reports are written as, and their indented text.

* `Json.pretty` : two blanks of indentation per level, members one to a line.
-/

set_option autoImplicit false

namespace AuroraLint

/-- A JSON value. Numbers are natural, and the members of an object keep their order. -/
inductive Json where
  | number (n : Nat)
  | text (s : String)
  | array (items : List Json)
  | object (members : List (String × Json))
  deriving Repr, Inhabited

namespace Json

/-- A hexadecimal digit, lower case. -/
def hexDigit (n : Nat) : Char :=
  if n < 10 then Char.ofNat (n + 48) else Char.ofNat (n + 87)

/-- A character inside a string: quotes, backslashes and control characters are escaped. -/
def escape (c : Char) : List Char :=
  match c with
  | '"' => ['\\', '"']
  | '\\' => ['\\', '\\']
  | '\n' => ['\\', 'n']
  | '\r' => ['\\', 'r']
  | '\t' => ['\\', 't']
  | '\x08' => ['\\', 'b']
  | '\x0c' => ['\\', 'f']
  | c =>
    if c.toNat < 32 then
      ['\\', 'u', '0', '0', hexDigit (c.toNat / 16), hexDigit (c.toNat % 16)]
    else [c]

/-- A string with its quotes. -/
def quote (s : String) : List Char :=
  '"' :: (s.toList.flatMap escape ++ ['"'])

/-- A line feed and the indentation of a level. -/
def newline (level : Nat) : List Char :=
  '\n' :: List.replicate (2 * level) ' '

/-- Items between brackets, one to a line; nothing between them when there are none. -/
def block (opening closing : Char) (level : Nat) (items : List (List Char)) : List Char :=
  match items with
  | [] => [opening, closing]
  | items =>
    opening :: (List.intercalate [','] (items.map (newline (level + 1) ++ ·))
      ++ newline level ++ [closing])

mutual

/-- The indented text of a value that stands at indentation `level`. -/
def write (level : Nat) : Json → List Char
  | .number n => (toString n).toList
  | .text s => quote s
  | .array items => block '[' ']' level (writeItems (level + 1) items)
  | .object members => block '\x7b' '\x7d' level (writeMembers (level + 1) members)

/-- The texts of the items of an array. -/
def writeItems (level : Nat) : List Json → List (List Char)
  | [] => []
  | v :: vs => write level v :: writeItems level vs

/-- The texts of the members of an object. -/
def writeMembers (level : Nat) : List (String × Json) → List (List Char)
  | [] => []
  | (k, v) :: ms => (quote k ++ [':', ' '] ++ write level v) :: writeMembers level ms

end

/-- The indented text of a document. -/
def pretty (v : Json) : String :=
  String.ofList (write 0 v)

end Json

end AuroraLint
