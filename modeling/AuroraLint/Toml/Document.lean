import AuroraLint.Toml.Scalar
import AuroraLint.Toml.Table

/-!
# TOML documents

* `readKey`   : a key with its dots.
* `readValue` : a value of any kind.
* `parse?`    : the members of a document; `none` when it is not well formed.
-/

set_option autoImplicit false

namespace AuroraLint.Toml

/-- Nesting of values, and length of dotted keys, from which a document is refused. -/
def depthLimit : Nat := 80

/-! ## Blanks and comments -/

/-- The text without the spaces and tabs it starts with. -/
def skipGaps (cs : List Char) : List Char :=
  cs.dropWhile isGap

/-- The text without the comment it may start with. -/
def skipComment (cs : List Char) : List Char :=
  match cs with
  | '#' :: rest => rest.dropWhile isPlain
  | _ => cs

/-- The text after the blanks and the comment that may end a line, and after its newline. -/
def endLine (cs : List Char) : Option (List Char) :=
  match skipComment (skipGaps cs) with
  | [] => some []
  | cs => if atNewline cs then some (skipNewline cs) else none

/-- The text without the blanks, comments and newlines it starts with. `inComment` says that a
comment is open; a comment has to end with its line. -/
def skipTrivia (inComment : Bool) : List Char → List Char
  | [] => []
  | '\r' :: '\n' :: rest => skipTrivia false rest
  | c :: rest =>
    if c = '\n' then skipTrivia false rest
    else if inComment then (if isPlain c then skipTrivia true rest else c :: rest)
    else if isGap c then skipTrivia false rest
    else if c = '#' then skipTrivia true rest
    else c :: rest

/-! ## Keys -/

/-- A character of a key without quotes. -/
def isBareKey (c : Char) : Bool :=
  c.isAlphanum || c == '-' || c == '_'

/-- One part of a key. -/
def simpleKey (cs : List Char) : Option (List Char × List Char) :=
  match cs with
  | '"' :: rest => basicTail rest
  | '\'' :: rest => literalTail rest
  | _ =>
    let word := cs.takeWhile isBareKey
    if word.isEmpty then none else some (word, cs.drop word.length)

/-- The parts of a key, of which there can be at most as many as `fuel`. -/
def keyParts (fuel : Nat) (cs : List Char) : Option (List String × List Char) :=
  match fuel with
  | 0 => none
  | fuel + 1 => do
    let (part, rest) ← simpleKey (skipGaps cs)
    let part := String.ofList part
    match skipGaps rest with
    | '.' :: rest => do
      let (parts, rest) ← keyParts fuel rest
      return (part :: parts, rest)
    | rest => return ([part], rest)

/-- A key: the parts before its last one, that one, and the rest of the text. -/
def readKey (cs : List Char) : Option (List String × String × List Char) := do
  let (parts, rest) ← keyParts cs.length cs
  let key ← parts.getLast?
  if depthLimit ≤ parts.length then none else some (parts.dropLast, key, rest)

/-! ## Values -/

mutual

/-- A value at the head of a text and what follows it, inside `depth` arrays and tables. -/
def readValue (fuel depth : Nat) (cs : List Char) : Option (Value × List Char) :=
  match fuel with
  | 0 => none
  | fuel + 1 =>
    match cs with
    | '[' :: rest =>
      if depthLimit ≤ depth + 1 then none
      else (readItems fuel (depth + 1) (skipTrivia false rest)).map fun (items, rest) =>
        (.array items, rest)
    | '\x7b' :: rest =>
      if depthLimit ≤ depth + 1 then none
      else
        match skipGaps rest with
        | '\x7d' :: rest => some (.inlineTable .explicit [], rest)
        | rest => do
          let (pairs, rest) ← readPairs fuel (depth + 1) rest
          return (.inlineTable .explicit (← inlineOfPairs? pairs), rest)
    | '"' :: _ | '\'' :: _ =>
      (readString cs).map fun (text, rest) => (.string (String.ofList text), rest)
    | _ =>
      let word := takeWord cs
      (ofWord? word).map fun value => (value, cs.drop word.length)

/-- The items of an array and what follows its `]`. A comma may stand after the last item. -/
def readItems (fuel depth : Nat) (cs : List Char) : Option (List Value × List Char) :=
  match fuel with
  | 0 => none
  | fuel + 1 =>
    match cs with
    | ']' :: rest => some ([], rest)
    | _ => do
      let (item, rest) ← readValue fuel depth cs
      match skipTrivia false rest with
      | ']' :: rest => return ([item], rest)
      | ',' :: rest => do
        let (items, rest) ← readItems fuel depth (skipTrivia false rest)
        return (item :: items, rest)
      | _ => none

/-- The keys and values between braces, at least one, and what follows the closing brace. -/
def readPairs (fuel depth : Nat) (cs : List Char) :
    Option (List (List String × String × Value) × List Char) :=
  match fuel with
  | 0 => none
  | fuel + 1 => do
    let (path, key, rest) ← readKey cs
    let '=' :: rest := rest | none
    let (value, rest) ← readValue fuel depth (skipGaps rest)
    match skipGaps rest with
    | '\x7d' :: rest => return ([(path, key, value)], rest)
    | ',' :: rest => do
      let (pairs, rest) ← readPairs fuel depth rest
      return ((path, key, value) :: pairs, rest)
    | _ => none

end

/-! ## Documents -/

/-- What has been read: the members of the document, and the path of the table that keys go to. -/
structure State where
  root : Members := []
  path : List String := []
  deriving Repr, Inhabited

/-- Reads the line of a header or of a key and its value, and gives the text after it. -/
def readLine (st : State) (cs : List Char) : Option (State × List Char) :=
  match cs with
  | '[' :: '[' :: rest => do
    let (path, key, rest) ← readKey rest
    let ']' :: ']' :: rest := rest | none
    return (⟨← addTables st.root path key, path ++ [key]⟩, ← endLine rest)
  | '[' :: rest => do
    let (path, key, rest) ← readKey rest
    let ']' :: rest := rest | none
    return (⟨← addTable st.root path key, path ++ [key]⟩, ← endLine rest)
  | _ => do
    let (path, key, rest) ← readKey cs
    let '=' :: rest := rest | none
    let rest := skipGaps rest
    let (value, rest) ← readValue (2 * rest.length + 2) 0 rest
    let rest ← endLine rest
    let root ← modify false (fun form ms => addKey form ms path key value) .explicit st.root st.path
    return ({ st with root }, rest)

/-- Reads the lines of a text, at most `fuel` of them. -/
def readLines (fuel : Nat) (st : State) (cs : List Char) : Option State :=
  match fuel with
  | 0 => none
  | fuel + 1 =>
    match skipGaps cs with
    | [] => some st
    | '#' :: rest => do readLines fuel st (← endLine ('#' :: rest))
    | cs =>
      if atNewline cs then readLines fuel st (skipNewline cs)
      else do
        let (st, rest) ← readLine st cs
        readLines fuel st rest

/-- The members of a document, which may start with a byte order mark. -/
def parse? (text : String) : Option Members :=
  let cs := match text.toList with
    | '\uFEFF' :: rest => rest
    | cs => cs
  (readLines (cs.length + 1) {} cs).map (·.root)

end AuroraLint.Toml
