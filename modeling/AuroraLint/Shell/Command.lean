import AuroraLint.Text.Bytes

/-!
# Commands of a shell

What a script is once it has been read.

* `Shell.Word`        : a word, part by part, before anything in it is expanded.
* `Shell.Redirection` : where a descriptor of a command goes.
* `Shell.Command`     : a command, with the commands inside it.

Part of the host of recorded runs (`Workspace.host`); no result is about it.
-/

set_option autoImplicit false

namespace AuroraLint.Shell

/-! ## Names -/

/-- A character that starts the name of a variable. -/
def isNameStart (c : Char) : Bool :=
  c.isAlpha || c == '_'

/-- A character of the name of a variable. -/
def isNameChar (c : Char) : Bool :=
  c.isAlphanum || c == '_'

/-- The name of a variable. -/
def isName (b : Bytes) : Bool :=
  (b.head?.any isNameStart) && b.all isNameChar

/-- A character that names a parameter by itself. -/
def isSpecialParameter (c : Char) : Bool :=
  c.isDigit || ['!', '#', '$', '*', '-', '?', '@'].contains c

/-! ## Words and commands -/

/-- What is made of the value of a parameter. -/
inductive Usage where
  | value
  /-- A word stands in for a value that is not there. -/
  | instead
  /-- A word stands for a value that is there. -/
  | provided
  /-- A value has to be there, or a word is the complaint. -/
  | required
  /-- A word becomes the value that is not there. -/
  | assigned
  | length
  /-- What a pattern matches at the front or end is cut off, as much or as little as possible. -/
  | trimmed (front greedy : Bool)
  /-- Nothing that is known. -/
  | unknown
  deriving DecidableEq, Repr

/-- What a redirection does with its descriptor. -/
inductive Direction where
  | read
  | write
  /-- Writes even where a file is to be kept. -/
  | overwrite
  | append
  | readWrite
  /-- The descriptor becomes another one, which a word names. -/
  | duplicate
  /-- The descriptor reads a document that follows the command, by its number. -/
  | document (id : Nat)
  deriving DecidableEq, Repr

mutual

/-- A part of a word. -/
inductive Part where
  | plain (c : Char)
  /-- A character that stands for itself only. -/
  | escaped (c : Char)
  /-- A quotation mark, which opens or closes quotes. -/
  | quotes
  /-- The value of a parameter; with `orEmpty`, an empty value counts as none. -/
  | parameter (name : Bytes) (usage : Usage) (orEmpty : Bool) (word : List Part)
  /-- What a command prints. -/
  | output (body : Command)
  | arithmetic (expression : List Part)

/-- Where a descriptor of a command goes. -/
inductive Redirection where
  | mk (descriptor : Nat) (direction : Direction) (target : List Part)

/-- A command. The line is that of its first word. -/
inductive Command where
  | empty
  /-- Variables that are set, words and redirections. -/
  | simple (line : Nat) (settings : List (Bytes × List Part)) (words : List (List Part))
      (redirections : List Redirection)
  /-- Each command reads what the one before it prints. -/
  | pipeline (stages : List Command) (background : Bool)
  | sequence (first second : Command)
  /-- The second runs if the first succeeds. -/
  | both (first second : Command)
  /-- The second runs if the first fails. -/
  | either (first second : Command)
  | negation (body : Command)
  | redirected (line : Nat) (body : Command) (redirections : List Redirection)
  /-- A command that changes nothing of the shell. -/
  | subshell (line : Nat) (body : Command) (redirections : List Redirection)
  | background (line : Nat) (body : Command) (redirections : List Redirection)
  | conditional (test yes : Command) (no : Option Command)
  /-- The body is repeated as long as the test succeeds, or as long as it fails. -/
  | loop (whileFails : Bool) (test body : Command)
  | each (line : Nat) (name : Bytes) (words : List (List Part)) (body : Command)
  | choice (line : Nat) (subject : List Part) (branches : List (List (List Part) × Command))
  | function (line : Nat) (name : Bytes) (body : Command)

end

instance : Inhabited Command := ⟨.empty⟩

/-- A word, part by part. -/
abbrev Word := List Part

namespace Word

/-- The word of plain characters. -/
def ofBytes (b : Bytes) : Word :=
  b.map .plain

/-- The characters of a word in which nothing is expanded. -/
def letters (w : Word) : Bytes :=
  w.filterMap fun
    | .plain c => some c
    | .escaped c => some c
    | _ => none

/-- The plain characters at the head of a word. -/
def head : Word → Bytes
  | .plain c :: rest => c :: head rest
  | _ => []

/-- The one text that a word is, if it has plain characters only. -/
def plain? (w : Word) : Option Bytes :=
  let text := head w
  if text.length = w.length then some text else none

/-- The name and the value of a word that sets a variable. -/
def assignment? (w : Word) : Option (Bytes × Word) :=
  let name := (head w).takeWhile (· != '=')
  if isName name && (head w)[name.length]? == some '=' then
    some (name, w.drop (name.length + 1))
  else none

/-- The word that stands for all arguments, each by itself. -/
def allArguments : Word :=
  [.quotes, .parameter ['@'] .value false [], .quotes]

end Word

end AuroraLint.Shell
