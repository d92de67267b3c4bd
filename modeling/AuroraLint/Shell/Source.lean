import AuroraLint.Shell.Command

/-!
# The source of a script

* `Shell.Token`  : what a script is made of between its blanks.
* `Shell.Source` : what is left of a script, and what is remembered of the part that was read.
* `Shell.Read`   : reading from a source, which can fail with a complaint.

A backslash before a line end joins two lines, almost everywhere.

Part of the host of recorded runs (`Workspace.host`); no result is about it.
-/

set_option autoImplicit false

namespace AuroraLint.Shell

/-! ## Tokens -/

/-- The words that structure commands. -/
inductive Keyword where
  | not | case | do | done | elif | else | esac | fi | for | if | in | then | until | while
  | openBrace | closeBrace
  deriving DecidableEq, Repr

namespace Keyword

/-- How a keyword is written. -/
def spelling : Keyword → String
  | .not => "!"
  | .case => "case"
  | .do => "do"
  | .done => "done"
  | .elif => "elif"
  | .else => "else"
  | .esac => "esac"
  | .fi => "fi"
  | .for => "for"
  | .if => "if"
  | .in => "in"
  | .then => "then"
  | .until => "until"
  | .while => "while"
  | .openBrace => "\x7b"
  | .closeBrace => "\x7d"

/-- All keywords. -/
def all : List Keyword :=
  [.not, .case, .do, .done, .elif, .else, .esac, .fi, .for, .if, .in, .then, .until, .while,
   .openBrace, .closeBrace]

/-- The keyword with a spelling. -/
def ofBytes? (b : Bytes) : Option Keyword :=
  all.find? fun k => k.spelling.toList = b

/-- Keywords that end a list of commands. -/
def endsList : Keyword → Bool
  | .do | .done | .elif | .else | .esac | .fi | .then | .closeBrace => true
  | _ => false

end Keyword

/-- What a redirection starts with. A document can have the tabs before its lines dropped. -/
structure RedirectionHead where
  descriptor : Nat
  direction : Direction
  dropsTabs : Bool := false

/-- What a script is made of. -/
inductive Token where
  | finish
  | newline
  | semicolon
  | background
  | andThen
  | orElse
  | bar
  | openParen
  | closeParen
  | endBranch
  | redirection (head : RedirectionHead)
  /-- A word, and whether anything in it is quoted. -/
  | word (w : Word) (quoted : Bool)
  | keyword (k : Keyword)

namespace Token

/-- The name of a token in a complaint. -/
def shown : Token → String
  | .finish => "end of file"
  | .newline => "newline"
  | .semicolon => "\";\""
  | .background => "\"&\""
  | .andThen => "\"&&\""
  | .orElse => "\"||\""
  | .bar => "\"|\""
  | .openParen => "\"(\""
  | .closeParen => "\")\""
  | .endBranch => "\";;\""
  | .redirection _ => "redirection"
  | .word _ _ => "word"
  | .keyword k => "\"" ++ k.spelling ++ "\""

/-- Tokens that end a list of commands. -/
def endsList : Token → Bool
  | .finish | .closeParen | .endBranch => true
  | .keyword k => k.endsList
  | _ => false

/-- The token is a keyword. -/
def isKeyword (t : Token) (k : Keyword) : Bool :=
  match t with
  | .keyword l => l == k
  | _ => false

end Token

/-! ## Sources -/

/-- A document that follows a command and has not been read. -/
structure PendingDocument where
  id : Nat
  /-- The line that ends it. -/
  mark : Bytes
  dropsTabs : Bool
  /-- Parameters in it are expanded. -/
  expands : Bool
  deriving DecidableEq, Repr

/-- A word that another text has been put in the place of, and how much of the source is left behind
that text. A text that ends in a blank lets the word behind it be replaced too. -/
structure Replacement where
  name : Bytes
  rest : Nat
  goesOn : Bool
  deriving DecidableEq, Repr

/-- What is left of a script, and what is remembered of the part that was read. -/
structure Source where
  rest : Bytes
  line : Nat := 1
  /-- A token that was put back. -/
  pushed : Option Token := none
  /-- The word that was read last. -/
  lastWord : Word := []
  pending : List PendingDocument := []
  /-- The documents that were read, by their numbers. -/
  documents : List (Nat × Word) := []
  nextDocument : Nat := 0
  /-- The texts that stand for words. -/
  aliases : List (Bytes × Bytes) := []
  replacements : List Replacement := []

/-- Why a script cannot be read on. -/
inductive Fault where
  | badLoopVariable
  | badFunctionName
  | unclosedQuotes
  | unclosedBrace
  | unclosedArithmetic
  | unclosedBackquote
  | unexpected (token : Token) (expected : Option Token)
  /-- Commands stand too deep inside one another. -/
  | tooDeep

/-- What is said about a fault. -/
def Fault.message : Fault → String
  | .badLoopVariable => "Bad for loop variable"
  | .badFunctionName => "Bad function name"
  | .unclosedQuotes => "Unterminated quoted string"
  | .unclosedBrace => "Missing '\x7d'"
  | .unclosedArithmetic => "Missing '))'"
  | .unclosedBackquote => "EOF in backquote substitution"
  | .unexpected token none => token.shown ++ " unexpected"
  | .unexpected token (some expected) =>
    token.shown ++ " unexpected (expecting " ++ expected.shown ++ ")"
  | .tooDeep => "commands are nested too deep"

/-- Reading from a source. -/
abbrev Read := EStateM Fault Source

namespace Read

/-- The next character; `none` at the end. -/
def char : Read (Option Char) :=
  modifyGet fun s =>
    match s.rest with
    | [] => (none, s)
    | c :: cs => (some c, { s with rest := cs })

/-- What is left behind joined lines, and the line that it starts on. -/
def joinLines (line : Nat) : Bytes → Nat × Bytes
  | '\\' :: '\n' :: cs => joinLines (line + 1) cs
  | cs => (line, cs)

/-- The next character behind joined lines. -/
def joinedChar : Read (Option Char) := do
  modify fun s =>
    let (line, rest) := joinLines s.line s.rest
    { s with line, rest }
  char

/-- Puts a character back. -/
def putBack (c : Option Char) : Read Unit :=
  modify fun s => { s with rest := c.toList ++ s.rest }

/-- Another line begins. -/
def nextLine : Read Unit :=
  modify fun s => { s with line := s.line + 1 }

/-- Puts a token back. -/
def putBackToken (t : Token) : Read Unit :=
  modify fun s => { s with pushed := some t }

/-- How many steps a loop can take that reads at least one character in each. -/
def bound : Read Nat := do
  return (← get).rest.length + 2

/-- The characters of a kind at the head of the source, behind a first one, and the character that
follows them; at most `fuel`. -/
def run (isKind : Char → Bool) : Nat → Option Char → Read (Bytes × Option Char)
  | 0, next => pure ([], next)
  | _ + 1, none => pure ([], none)
  | fuel + 1, some c =>
    if isKind c then do
      let (more, next) ← run isKind fuel (← joinedChar)
      return (c :: more, next)
    else pure ([], some c)

end Read

end AuroraLint.Shell
