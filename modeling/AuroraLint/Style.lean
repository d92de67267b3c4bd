import AuroraLint.Document
import AuroraLint.Header.Reader

/-!
# Style

Checks that go line by line.

* `Style.tokenLines`        : the tokens of each line that has any.
* `Style.checkMissingBrace` : a header that ends its line without `{`; always an error.
* `Style.hints`             : names in snake case, semicolons that end a line, and `pub` before
  members of a class.
-/

set_option autoImplicit false

namespace AuroraLint.Style

/-! ## Lines of tokens -/

/-- The extents of the lines of a token list whose head has index `i`; the line being read began
at `start` and stands on source line `line`. The end of the document belongs to no line. -/
def linesFrom (start line i : Nat) : List Token → List Extent
  | [] => segment start i
  | t :: ts =>
    if t.kind = .eof then segment start i
    else if t.line ≠ line then segment start i ++ linesFrom i t.line (i + 1) ts
    else linesFrom start line (i + 1) ts

/-- The extents of the lines of a document that hold a token, in order. -/
def tokenLines (ts : List Token) : List Extent :=
  match ts with
  | [] => []
  | t :: rest => linesFrom 0 t.line 0 (t :: rest)

/-! ## Missing braces -/

/-- The last token of the header that starts at token `i`, and what messages call it. -/
def headerAt (ts : List Token) (i : Nat) : Option (Nat × String) :=
  match kindAt ts i with
  | .kwFn => (fnHeaderAt ts i).map fun h => (h.last, "Function")
  | .kwConstructor => (constructorHeaderAt ts i).map fun h => (h.last, "Constructor")
  | .kwClass => (classHeaderAt ts i).map fun h => (h.last, "Class")
  | _ => none

/-- The error of a line that is a header and nothing else. -/
def checkMissingBrace (doc : Document) (line : Extent) : List Diagnostic :=
  match headerAt doc.tokens line.start with
  | some (last, what) =>
    if last = line.stop - 1 then
      [.error s!"{what} definition missing opening '\x7b' brace"
        (doc.source.lineSpan (doc.token line.start).line)]
    else []
  | none => []

/-! ## Hints -/

/-- The parts of a text between underscores. -/
def underscoreParts : List Char → List (List Char)
  | [] => [[]]
  | c :: cs =>
    if c = '_' then [] :: underscoreParts cs
    else
      match underscoreParts cs with
      | [] => [[c]]
      | part :: rest => (c :: part) :: rest

/-- At least two runs of small letters, joined by single underscores. -/
def isSnakeCase (name : String) : Bool :=
  let parts := underscoreParts name.toList
  2 ≤ parts.length && parts.all fun part => !part.isEmpty && part.all Char.isLower

/-- A hint for each name of a line that is in snake case. -/
def checkSnakeCase (doc : Document) (line : Extent) : List Diagnostic :=
  (line.tokens doc.tokens).filterMap fun t =>
    if t.kind = .identifier ∧ isSnakeCase t.lexeme then
      some (.unnecessary
        "Consider using camelCase instead of snake_case for better AuroraLang style" t.span)
    else none

/-- A hint for the semicolon that ends a line, except after an external declaration. -/
def checkSemicolon (doc : Document) (line : Extent) : List Diagnostic :=
  let last := doc.token (line.stop - 1)
  if last.kind = .semicolon ∧ doc.kind line.start ≠ .kwExtern then
    [.unnecessary "Semicolons are optional in AuroraLang" last.span]
  else []

/-- Whether a class is being read, and how many braces are open. -/
structure ClassTracker where
  inClass : Bool := false
  depth : Int := 0
  deriving DecidableEq, Repr

/-- Counts a token's brace. A class ends where the braces come back to zero. -/
def ClassTracker.count (c : ClassTracker) (t : Token) : ClassTracker :=
  match t.kind with
  | .leftBrace => { c with depth := c.depth + 1 }
  | .rightBrace => ⟨c.inClass && c.depth - 1 != 0, c.depth - 1⟩
  | _ => c

/-- The tracker after a line. A line that starts with `class NAME` opens a class. -/
def ClassTracker.line (c : ClassTracker) (ts : List Token) : ClassTracker :=
  let starts := kindAt ts 0 == .kwClass && kindAt ts 1 == .identifier
  ts.foldl count { c with inClass := c.inClass || starts }

/-- A token that can start a member after `pub`. -/
def isMemberStart (t : Token) : Bool :=
  match t.kind with
  | .kwLet | .kwVar | .kwFn | .kwConstructor => true
  | .identifier => t.lexeme == "static"
  | _ => false

/-- A hint for each line that starts with `pub` and a member, after whose braces a class is
open. -/
def checkPub (doc : Document) (tracker : ClassTracker) : List Extent → List Diagnostic
  | [] => []
  | line :: lines =>
    let ts := line.tokens doc.tokens
    let tracker := tracker.line ts
    let hint :=
      if tracker.inClass && kindAt ts 0 == .kwPub && isMemberStart (tokenAt ts 1) then
        [.unnecessary "Class members are public by default. The 'pub' modifier is unnecessary."
          (tokenAt ts 0).span]
      else []
    hint ++ checkPub doc tracker lines

/-! ## The whole check -/

/-- The findings of one line: the error first, then the hints if they are wanted. -/
def checkLine (doc : Document) (hints : Bool) (line : Extent) : List Diagnostic :=
  checkMissingBrace doc line ++
    if hints then checkSnakeCase doc line ++ checkSemicolon doc line else []

/-- The findings of every line, and after them the hints on `pub`. -/
def check (doc : Document) (hints : Bool) : List Diagnostic :=
  let lines := tokenLines doc.tokens
  lines.flatMap (checkLine doc hints) ++ if hints then checkPub doc {} lines else []

end AuroraLint.Style
