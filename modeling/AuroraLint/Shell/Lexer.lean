import AuroraLint.Shell.Source

/-!
# Words and operators of scripts

Reading one token. A word can hold commands between parentheses or backquotes; how those are read, up
to a token that ends them and is put back, is a parameter here.

* `Shell.Lexer.word`     : a word, from its first character on.
* `Shell.Lexer.document` : a document that follows a command.
* `Shell.Lexer.token`    : a token.

Part of the host of recorded runs (`Workspace.host`); no result is about it.
-/

set_option autoImplicit false

namespace AuroraLint.Shell.Lexer

/-! ## Characters by their meaning -/

/-- The ways in which characters are read. -/
inductive Mode where
  | base
  | double
  | single
  | arithmetic
  deriving DecidableEq, Repr

/-- What a character means. -/
inductive Class where
  | newline
  | letter
  /-- A character that could mean something to a pattern. -/
  | control
  | backslash
  | singleQuote
  | doubleQuote
  | endQuote
  | dollar
  | endBrace
  | openParen
  | closeParen
  | backquote
  /-- A character that ends words. -/
  | divider
  deriving DecidableEq, Repr

/-- The characters that could mean something to a pattern. -/
def controls : List Char :=
  ['!', '*', '?', '[', '=', '~', ':', '/', '-', ']']

/-- What a character means outside quotes. -/
def baseClass : Char → Class
  | '\n' => .newline
  | '\\' => .backslash
  | '\'' => .singleQuote
  | '"' => .doubleQuote
  | '\x60' => .backquote
  | '$' => .dollar
  | '\x7d' => .endBrace
  | c => if ['<', '>', '(', ')', ';', '&', '|', ' ', '\t'].contains c then .divider else .letter

/-- What a character means between double quotes. -/
def doubleClass : Char → Class
  | '\n' => .newline
  | '\\' => .backslash
  | '"' => .endQuote
  | '\x60' => .backquote
  | '$' => .dollar
  | '\x7d' => .endBrace
  | c => if controls.contains c then .control else .letter

/-- What a character means between single quotes. -/
def singleClass : Char → Class
  | '\n' => .newline
  | '\'' => .endQuote
  | '\\' => .control
  | c => if controls.contains c then .control else .letter

/-- What a character means in arithmetic. -/
def arithmeticClass : Char → Class
  | '\n' => .newline
  | '\\' => .backslash
  | '\x60' => .backquote
  | '$' => .dollar
  | '\x7d' => .endBrace
  | '(' => .openParen
  | ')' => .closeParen
  | _ => .letter

/-- What a character means in a mode. -/
def Mode.classOf : Mode → Char → Class
  | .base => baseClass
  | .double => doubleClass
  | .single => singleClass
  | .arithmetic => arithmeticClass

/-! ## The place in a word -/

/-- How characters are read at a place, and what is open there. -/
structure Place where
  mode : Mode
  /-- Double quotes are open. -/
  quoted : Bool := false
  /-- Double quotes are open inside braces. -/
  innerQuotes : Bool := false
  /-- The place was entered by a brace. -/
  ofBrace : Bool := false
  braces : Nat := 0
  quotedBraces : Nat := 0
  parens : Nat := 0
  deriving DecidableEq, Repr

/-- What has been opened in a word. -/
inductive Opening where
  | parameter (name : Bytes) (usage : Usage) (orEmpty : Bool)
  | arithmetic

/-- How far a word has been read. -/
structure Reader where
  place : Place
  /-- The places around it. -/
  around : List Place := []
  /-- The parts of the innermost word in reverse. -/
  parts : List Part := []
  /-- What is open, with the parts before it in reverse. -/
  opened : List (Opening × List Part) := []
  /-- Something is quoted. -/
  hasQuotes : Bool := false

namespace Reader

/-- One more part. -/
def add (r : Reader) (p : Part) : Reader :=
  { r with parts := p :: r.parts }

/-- The reader at another place around which the present one stands. -/
def enter (r : Reader) (place : Place) : Reader :=
  { r with place, around := r.place :: r.around }

/-- The reader at the place around the present one. -/
def leave (r : Reader) : Reader :=
  match r.around with
  | place :: around => { r with place, around }
  | [] => r

/-- Something is opened: its parts come next. -/
def openPart (r : Reader) (o : Opening) : Reader :=
  { r with parts := [], opened := (o, r.parts) :: r.opened }

/-- What was opened last is closed. -/
def closePart (r : Reader) : Reader :=
  match r.opened with
  | (.parameter name usage orEmpty, parts) :: opened =>
    { r with parts := .parameter name usage orEmpty r.parts.reverse :: parts, opened }
  | (.arithmetic, parts) :: opened =>
    { r with parts := .arithmetic r.parts.reverse :: parts, opened }
  | [] => r

/-- A change of the place. -/
def change (r : Reader) (f : Place → Place) : Reader :=
  { r with place := f r.place }

/-- A quotation mark, which a document does not note. -/
def mark (r : Reader) (isDocument : Bool) : Reader :=
  if isDocument then r else r.add .quotes

/-- A double quotation mark, which inside braces opens or closes quotes of its own. -/
def toggle (r : Reader) (isDocument : Bool) : Reader :=
  let r := r.change fun p => if p.braces = 0 then p else { p with innerQuotes := !p.innerQuotes }
  r.mark isDocument

/-- The mark that closes quotes. -/
def endQuote (r : Reader) (isDocument : Bool) (c : Char) : Reader :=
  if isDocument && r.place.braces == 0 then r.add (.plain c)
  else
    let r := r.change fun p =>
      if p.quotedBraces = 0 then { p with mode := .base, quoted := false } else p
    let r := { r with hasQuotes := true }
    if c = '"' then r.toggle isDocument else r.mark isDocument

/-- A brace that can close one. -/
def endBrace (r : Reader) : Reader :=
  if r.place.innerQuotes || r.place.braces == 0 then r.add (.plain '\x7d')
  else
    let r := r.change fun p => { p with braces := p.braces - 1 }
    let r := if r.place.braces = 0 ∧ r.place.ofBrace then r.leave
      else r.change fun p => { p with quotedBraces := p.quotedBraces - 1 }
    r.closePart

/-- A parameter. One whose value is taken as it is closes at once; any other has a word, which is
read in the given mode. -/
def parameter (r : Reader) (name : Bytes) (usage : Usage) (orEmpty : Bool) (mode : Mode) : Reader :=
  if usage = .value ∧ !orEmpty then r.add (.parameter name .value false [])
  else
    let mode := if mode = .arithmetic then .double else mode
    let r := if mode ≠ r.place.mode ∨ r.place.innerQuotes then
        r.enter { mode, ofBrace := true, quoted := mode != .base }
      else r
    let r := r.change fun p =>
      { p with
        braces := p.braces + 1
        quotedBraces := if p.quoted then p.quotedBraces + 1 else p.quotedBraces }
    r.openPart (.parameter name usage orEmpty)

/-- Arithmetic begins. -/
def enterArithmetic (r : Reader) : Reader :=
  (r.enter { mode := .arithmetic, quoted := true }).openPart .arithmetic

end Reader

/-! ## Parameters -/

/-- The use of a parameter that an operator stands for. -/
def operatorUsage? : Option Char → Option Usage
  | some '\x7d' => some .value
  | some '-' => some .instead
  | some '+' => some .provided
  | some '?' => some .required
  | some '=' => some .assigned
  | _ => none

/-- The parameter behind a brace, its name having been read, at the character `c`. An operator that
is not known is passed over. -/
def operator (r : Reader) (name : Bytes) (c : Option Char) : Read Reader := do
  match c with
  | some ':' =>
    let c ← Read.joinedChar
    return r.parameter name ((operatorUsage? c).getD .unknown) true r.place.mode
  | some '%' | some '#' =>
    let front := c = some '#'
    let next ← Read.joinedChar
    if next = c then return r.parameter name (.trimmed front true) false .base
    Read.putBack next
    return r.parameter name (.trimmed front false) false .base
  | _ => return r.parameter name ((operatorUsage? c).getD .unknown) false r.place.mode

/-- A parameter that cannot be used, before the character `c`. -/
def badParameter (r : Reader) (c : Option Char) : Read Reader := do
  Read.putBack c
  return r.parameter [] .unknown false r.place.mode

/-- A parameter whose length is taken, before the character `c`, which has to be a brace. -/
def lengthOf (r : Reader) (name : Bytes) (c : Option Char) : Read Reader := do
  Read.putBack c
  return r.parameter name (if c = some '\x7d' then .length else .unknown) false r.place.mode

/-- The kind of character that goes on with a name after its first one. -/
def nameKind (c : Char) : Char → Bool :=
  if isNameStart c then isNameChar else Char.isDigit

/-- What stands behind a dollar sign and a brace. -/
def braced (r : Reader) : Read Reader := do
  match ← Read.joinedChar with
  | none => badParameter r none
  | some '\x7d' => badParameter r (some '\x7d')
  | some c =>
    if isNameStart c || c.isDigit then
      let (name, next) ← Read.run (nameKind c) (← Read.bound) (some c)
      operator r name next
    else
      let next ← Read.joinedChar
      if c != '#' then
        if isSpecialParameter c then operator r [c] next else badParameter r next
      else if next.any isNameChar then
        let (name, next) ← Read.run (nameKind (next.getD '0')) (← Read.bound) next
        lengthOf r name next
      else
        let behind ← Read.joinedChar
        if next = some '\x7d' || behind != some '\x7d' then
          Read.putBack behind
          operator r ['#'] next
        else if next.any isSpecialParameter then lengthOf r next.toList behind
        else badParameter r behind

/-! ## Commands inside words -/

/-- The text up to a backquote, at most `fuel` characters. A backslash guards a backquote, a
backslash or a dollar sign, and between double quotes a double quote. -/
def untilBackquote (quoted : Bool) : Nat → Read Bytes
  | 0 => throw .unclosedBackquote
  | fuel + 1 => do
    match ← Read.joinedChar with
    | none => throw .unclosedBackquote
    | some '\x60' => return []
    | some '\\' =>
      match ← Read.char with
      | none => throw .unclosedBackquote
      | some c =>
        let guarded := c = '\\' || c = '\x60' || c = '$' || (quoted && c = '"')
        let rest ← untilBackquote quoted fuel
        return if guarded then c :: rest else '\\' :: c :: rest
    | some c =>
      if c = '\n' then Read.nextLine
      return c :: (← untilBackquote quoted fuel)

/-- Reads a command from a text of its own, whose lines are counted anew. -/
def fromText (commands : Read Command) (text : Bytes) : Read Command := do
  let s ← get
  set { s with rest := text, line := 1, pushed := none, pending := [], replacements := [] }
  let body ← commands
  modify fun t =>
    { s with documents := t.documents, nextDocument := t.nextDocument, lastWord := t.lastWord }
  return body

/-- Reads a command up to the parenthesis that closes it. The documents that commands around it
wait for come after it. -/
def fromParens (commands : Read Command) : Read Command := do
  let pending := (← get).pending
  modify fun s => { s with pending := [] }
  let body ← commands
  match (← get).pushed with
  | some .closeParen => modify fun s => { s with pending, pushed := none }
  | t => throw (.unexpected (t.getD .finish) (some .closeParen))
  return body

/-- What stands behind a dollar sign. -/
def dollar (commands : Read Command) (r : Reader) : Read Reader := do
  match ← Read.joinedChar with
  | some '(' =>
    let c ← Read.joinedChar
    if c = some '(' then return r.enterArithmetic
    Read.putBack c
    return r.add (.output (← fromParens commands))
  | some '\x7b' => braced r
  | c =>
    if c.any isNameStart then
      let (name, next) ← Read.run isNameChar (← Read.bound) c
      Read.putBack next
      return r.parameter name .value false r.place.mode
    else if c.any isSpecialParameter then return r.parameter c.toList .value false r.place.mode
    else
      Read.putBack c
      return r.add (.plain '$')

/-! ## Words -/

/-- A document that is being read: the line that ends it. -/
structure DocumentMark where
  mark : Bytes
  dropsTabs : Bool
  deriving DecidableEq, Repr

/-- The next character at a place. Between single quotes, lines are not joined. -/
def nextChar (p : Place) : Read (Option Char) :=
  if p.mode = .single then Read.char else Read.joinedChar

/-- Looks for the end of a document at the start of a line whose first character is `c`. -/
def lineStart (d : Option DocumentMark) (c : Option Char) : Read (Option Char) := do
  match d with
  | none => return c
  | some d =>
    let text := c.toList ++ (← get).rest
    let text := if d.dropsTabs then text.dropWhile (· == '\t') else text
    let behind := text.drop d.mark.length
    if d.mark.isPrefixOf text && behind.head?.all (· == '\n') then
      modify fun s => { s with rest := behind.tail, line := s.line + 1 }
      return none
    modify fun s => { s with rest := text.tail }
    return text.head?

/-- What is read behind a backslash. -/
def backslash (isDocument : Bool) (r : Reader) : Read Reader := do
  match ← Read.char with
  | none => return r.add (.escaped '\\')
  | some c =>
    let guarded := c = '\\' || c = '\x60' || c = '$' ||
      (c = '"' && !(isDocument && r.place.braces == 0)) || (c = '\x7d' && r.place.braces != 0)
    let r := if r.place.quoted && !guarded then r.add (.escaped '\\') else r
    return { r.add (.escaped c) with hasQuotes := true }

/-- A parenthesis that can close arithmetic. -/
def closeParen (r : Reader) : Read Reader := do
  if 0 < r.place.parens then
    return (r.add (.plain ')')).change fun p => { p with parens := p.parens - 1 }
  let c ← Read.joinedChar
  if c = some ')' then return r.leave.closePart
  Read.putBack c
  return r.add (.plain ')')

/-- One character of a word, other than a line end; `none` if the word ends before it. In the mark of
a document, nothing is expanded. -/
def step (commands : Read Command) (isDocument isMark : Bool) (r : Reader) (c : Char) :
    Read (Option Reader) := do
  match r.place.mode.classOf c with
  | .newline => return none
  | .letter => return r.add (.plain c)
  | .control =>
    if isDocument && !r.place.quoted && r.place.braces == 0 then return r.add (.plain c)
    return r.add (.escaped c)
  | .backslash => return (← backslash isDocument r)
  | .singleQuote => return (r.change fun p => { p with mode := .single }).mark isDocument
  | .doubleQuote =>
    return (r.change fun p => { p with mode := .double, quoted := true }).toggle isDocument
  | .endQuote => return r.endQuote isDocument c
  | .dollar => if isMark then return r.add (.plain c) else return (← dollar commands r)
  | .endBrace => return r.endBrace
  | .openParen => return (r.add (.plain c)).change fun p => { p with parens := p.parens + 1 }
  | .closeParen => return (← closeParen r)
  | .backquote =>
    if isMark then return r.add (.plain c)
    let text ← untilBackquote r.place.quoted (← Read.bound)
    return r.add (.output (← fromText commands text))
  | .divider => if r.place.braces = 0 then return none else return r.add (.plain c)

/-- The characters of a word from `c` on, at most `fuel`, and the character that ends it. -/
def steps (commands : Read Command) (d : Option DocumentMark) (isMark : Bool) :
    Nat → Reader → Option Char → Read (Reader × Option Char)
  | 0, r, c => pure (r, c)
  | _ + 1, r, none => pure (r, none)
  | fuel + 1, r, some c => do
    if r.place.mode.classOf c = .newline then
      if r.place.mode = .base ∧ r.place.braces = 0 then return (r, some c)
      Read.nextLine
      let r := r.add (.plain c)
      let next ← lineStart d (← nextChar r.place)
      steps commands d isMark fuel r next
    else
      match ← step commands d.isSome isMark r c with
      | none => return (r, some c)
      | some r => steps commands d isMark fuel r (← nextChar r.place)

/-- What is still open where a word ends. -/
def checkClosed (isDocument : Bool) (r : Reader) : Read Unit := do
  if r.place.mode = .arithmetic then throw .unclosedArithmetic
  if r.place.mode ≠ .base ∧ !isDocument then throw .unclosedQuotes
  if r.place.braces ≠ 0 then throw .unclosedBrace

/-- The redirection that starts with the character `c`, at the word `text` before it. -/
def redirection (c : Char) (digit : Option Char) : Read RedirectionHead := do
  let number := fun usual => digit.elim usual fun d => d.toNat - '0'.toNat
  let next ← Read.joinedChar
  if c = '>' then
    match next with
    | some '>' => return { descriptor := number 1, direction := .append }
    | some '|' => return { descriptor := number 1, direction := .overwrite }
    | some '&' => return { descriptor := number 1, direction := .duplicate }
    | _ =>
      Read.putBack next
      return { descriptor := number 1, direction := .write }
  else
    match next with
    | some '<' =>
      let id := (← get).nextDocument
      modify fun s => { s with nextDocument := id + 1 }
      let dash ← Read.joinedChar
      if dash = some '-' then
        return { descriptor := number 0, direction := .document id, dropsTabs := true }
      Read.putBack dash
      return { descriptor := number 0, direction := .document id }
    | some '&' => return { descriptor := number 0, direction := .duplicate }
    | some '>' => return { descriptor := number 0, direction := .readWrite }
    | _ =>
      Read.putBack next
      return { descriptor := number 0, direction := .read }

/-- A word from the character `c` on, or the redirection that it turns out to be. -/
def word (commands : Read Command) (isMark : Bool) (c : Option Char) : Read Token := do
  let (r, next) ← steps commands none isMark (← Read.bound) { place := { mode := .base } } c
  checkClosed false r
  let digit? : Option (Option Char) := match r.parts with
    | [] => some none
    | [.plain d] => if d.isDigit then some (some d) else none
    | _ => none
  match next, digit?, r.hasQuotes with
  | some '<', some digit, false => return .redirection (← redirection '<' digit)
  | some '>', some digit, false => return .redirection (← redirection '>' digit)
  | _, _, _ =>
    Read.putBack next
    let w := r.parts.reverse
    modify fun s => { s with lastWord := w }
    return .word w r.hasQuotes

/-- A document, up to the line that ends it. -/
def document (commands : Read Command) (p : PendingDocument) : Read Unit := do
  let place : Place :=
    if p.expands then { mode := .double, quoted := true } else { mode := .single }
  let d : DocumentMark := ⟨p.mark, p.dropsTabs⟩
  let c ← lineStart (some d) (← nextChar place)
  let (r, _) ← steps commands (some d) false (← Read.bound) { place } c
  checkClosed true r
  modify fun s => { s with documents := (p.id, r.parts.reverse) :: s.documents }

/-- The documents that have to follow here. -/
def documents (commands : Read Command) : Read Unit := do
  let pending := (← get).pending
  modify fun s => { s with pending := [] }
  pending.forM (document commands)

/-! ## Tokens -/

/-- The character that starts a token, behind blanks and comments; at most `fuel` of them. -/
def tokenStart : Nat → Read (Option Char)
  | 0 => pure none
  | fuel + 1 => do
    match ← Read.joinedChar with
    | some ' ' | some '\t' => tokenStart fuel
    | some '#' =>
      modify fun s => { s with rest := s.rest.dropWhile (· != '\n') }
      tokenStart fuel
    | c => return c

/-- One of two tokens: the second if the character `c` follows. -/
def doubled (c : Char) (one two : Token) : Read Token := do
  let next ← Read.joinedChar
  if next = some c then return two
  Read.putBack next
  return one

/-- A token that was not put back, without regard for keywords, and how much of the source was left
at its start. -/
def rawToken (commands : Read Command) (isMark : Bool) : Read (Token × Nat) := do
  let c ← tokenStart (← Read.bound)
  let rest := (← get).rest.length + 1
  let t ← match c with
    | none => pure Token.finish
    | some '\n' => do
      Read.nextLine
      pure Token.newline
    | some '&' => doubled '&' .background .andThen
    | some '|' => doubled '|' .bar .orElse
    | some ';' => doubled ';' .semicolon .endBranch
    | some '(' => pure Token.openParen
    | some ')' => pure Token.closeParen
    | some c => word commands isMark (some c)
  return (t, rest)

/-- How the next token is read. -/
structure Expecting where
  /-- Line ends are passed over. -/
  skipsLines : Bool := false
  keywords : Bool := false
  /-- Words can be replaced by the texts that stand for them. -/
  aliases : Bool := false
  /-- The word is the mark of a document. -/
  isMark : Bool := false
  deriving DecidableEq, Repr

/-- The text that a word is to be replaced by, where `rest` of the source was left at its start. No
text replaces a word inside itself. -/
def replacement? (s : Source) (w : Word) (rest : Nat) : Option (Bytes × Bytes) := do
  let name ← Word.plain? w
  let text ← s.aliases.lookup name
  if s.replacements.any fun r => r.name = name ∧ r.rest < rest then none
  else some (name, text)

/-- Replaces the word that was read last, where `before` is the source before it, `rest` of which was
left at its start; says whether it did. -/
def replace (e : Expecting) (before : Source) (w : Word) (rest : Nat) : Read Bool := do
  let now ← get
  let goesOn := before.replacements.any fun r =>
    r.goesOn ∧ r.rest < before.rest.length ∧ rest ≤ r.rest
  match if e.aliases || goesOn then replacement? now w rest else none with
  | none => return false
  | some (name, text) =>
    let last := text.getLast?
    let r : Replacement := ⟨name, now.rest.length, last == some ' ' || last == some '\t'⟩
    set { now with rest := text ++ now.rest, replacements := r :: now.replacements }
    return true

/-- A word as it is to be understood. -/
def asKeyword (e : Expecting) : Token → Token
  | .word w false =>
    match if e.keywords then (Word.plain? w).bind Keyword.ofBytes? else none with
    | some k => .keyword k
    | none => .word w false
  | t => t

/-- The next token, where at most `fuel` line ends and replacements come before it. -/
def tokenWithin (commands : Read Command) (e : Expecting) : Nat → Read Token
  | 0 => throw .tooDeep
  | fuel + 1 => do
    let before ← get
    match before.pushed with
    | some .newline =>
      set { before with pushed := none }
      if !e.skipsLines then return .newline
      documents commands
      tokenWithin commands e fuel
    | some t =>
      set { before with pushed := none }
      return asKeyword e t
    | none =>
      let (t, rest) ← rawToken commands e.isMark
      match asKeyword e t with
      | .newline =>
        if !e.skipsLines then return .newline
        documents commands
        tokenWithin commands e fuel
      | .word w false =>
        if ← replace e before w rest then tokenWithin commands e fuel
        else return .word w false
      | t => return t

/-- The most texts that replace one another before a token. -/
def maxReplacements : Nat := 1000

/-- The next token. -/
def token (commands : Read Command) (e : Expecting) : Read Token := do
  tokenWithin commands e ((← Read.bound) + maxReplacements)

end AuroraLint.Shell.Lexer
