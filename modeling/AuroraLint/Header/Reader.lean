import AuroraLint.Header

/-!
# Reading headers

* `TokenCursor` : a place in a token list.
* `Reading`     : a step over tokens that may fail; a failure leaves the cursor where it was met.
* `fnHeader`, `externHeader`, `constructorHeader`, `classHeader`, `varDecl`, `typeRef` : the
  readings of the declaration headers.
* `fnHeaderAt` and its likes : what a reading finds at a token index.
-/

set_option autoImplicit false

namespace AuroraLint

/-! ## Cursors over tokens -/

/-- A place in a token list whose last token is the end of the document. -/
structure TokenCursor where
  tokens : List Token
  pos : Nat
  deriving DecidableEq, Repr

namespace TokenCursor

/-- The kind of the token `n` places ahead. -/
def peekAt (c : TokenCursor) (n : Nat) : Kind :=
  kindAt c.tokens (c.pos + n)

/-- The kind of the next token. -/
def peek (c : TokenCursor) : Kind :=
  c.peekAt 0

/-- The next token, or the last one of the list. -/
def current (c : TokenCursor) : Token :=
  tokenAt c.tokens (min c.pos (c.tokens.length - 1))

/-- The token before the cursor. -/
def previous (c : TokenCursor) : Token :=
  tokenAt c.tokens (c.pos - 1)

/-- The cursor stands at the end of the document. -/
def atEnd (c : TokenCursor) : Bool :=
  c.peek == .eof

/-- The cursor at an index of the list. -/
def seek (c : TokenCursor) (pos : Nat) : TokenCursor :=
  { c with pos := min pos (c.tokens.length - 1) }

/-- The cursor one token further, but not past the end of the document. -/
def advance (c : TokenCursor) : TokenCursor :=
  if c.atEnd then c else { c with pos := c.pos + 1 }

end TokenCursor

/-! ## Readings -/

/-- A step over tokens. -/
def Reading (α : Type) : Type :=
  TokenCursor → Option α × TokenCursor

namespace Reading

/-- Reads nothing. -/
protected def pure {α : Type} (a : α) : Reading α :=
  fun c => (some a, c)

/-- Reads one thing and then, if that succeeded, another. -/
protected def bind {α β : Type} (r : Reading α) (f : α → Reading β) : Reading β :=
  fun c =>
    match r c with
    | (some a, c') => f a c'
    | (none, c') => (none, c')

instance : Monad Reading where
  pure := Reading.pure
  bind := Reading.bind

/-- Fails where the cursor stands. -/
def fail {α : Type} : Reading α :=
  fun c => (none, c)

/-- Looks at the cursor. -/
def cursor : Reading TokenCursor :=
  fun c => (some c, c)

/-- Moves to a token index. -/
def moveTo (pos : Nat) : Reading Unit :=
  fun c => (some (), c.seek pos)

/-- Reads a token of the given kind. -/
def expect (kind : Kind) : Reading Token :=
  fun c => if c.peek = kind then (some c.advance.previous, c.advance) else (none, c)

/-- Reads a token if it is of the given kind. -/
def eat (kind : Kind) : Reading Bool :=
  fun c => if c.peek = kind then (some true, c.advance) else (some false, c)

/-- Tries a reading; its failure is an answer. -/
def attempt {α : Type} (r : Reading α) : Reading (Option α) :=
  fun c => (some (r c).1, (r c).2)

/-- Succeeds only with a value. -/
def require {α : Type} : Option α → Reading α
  | some a => pure a
  | none => fail

@[simp] theorem pure_apply {α : Type} (a : α) (c : TokenCursor) :
    (pure a : Reading α) c = (some a, c) := rfl

theorem bind_apply {α β : Type} (r : Reading α) (f : α → Reading β) (c : TokenCursor) :
    (r >>= f) c = match r c with
      | (some a, c') => f a c'
      | (none, c') => (none, c') := rfl

end Reading

/-! ## Parameters -/

/-- A parameter from the tokens between two commas; anything but `name`, `name: type` and
`name: type?` is no parameter. -/
def Param.ofTokens? : List Token → Option Param
  | [name] =>
    if name.kind = .identifier then some ⟨name.lexeme, none, name.span⟩ else none
  | [name, colon, type] =>
    if name.kind = .identifier ∧ colon.kind = .colon ∧ type.kind = .identifier then
      some ⟨name.lexeme, some ⟨type.lexeme, type.span⟩, name.span.merge type.span⟩
    else none
  | [name, colon, type, mark] =>
    if name.kind = .identifier ∧ colon.kind = .colon ∧ type.kind = .identifier ∧
        mark.kind = .question then
      some ⟨name.lexeme, some ⟨type.lexeme ++ "?", type.span.merge mark.span⟩,
        name.span.merge mark.span⟩
    else none
  | _ => none

/-- The parameters between two parentheses; what is no parameter is passed over. -/
def params (ts : List Token) (opener closer : Nat) : List Param :=
  (splitArguments ts opener closer).filterMap fun e => Param.ofTokens? (e.tokens ts)

/-! ## Headers -/

namespace Reading

/-- Reads `NAME` or `NAME?`. -/
def typeRef : Reading TypeRef := do
  let name ← expect .identifier
  let c ← cursor
  if c.peek = .question then
    let mark ← expect .question
    return ⟨name.lexeme ++ "?", name.span.merge mark.span⟩
  else
    return ⟨name.lexeme, name.span⟩

/-- The index of the `{` at the cursor, if one stands there. -/
def bodyAt (c : TokenCursor) : Option Nat :=
  if c.peek = .leftBrace then some c.pos else none

/-- Reads a parameter list and a return type, the rest of the header whose first word is token
`keyword`. -/
def signature (keyword : Nat) (name : String) (nameSpan : Span) : Reading FnHeader := do
  let opener ← cursor
  let _ ← expect .leftParen
  let closer ← require (callClose opener.tokens opener.pos)
  moveTo (closer + 1)
  let returnType ← if ← eat .arrow then attempt typeRef else pure none
  let c ← cursor
  let last := c.pos - 1
  return {
    keyword, name, nameSpan
    params := params c.tokens opener.pos closer
    returnType, last
    body := bodyAt c
    span := (tokenAt c.tokens keyword).span.merge (tokenAt c.tokens last).span }

/-- Reads `fn NAME(params) [-> T]`. -/
def fnHeader : Reading FnHeader := do
  let c ← cursor
  let _ ← expect .kwFn
  let name ← expect .identifier
  signature c.pos name.lexeme name.span

/-- Reads `extern NAME(params) [-> T]`. -/
def externHeader : Reading FnHeader := do
  let c ← cursor
  let _ ← expect .kwExtern
  let name ← expect .identifier
  signature c.pos name.lexeme name.span

/-- Reads `constructor(params) [-> T]`. -/
def constructorHeader : Reading FnHeader := do
  let c ← cursor
  let word ← expect .kwConstructor
  signature c.pos "constructor" word.span

/-- Reads `class NAME [(...)]`. -/
def classHeader : Reading ClassHeader := do
  let start ← cursor
  let _ ← expect .kwClass
  let name ← expect .identifier
  let c ← cursor
  if c.peek = .leftParen then
    match callClose c.tokens c.pos with
    | some closer => moveTo (closer + 1)
    | none => pure ()
  let c ← cursor
  return {
    keyword := start.pos, name := name.lexeme, nameSpan := name.span
    last := c.pos - 1, body := bodyAt c }

/-- Reads an initial value: the expression at the cursor, if it has any token. -/
def initializer : Reading (Option Extent) := do
  let c ← cursor
  let stop := expressionEnd c.tokens c.pos
  moveTo stop
  return if c.pos < stop then some ⟨c.pos, stop⟩ else none

/-- Reads the word that starts a variable declaration: whether the variable can be changed. -/
def binder : Reading Bool := do
  let c ← cursor
  match c.peek with
  | .kwLet => do
    let _ ← expect .kwLet
    return false
  | .kwVar => do
    let _ ← expect .kwVar
    return true
  | _ => fail

/-- Reads `let|var NAME [: T] [= expression]`. -/
def varDecl : Reading VarDecl := do
  let c ← cursor
  let isMutable ← binder
  let name ← expect .identifier
  let type ← if ← eat .colon then attempt typeRef else pure none
  let init ← if ← eat .equal then initializer else pure none
  return {
    keyword := c.pos, isMutable, name := name.lexeme, nameSpan := name.span, type, init }

end Reading

/-! ## Headers at a token -/

/-- The function header that starts at token `i`. -/
def fnHeaderAt (ts : List Token) (i : Nat) : Option FnHeader :=
  (Reading.fnHeader ⟨ts, i⟩).1

/-- The header of an external function that starts at token `i`. -/
def externHeaderAt (ts : List Token) (i : Nat) : Option FnHeader :=
  (Reading.externHeader ⟨ts, i⟩).1

/-- The constructor header that starts at token `i`. -/
def constructorHeaderAt (ts : List Token) (i : Nat) : Option FnHeader :=
  (Reading.constructorHeader ⟨ts, i⟩).1

/-- The class header that starts at token `i`. -/
def classHeaderAt (ts : List Token) (i : Nat) : Option ClassHeader :=
  (Reading.classHeader ⟨ts, i⟩).1

/-- The variable declaration that starts at token `i`. -/
def varDeclAt (ts : List Token) (i : Nat) : Option VarDecl :=
  (Reading.varDecl ⟨ts, i⟩).1

end AuroraLint
