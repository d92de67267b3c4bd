/-!
# Kinds of tokens

* `Kind`         : the kinds, with their names and the words and symbols that spell them.
* `BracketShape` : the three shapes of brackets, and which kinds open and close them.
-/

set_option autoImplicit false

namespace AuroraLint

/-- What sort of token a piece of code is. -/
inductive Kind where
  | intLiteral
  | floatLiteral
  | stringLiteral
  | identifier
  | kwFn
  | kwExtern
  | kwClass
  | kwConstructor
  | kwLet
  | kwVar
  | kwReturn
  | kwIf
  | kwElse
  | kwWhile
  | kwFor
  | kwIn
  | kwLoop
  | kwMatch
  | kwBreak
  | kwContinue
  | kwNew
  | kwThis
  | kwPub
  | kwTrue
  | kwFalse
  | kwNull
  | plus
  | minus
  | star
  | slash
  | percent
  | equalEqual
  | bangEqual
  | less
  | greater
  | lessEqual
  | greaterEqual
  | ampAmp
  | pipePipe
  | bang
  | equal
  | plusEqual
  | minusEqual
  | starEqual
  | slashEqual
  | arrow
  | fatArrow
  | dot
  | dotDot
  | question
  | amp
  | pipe
  | leftParen
  | rightParen
  | leftBrace
  | rightBrace
  | leftBracket
  | rightBracket
  | comma
  | semicolon
  | colon
  /-- A character that the language does not use. -/
  | unknown
  /-- The end of the document. -/
  | eof
  deriving DecidableEq, Repr, Inhabited

namespace Kind

/-- Every kind with the name it is listed under. -/
def names : List (Kind × String) :=
  [(.intLiteral, "IntLiteral"), (.floatLiteral, "FloatLiteral"),
   (.stringLiteral, "StringLiteral"), (.identifier, "Identifier"),
   (.kwFn, "Fn"), (.kwExtern, "Extern"), (.kwClass, "Class"), (.kwConstructor, "Constructor"),
   (.kwLet, "Let"), (.kwVar, "Var"), (.kwReturn, "Return"), (.kwIf, "If"), (.kwElse, "Else"),
   (.kwWhile, "While"), (.kwFor, "For"), (.kwIn, "In"), (.kwLoop, "Loop"), (.kwMatch, "Match"),
   (.kwBreak, "Break"), (.kwContinue, "Continue"), (.kwNew, "New"), (.kwThis, "This"),
   (.kwPub, "Pub"), (.kwTrue, "True"), (.kwFalse, "False"), (.kwNull, "Null"),
   (.plus, "Plus"), (.minus, "Minus"), (.star, "Star"), (.slash, "Slash"),
   (.percent, "Percent"), (.equalEqual, "EqualEqual"), (.bangEqual, "BangEqual"),
   (.less, "Less"), (.greater, "Greater"), (.lessEqual, "LessEqual"),
   (.greaterEqual, "GreaterEqual"), (.ampAmp, "AmpAmp"), (.pipePipe, "PipePipe"),
   (.bang, "Bang"), (.equal, "Equal"), (.plusEqual, "PlusEqual"), (.minusEqual, "MinusEqual"),
   (.starEqual, "StarEqual"), (.slashEqual, "SlashEqual"), (.arrow, "Arrow"),
   (.fatArrow, "FatArrow"), (.dot, "Dot"), (.dotDot, "DotDot"), (.question, "Question"),
   (.amp, "Amp"), (.pipe, "Pipe"), (.leftParen, "LeftParen"), (.rightParen, "RightParen"),
   (.leftBrace, "LeftBrace"), (.rightBrace, "RightBrace"), (.leftBracket, "LeftBracket"),
   (.rightBracket, "RightBracket"), (.comma, "Comma"), (.semicolon, "Semicolon"),
   (.colon, "Colon"), (.unknown, "Unknown"), (.eof, "Eof")]

/-- The name of a kind in token listings. -/
def name (k : Kind) : String :=
  (names.lookup k).getD "Unknown"

/-- The kind with a given name. -/
def ofName? (s : String) : Option Kind :=
  (names.find? (·.2 == s)).map (·.1)

/-- The reserved words. -/
def keywords : List (String × Kind) :=
  [("fn", .kwFn), ("extern", .kwExtern), ("class", .kwClass), ("constructor", .kwConstructor),
   ("let", .kwLet), ("var", .kwVar), ("return", .kwReturn), ("if", .kwIf), ("else", .kwElse),
   ("while", .kwWhile), ("for", .kwFor), ("in", .kwIn), ("loop", .kwLoop), ("match", .kwMatch),
   ("break", .kwBreak), ("continue", .kwContinue), ("new", .kwNew), ("this", .kwThis),
   ("pub", .kwPub), ("true", .kwTrue), ("false", .kwFalse), ("null", .kwNull)]

/-- The kind of a reserved word; `none` for any other word. -/
def keyword? (word : String) : Option Kind :=
  keywords.lookup word

/-- The symbols, each before every shorter one that it starts with. -/
def symbols : List (List Char × Kind) :=
  [(['+', '='], .plusEqual), (['*', '='], .starEqual), (['/', '='], .slashEqual),
   (['!', '='], .bangEqual), (['<', '='], .lessEqual), (['>', '='], .greaterEqual),
   (['&', '&'], .ampAmp), (['|', '|'], .pipePipe), (['-', '>'], .arrow),
   (['-', '='], .minusEqual), (['=', '='], .equalEqual), (['=', '>'], .fatArrow),
   (['.', '.'], .dotDot), (['+'], .plus), (['*'], .star), (['/'], .slash), (['!'], .bang),
   (['<'], .less), (['>'], .greater), (['&'], .amp), (['|'], .pipe), (['-'], .minus),
   (['='], .equal), (['.'], .dot), (['('], .leftParen), ([')'], .rightParen),
   (['\x7b'], .leftBrace), (['\x7d'], .rightBrace), (['['], .leftBracket),
   ([']'], .rightBracket), ([','], .comma), ([';'], .semicolon), ([':'], .colon),
   (['?'], .question), (['%'], .percent)]

/-- One of `+ - * /`. -/
def isArithmetic : Kind → Bool
  | .plus | .minus | .star | .slash => true
  | _ => false

/-- `=` or a compound assignment. -/
def isAssignment : Kind → Bool
  | .equal | .plusEqual | .minusEqual | .starEqual | .slashEqual => true
  | _ => false

end Kind

/-! ## Brackets -/

/-- The three shapes of brackets. -/
inductive BracketShape where
  | round
  | curly
  | square
  deriving DecidableEq, Repr, Inhabited

namespace BracketShape

/-- The character that opens the shape. -/
def openChar : BracketShape → Char
  | .round => '('
  | .curly => '\x7b'
  | .square => '['

/-- The character that closes the shape. -/
def closeChar : BracketShape → Char
  | .round => ')'
  | .curly => '\x7d'
  | .square => ']'

/-- The kind of token that closes the shape. -/
def closer : BracketShape → Kind
  | .round => .rightParen
  | .curly => .rightBrace
  | .square => .rightBracket

end BracketShape

namespace Kind

/-- The shape that a kind opens. -/
def opens? : Kind → Option BracketShape
  | .leftParen => some .round
  | .leftBrace => some .curly
  | .leftBracket => some .square
  | _ => none

/-- The shape that a kind closes. -/
def closes? : Kind → Option BracketShape
  | .rightParen => some .round
  | .rightBrace => some .curly
  | .rightBracket => some .square
  | _ => none

/-- The character of a bracket, opening or closing. -/
def bracketChar? (k : Kind) : Option Char :=
  (k.opens?.map BracketShape.openChar) <|> (k.closes?.map BracketShape.closeChar)

@[simp] theorem closes?_closer (s : BracketShape) : s.closer.closes? = some s := by
  cases s <;> rfl

/-- No kind both opens and closes. -/
theorem closes?_of_opens? {k : Kind} {s : BracketShape} (h : k.opens? = some s) :
    k.closes? = none := by
  cases k <;> simp_all [opens?, closes?]

end Kind

end AuroraLint
