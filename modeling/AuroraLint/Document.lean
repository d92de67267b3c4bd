import AuroraLint.Extent
import AuroraLint.Source
import AuroraLint.Token.Lexer
import AuroraLint.Ty

/-!
# Documents

A source text together with its tokens: what every pass of the analysis looks at.
-/

set_option autoImplicit false

namespace AuroraLint

/-- A source text and its tokens. -/
structure Document where
  source : Source
  tokens : List Token
  deriving DecidableEq, Repr

namespace Document

/-- The document of a name and text. -/
def ofText (uri text : String) : Document :=
  ⟨⟨uri, text⟩, (Lexer.tokenize uri text).1⟩

/-- The token at an index. -/
def token (d : Document) (i : Nat) : Token := tokenAt d.tokens i

/-- The kind of the token at an index. -/
def kind (d : Document) (i : Nat) : Kind := kindAt d.tokens i

/-- The type of the expression that an extent holds, by its text in the source, and its span. -/
def inferExtent (d : Document) (e : Extent) : Ty × Span :=
  let span := e.span d.tokens
  (Ty.infer (d.source.slice span.start span.stop), span)

end Document

end AuroraLint
