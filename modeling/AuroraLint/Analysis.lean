import AuroraLint.Brackets
import AuroraLint.Report
import AuroraLint.Resolve
import AuroraLint.Returns
import AuroraLint.Style

/-!
# Analysis of a document

* `analyze` : all passes over one document, their findings in a fixed order.
-/

set_option autoImplicit false

namespace AuroraLint

/-- The report on a document. Lexical errors come first, then brackets, symbols, scopes, returns
and style; no pass suppresses what another finds. -/
def analyze (uri text : String) (styleHints : Bool) : Report :=
  let doc := Document.ofText uri text
  let symbols := SymbolTable.collect doc.tokens
  ⟨uri, (Lexer.tokenize uri text).2 ++ Brackets.check doc.tokens ++ symbols.2 ++
    Resolve.check doc symbols.1 ++ Returns.check doc ++ Style.check doc styleHints⟩

/-- The symbol table of a document, built-in functions included. -/
def symbolsOf (uri text : String) : SymbolTable :=
  (SymbolTable.collect (Document.ofText uri text).tokens).1

end AuroraLint
