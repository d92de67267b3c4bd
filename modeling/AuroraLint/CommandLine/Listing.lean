import AuroraLint.Report
import AuroraLint.Symbols
import AuroraLint.Text.Quoted
import AuroraLint.Token

/-!
# Listings

The texts that the command line prints for tokens, symbols and reports.

* `tokenLine`   : a token with its place, kind and lexeme.
* `symbolLines` : the functions and classes of a table.
* `summary`     : how many problems a report has.
-/

set_option autoImplicit false

namespace AuroraLint.Listing

/-- The text, filled up with blanks on the left. -/
def padLeft (width : Nat) (s : String) : String :=
  String.ofList (List.replicate (width - s.length) ' ') ++ s

/-- The text, filled up with blanks on the right. -/
def padRight (width : Nat) (s : String) : String :=
  s ++ String.ofList (List.replicate (width - s.length) ' ')

/-- A token: line and column, kind, and lexeme in quotes. -/
def tokenLine (t : Token) : String :=
  padLeft 4 (toString t.span.start.line) ++ ":" ++ padRight 3 (toString t.span.start.column) ++
    " " ++ t.kind.name ++ " " ++ String.ofList (Text.quoted t.lexeme.toList)

/-- The name of an origin. -/
def originName : Origin → String
  | .builtin => "Builtin"
  | .external => "Extern"
  | .function => "Function"
  | .method => "Method"
  | .constructor => "Constructor"

/-- A signature as a header. -/
def signatureText (s : Signature) : String :=
  let params := String.intercalate ", " (s.params.map fun p => s!"{p.name}: {p.type.render}")
  s!"{originName s.origin} {s.name}({params}) -> {s.returnType.render}"

/-- A function with the line it is declared on. -/
def functionLine (s : Signature) : String :=
  match s.line? with
  | some line => s!"{signatureText s} (line {line})"
  | none => signatureText s

/-- A class, its fields and its methods, each in the order of names. -/
def classLines (c : ClassInfo) : List String :=
  s!"class {c.name} (line {c.declaredAt.line})" ::
    (c.fields.toList.map (fun (name, type) => s!"    field {name}: {type.render}") ++
      c.methods.values.map (fun method => "    " ++ signatureText method))

/-- The functions and then the classes of a table, in the order of names. -/
def symbolLines (t : SymbolTable) : List String :=
  t.functions.values.map functionLine ++ t.classes.values.flatMap classLines

/-- The number of problems of each kind; notes count as hints. -/
def summary (r : Report) : String :=
  let errors := r.count .error
  let warnings := r.count .warning
  let hints := r.count .hint + r.count .info
  if errors + warnings + hints = 0 then s!"{r.uri}: no problems found"
  else s!"{r.uri}: {errors} error(s), {warnings} warning(s), {hints} hint(s)"

end AuroraLint.Listing
