import AuroraLint.Diagnostic
import AuroraLint.Source
import AuroraLint.Text.Blank
import AuroraLint.Text.Word

/-!
# Findings of the compiler

A compiler prints a finding on two lines,

    Error[E0001]: Expected parameter name
      --> main.aur:9:10

possibly among other output.

* `Finding.read?`       : the finding at the head of a text.
* `Finding.all`         : the findings of an output, from left to right.
* `Finding.diagnostic?` : the diagnostic that a finding makes in a document.

The columns of a finding's range have no bound here. `Checked.findingSpan` is the same on machine
words.
-/

set_option autoImplicit false

namespace AuroraLint

/-- A finding as it is printed; line and column are kept as digits. -/
structure Finding where
  severity : List Char
  code : List Char
  message : List Char
  line : List Char
  column : List Char
  deriving DecidableEq, Repr

namespace Finding

/-! ## Reading -/

/-- A space or tab. -/
def isGap (c : Char) : Bool :=
  c == ' ' || c == '\t'

/-- The characters up to the end of the line. -/
def restOfLine (cs : List Char) : List Char :=
  cs.takeWhile (· != '\n')

/-- The place `:LINE:COLUMN` at the head of a text: its two runs of digits. -/
def place? (cs : List Char) : Option (List Char × List Char) := do
  let ':' :: cs := cs | none
  let line := cs.takeWhile Text.isDigit
  let ':' :: cs := cs.drop line.length | none
  let column := cs.takeWhile Text.isDigit
  if line.isEmpty || column.isEmpty then none else some (line, column)

/-- The last place of a line: its digits and the number of characters up to its end. The head of
the list has index `i`. -/
def lastPlace? (i : Nat) : List Char → Option (List Char × List Char × Nat)
  | [] => none
  | c :: cs =>
    match lastPlace? (i + 1) cs with
    | some found => some found
    | none =>
      (place? (c :: cs)).map fun (line, column) =>
        (line, column, i + line.length + column.length + 2)

/-- The finding at the head of a text, and the number of characters it takes. A path of at least
one character stands before its place. -/
def read? (cs : List Char) : Option (Finding × Nat) := do
  let severity := cs.takeWhile Text.isWord
  let '[' :: afterOpen := cs.drop severity.length | none
  let code := afterOpen.takeWhile Text.isWord
  let ']' :: ':' :: afterCode := afterOpen.drop code.length | none
  let message := restOfLine afterCode
  let '\n' :: second := afterCode.drop message.length | none
  let gap := second.takeWhile isGap
  let '-' :: '-' :: '>' :: target := second.drop gap.length | none
  let (line, column, length) ← lastPlace? 1 (restOfLine target).tail
  if severity.isEmpty || code.isEmpty || message.isEmpty then none
  else
    some (⟨severity, code, message, line, column⟩,
      severity.length + code.length + message.length + gap.length + length + 7)

/-- The findings of a text whose first `skip` characters belong to the finding before. -/
def allFrom (skip : Nat) : List Char → List Finding
  | [] => []
  | c :: cs =>
    match skip with
    | skip + 1 => allFrom skip cs
    | 0 =>
      match read? (c :: cs) with
      | some (finding, length) => finding :: allFrom (length - 1) cs
      | none => allFrom 0 cs

/-- The findings of an output, from left to right and without overlap. -/
def all (output : List Char) : List Finding :=
  allFrom 0 output

/-! ## Placing in a document -/

/-- The largest line or column that a finding can name. -/
def maxNumber : Nat := 4294967295

/-- The value of ASCII digits, if it can be a line or column. -/
def number? (digits : List Char) : Option Nat :=
  if digits.all Char.isDigit then
    let n := digits.foldl (fun n c => 10 * n + (c.toNat - '0'.toNat)) 0
    if n ≤ maxNumber then some n else none
  else none

/-- The severity that the first word names, in capital or small letters; `error` if it names
none. -/
def severityOf (word : List Char) : Severity :=
  let word := word.map Char.toLower
  if word = ['w', 'a', 'r', 'n', 'i', 'n', 'g'] then .warning
  else if word = ['n', 'o', 't', 'e'] then .info
  else .error

/-- How many characters a finding is taken to cover, as only its start is named. -/
def width : Nat := 5

/-- The span of a finding at a line and column, kept within the line. -/
def span? (source : Source) (line column : Nat) : Option Span := do
  let length := source.lineLength line
  let start ← source.position? line (min (column - 1) length + 1)
  let stop ← source.position? line (min (column - 1 + width) length + 1)
  return source.span start stop

/-- The diagnostic of a finding. There is none without a message or outside the document. -/
def diagnostic? (source : Source) (f : Finding) : Option Diagnostic := do
  let message := Text.trim f.message
  if message.isEmpty then none
  else
    let line ← number? f.line
    let column ← number? f.column
    let span ← span? source line column
    return {
      severity := severityOf f.severity
      message := String.ofList message
      span := some span
      code := some (String.ofList f.code)
      source := some "compiler" }

end Finding

/-- The diagnostics in the output of a compiler. -/
def compilerDiagnostics (source : Source) (output : String) : List Diagnostic :=
  (Finding.all output.toList).filterMap (Finding.diagnostic? source)

end AuroraLint
