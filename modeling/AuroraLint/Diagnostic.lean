import AuroraLint.Span

/-!
# Diagnostics

What an analysis has to say about a stretch of a document.

* `Severity`, `Tag`, `Related` : the parts of a diagnostic.
* `Diagnostic.render`          : its text form, with the place it points to.
-/

set_option autoImplicit false

namespace AuroraLint

/-- How serious a diagnostic is. -/
inductive Severity where
  | error
  | warning
  | info
  | hint
  deriving DecidableEq, Repr, Inhabited

/-- The name of a severity in every output. -/
def Severity.name : Severity → String
  | .error => "error"
  | .warning => "warning"
  | .info => "info"
  | .hint => "hint"

/-- Advice on how to show a diagnostic. -/
inductive Tag where
  /-- Code that can be removed. -/
  | unnecessary
  deriving DecidableEq, Repr, Inhabited

/-- Another place that explains a diagnostic. -/
structure Related where
  span : Span
  message : String
  deriving DecidableEq, Repr, Inhabited

/-- A finding about a document. -/
structure Diagnostic where
  severity : Severity
  message : String
  span : Option Span := none
  related : List Related := []
  tags : List Tag := []
  /-- A code such as `E0001`, when a compiler gave one. -/
  code : Option String := none
  /-- Who made the finding, when it was not this analysis. -/
  source : Option String := none
  suggestion : Option String := none
  deriving DecidableEq, Repr, Inhabited

namespace Diagnostic

/-! ## Construction -/

/-- An error at a span. -/
def error (message : String) (span : Span) : Diagnostic :=
  { severity := .error, message, span := some span }

/-- A warning at a span. -/
def warning (message : String) (span : Span) : Diagnostic :=
  { severity := .warning, message, span := some span }

/-- The diagnostic with a tag; a tag is never carried twice. -/
def withTag (d : Diagnostic) (tag : Tag) : Diagnostic :=
  if tag ∈ d.tags then d else { d with tags := d.tags ++ [tag] }

/-- A hint that the code at a span can be removed. -/
def unnecessary (message : String) (span : Span) : Diagnostic :=
  { severity := .hint, message, span := some span, tags := [.unnecessary] }

/-- The diagnostic with one more related place. -/
def withRelated (d : Diagnostic) (span : Span) (message : String) : Diagnostic :=
  { d with related := d.related ++ [⟨span, message⟩] }

/-- The diagnostic with a suggested remedy. -/
def withSuggestion (d : Diagnostic) (suggestion : String) : Diagnostic :=
  { d with suggestion := some suggestion }

/-! ## Queries -/

/-- The diagnostic is an error. -/
def isError (d : Diagnostic) : Bool :=
  d.severity == .error

/-- The diagnostic marks code that can be removed. -/
def isUnnecessary (d : Diagnostic) : Bool :=
  d.tags.contains .unnecessary

/-- The text form: severity, code, message, and on a second line the place. -/
def render (d : Diagnostic) : String :=
  let code := match d.code with
    | some c => s!"[{c}]"
    | none => ""
  let place := match d.span with
    | some s => "\n  --> " ++ s.render
    | none => ""
  d.severity.name ++ code ++ ": " ++ d.message ++ place

@[simp] theorem withTag_withTag (d : Diagnostic) (t : Tag) :
    (d.withTag t).withTag t = d.withTag t := by
  by_cases h : t ∈ d.tags <;> simp [withTag, h]

@[simp] theorem isUnnecessary_unnecessary (message : String) (span : Span) :
    (unnecessary message span).isUnnecessary = true := rfl

@[simp] theorem isError_error (message : String) (span : Span) :
    (error message span).isError = true := rfl

end Diagnostic

/-- Some diagnostic of the list is an error. -/
def hasErrors (ds : List Diagnostic) : Bool :=
  ds.any Diagnostic.isError

@[simp] theorem hasErrors_append (xs ys : List Diagnostic) :
    hasErrors (xs ++ ys) = (hasErrors xs || hasErrors ys) := by
  simp [hasErrors]

end AuroraLint
