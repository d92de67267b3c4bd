import AuroraLint.Diagnostic
import AuroraLint.Json

/-!
# Reports

All diagnostics of one document, and the record they are exchanged as.

* `Report`        : the document's identity and its diagnostics in the order they were found.
* `Report.Record` : the same with lines and characters counted from 0.
* `Record.toJson` : the record as JSON; members without content are left out.
-/

set_option autoImplicit false

namespace AuroraLint

/-- The diagnostics of the document `uri`, in the order they were found. -/
structure Report where
  uri : String
  diagnostics : List Diagnostic
  deriving DecidableEq, Repr, Inhabited

namespace Report

/-- Some diagnostic is an error. -/
def hasErrors (r : Report) : Bool :=
  AuroraLint.hasErrors r.diagnostics

/-- How many diagnostics have a severity. -/
def count (r : Report) (severity : Severity) : Nat :=
  (r.diagnostics.filter (·.severity == severity)).length

end Report

/-! ## Records -/

namespace Record

/-- A place with line and character counted from 0. -/
structure Place where
  line : Nat
  character : Nat
  deriving DecidableEq, Repr, Inhabited

/-- A stretch between two places. -/
structure Range where
  start : Place
  stop : Place
  deriving DecidableEq, Repr, Inhabited

/-- A related location. -/
structure RelatedItem where
  uri : String
  range : Range
  message : String
  deriving DecidableEq, Repr, Inhabited

/-- A diagnostic in exchanged form. -/
structure Item where
  range : Option Range
  severity : String
  message : String
  related : List RelatedItem
  tags : List String
  code : Option String
  source : Option String
  suggestion : Option String
  deriving DecidableEq, Repr, Inhabited

/-- The place of a position. -/
def Place.ofPosition (p : Position) : Place :=
  ⟨p.zeroBased.1, p.zeroBased.2⟩

/-- The range of a span. -/
def Range.ofSpan (s : Span) : Range :=
  ⟨.ofPosition s.start, .ofPosition s.stop⟩

/-- The exchanged name of a tag. -/
def tagName : Tag → String
  | .unnecessary => "unnecessary"

/-- The exchanged form of a diagnostic. -/
def Item.ofDiagnostic (d : Diagnostic) : Item where
  range := d.span.map .ofSpan
  severity := d.severity.name
  message := d.message
  related := d.related.map fun r => ⟨r.span.file, .ofSpan r.span, r.message⟩
  tags := d.tags.map tagName
  code := d.code
  source := d.source
  suggestion := d.suggestion

end Record

/-- The exchanged form of a report. -/
structure Record where
  uri : String
  diagnostics : List Record.Item
  deriving DecidableEq, Repr, Inhabited

/-- The record of a report. -/
def Report.toRecord (r : Report) : Record :=
  ⟨r.uri, r.diagnostics.map .ofDiagnostic⟩

namespace Record

/-! ## Records as JSON -/

def Place.toJson (p : Place) : Json :=
  .object [("line", .number p.line), ("character", .number p.character)]

def Range.toJson (r : Range) : Json :=
  .object [("start", r.start.toJson), ("end", r.stop.toJson)]

def RelatedItem.toJson (r : RelatedItem) : Json :=
  .object [("uri", .text r.uri), ("range", r.range.toJson), ("message", .text r.message)]

/-- A member that is left out when its value is absent. -/
def optional (name : String) (value : Option Json) : List (String × Json) :=
  match value with
  | some v => [(name, v)]
  | none => []

/-- A member that is left out when its list is empty. -/
def nonempty (name : String) (values : List Json) : List (String × Json) :=
  match values with
  | [] => []
  | vs => [(name, .array vs)]

def Item.toJson (d : Item) : Json :=
  .object (optional "range" (d.range.map Range.toJson) ++
    [("severity", .text d.severity), ("message", .text d.message)] ++
    nonempty "related" (d.related.map RelatedItem.toJson) ++
    nonempty "tags" (d.tags.map .text) ++
    optional "code" (d.code.map .text) ++
    optional "source" (d.source.map .text) ++
    optional "suggestion" (d.suggestion.map .text))

/-- The whole record as one JSON document. -/
def toJson (r : Record) : Json :=
  .object [("uri", .text r.uri), ("diagnostics", .array (r.diagnostics.map Item.toJson))]

end Record

end AuroraLint
