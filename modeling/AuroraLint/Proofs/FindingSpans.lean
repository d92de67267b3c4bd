import AuroraLint.Compiler.Finding
import AuroraLint.Proofs.LineSlices
import Mathlib.Data.List.DropRight

/-!
# Findings within the document

Whatever a compiler claims, a diagnostic made of its output lies on one line of the document.

* `Finding.Kept`     : a finding with a message, at a line of the document and some column.
* `Span.ClampedTo`   : a stretch of one line, at most five characters from a column on.
* `Finding.PlacedAs` : a diagnostic that says what a finding says, at its clamped place.

Main statements: `Finding.span?_clamped` — a line of the document and any column have a span;
`Finding.Kept.exists_diagnostic` — a kept finding makes a diagnostic at its place;
`Finding.diagnostic?_eq_none` — any other finding makes none.
-/

set_option autoImplicit false

namespace AuroraLint

/-- Trimming twice trims no more than trimming once. -/
theorem Text.trim_trim (cs : List Char) : trim (trim cs) = trim cs := by
  have hstart : trimStart (trim cs) = trim cs := by
    refine List.dropWhile_eq_self_iff.mpr fun hpos => ?_
    have hfront : trim cs <+: trimStart cs := List.rdropWhile_prefix isBlank _
    rw [hfront.getElem hpos]
    exact List.dropWhile_get_zero_not _ _ (Nat.lt_of_lt_of_le hpos hfront.length_le)
  calc trim (trim cs) = trimEnd (trim cs) := by rw [trim, hstart]
    _ = trim cs := List.rdropWhile_idempotent isBlank _

/-! ## Spans -/

/-- The span covers the characters of a line from a column on, at most five. Behind the end of the
line it is empty, and column 0 is the start of the line. -/
structure Span.ClampedTo (source : Source) (line column : Nat) (span : Span) : Prop where
  file_eq : span.file = source.name
  start_line : span.start.line = line
  stop_line : span.stop.line = line
  start_column : span.start.column = min (max column 1) (source.lineLength line + 1)
  stop_column : span.stop.column = min (max column 1 + 5) (source.lineLength line + 1)
  start_true : span.start.TrueIn source.chars
  stop_true : span.stop.TrueIn source.chars
  slice_eq : ∃ text covered, source.line? line = some text ∧
    source.slice? span.start span.stop = some covered ∧ covered.length ≤ 5 ∧
    covered = (text.take (span.stop.column - 1)).drop (span.start.column - 1)

namespace Finding

variable {source : Source}

/-- **On a line of the document, every column has a span**, which is kept within the line. -/
theorem span?_clamped {line : Nat} (hfirst : 1 ≤ line) (hlast : line ≤ source.lineCount)
    (column : Nat) : ∃ span, span? source line column = some span ∧
      span.ClampedTo source line column := by
  obtain ⟨text, htext⟩ := Source.exists_line? hfirst hlast
  have hlength : source.lineLength line = text.length := by rw [Source.lineLength, htext]; rfl
  have hle : min (column - 1) text.length + 1 ≤ min (column - 1 + width) text.length + 1 := by
    omega
  obtain ⟨start, hstart, hstartLine, hstartColumn, hstartTrue⟩ :=
    Source.exists_position? htext (min (column - 1) text.length + 1)
  obtain ⟨stop, hstop, hstopLine, hstopColumn, hstopTrue⟩ :=
    Source.exists_position? htext (min (column - 1 + width) text.length + 1)
  obtain ⟨start', stop', hstart', hstop', hslice⟩ := Source.slice?_columns htext hle
  obtain rfl : start' = start := Option.some.inj (hstart'.symm.trans hstart)
  obtain rfl : stop' = stop := Option.some.inj (hstop'.symm.trans hstop)
  have hwidth : width = 5 := rfl
  rw [Nat.add_sub_cancel, Nat.min_eq_left (Nat.min_le_right ..)] at hstartColumn hstopColumn
  refine ⟨source.span start' stop', ?_, rfl, hstartLine, hstopLine, ?_, ?_, hstartTrue, hstopTrue,
    text, _, htext, hslice, ?_, ?_⟩
  · rw [span?, hlength, hstart, hstop]
    rfl
  · show start'.column = _
    rw [hstartColumn, hlength]
    omega
  · show stop'.column = _
    rw [hstopColumn, hlength]
    omega
  · rw [List.length_drop, List.length_take]
    omega
  · show _ = (text.take (stop'.column - 1)).drop (start'.column - 1)
    rw [hstartColumn, hstopColumn]

/-- Outside of the document there is none. -/
theorem span?_eq_none {line : Nat} (h : line = 0 ∨ source.lineCount < line) (column : Nat) :
    span? source line column = none := by
  have hline := (source.line?_eq_none_iff line).mpr h
  rw [span?, Source.position?, hline]
  rfl

/-! ## Diagnostics -/

/-- There is a message, the line is one of the document, and the column is a number. -/
def Kept (source : Source) (f : Finding) : Prop :=
  Text.trim f.message ≠ [] ∧ (number? f.column).isSome ∧
    ∃ line ∈ number? f.line, 1 ≤ line ∧ line ≤ source.lineCount

instance (source : Source) (f : Finding) : Decidable (Kept source f) :=
  inferInstanceAs (Decidable (_ ∧ _ ∧ _))

/-- The diagnostic says what the finding says, without the blanks around its message, at the line
and column that the finding names. -/
structure PlacedAs (source : Source) (f : Finding) (d : Diagnostic) : Prop where
  severity_eq : d.severity = severityOf f.severity
  code_eq : d.code = some (String.ofList f.code)
  source_eq : d.source = some "compiler"
  message_eq : d.message.toList = Text.trim f.message
  message_ne : d.message ≠ ""
  message_trim : Text.trim d.message.toList = d.message.toList
  place : ∃ line column span, number? f.line = some line ∧ number? f.column = some column ∧
    (1 ≤ line ∧ line ≤ source.lineCount) ∧ d.span = some span ∧ span.ClampedTo source line column

/-- **A kept finding makes a diagnostic at its place.** -/
theorem Kept.exists_diagnostic {f : Finding} (h : Kept source f) :
    ∃ d, f.diagnostic? source = some d ∧ PlacedAs source f d := by
  obtain ⟨hmessage, hcolumn, line, hline, hfirst, hlast⟩ := h
  obtain ⟨column, hcolumn⟩ := Option.isSome_iff_exists.mp hcolumn
  obtain ⟨span, hspan, hclamped⟩ := span?_clamped hfirst hlast column
  have hempty : (Text.trim f.message).isEmpty = false := by simpa using hmessage
  have hdiagnostic : f.diagnostic? source = some
      { severity := severityOf f.severity
        message := String.ofList (Text.trim f.message)
        span := some span
        code := some (String.ofList f.code)
        source := some "compiler" } := by
    simp only [diagnostic?, hempty, Option.mem_def.mp hline, hcolumn, hspan, Option.bind_eq_bind,
      Option.bind_some, Bool.false_eq_true, if_false]
    rfl
  refine ⟨_, hdiagnostic, ?_⟩
  constructor
  case message_eq => exact String.toList_ofList
  case message_ne =>
    intro hnil
    have hlist := congrArg String.toList hnil
    rw [String.toList_ofList] at hlist
    exact hmessage hlist
  case message_trim => rw [String.toList_ofList, Text.trim_trim]
  case place => exact ⟨line, column, span, hline, hcolumn, ⟨hfirst, hlast⟩, rfl, hclamped⟩
  all_goals rfl

/-- Any other finding makes none. -/
theorem diagnostic?_eq_none {f : Finding} (h : ¬ Kept source f) : f.diagnostic? source = none := by
  unfold diagnostic?
  by_cases hmessage : Text.trim f.message = []
  · simp [hmessage]
  cases hline : number? f.line with
  | none => simp
  | some line =>
    cases hcolumn : number? f.column with
    | none => simp
    | some column =>
      have hout : line = 0 ∨ source.lineCount < line := by
        refine Decidable.by_contra fun hin => h ⟨hmessage, by rw [hcolumn]; rfl, line, hline, ?_⟩
        omega
      simp [span?_eq_none hout column]

end Finding

end AuroraLint
