import AuroraLint.Analysis
import AuroraLint.Proofs.Located.Resolve
import AuroraLint.Proofs.TokenLines
import Mathlib.Data.List.Forall2

/-!
# Every reported range is a real one

* `Record.Item.Exact` : an exchanged diagnostic counts from 0 what the diagnostic counts from 1.

Main statement: `analyze_ranges_real` — whatever the text, all six passes report real spans, with
real related spans that do not start behind them, and the record of the report loses no number by
counting from 0.
-/

set_option autoImplicit false

namespace AuroraLint

/-! ## Returns -/

namespace Returns

variable {doc : Document}

theorem checkReturn_located (h : doc.Streamed) {name : String} {returnType : Ty} {i : Nat}
    (hi : doc.kind i = .kwReturn) {d : Diagnostic} (hd : checkReturn doc name returnType i = some d) :
    d.Located doc.source.name doc.source.chars := by
  have hlt := h.endsInEof.succ_lt_of_eq hi nofun
  unfold checkReturn at hd
  split at hd
  · obtain rfl := Option.some.inj hd
    exact Diagnostic.located_error (h.toLineEnd_real hlt)
  · obtain rfl := Option.some.inj hd
    exact Diagnostic.located_error (h.real hlt)
  · cases hd

theorem checkFunction_located (h : doc.Streamed) {header : FnHeader} {i body : Nat}
    (hn : header.NamedAt doc.tokens i .kwFn) :
    ∀ d ∈ checkFunction doc header body, d.Located doc.source.name doc.source.chars := by
  intro d hd
  simp only [checkFunction] at hd
  rcases List.mem_append.mp hd with hd | hd
  · obtain ⟨k, hk, hd⟩ := List.mem_filterMap.mp hd
    exact checkReturn_located h (by simpa using (List.mem_filter.mp hk).2) hd
  · split at hd
    · obtain rfl := List.mem_singleton.mp hd
      exact Diagnostic.located_of_alone rfl (hn.place h).1 rfl
    · cases hd

theorem check_located (h : doc.Streamed) :
    ∀ d ∈ check doc, d.Located doc.source.name doc.source.chars := by
  intro d hd
  obtain ⟨i, _, hd⟩ := List.mem_flatMap.mp hd
  unfold checkAt at hd
  split at hd
  · rename_i header hheader
    split at hd
    · exact checkFunction_located h ((fnHeaderAt_eq_some_iff h.endsInEof).mp hheader) d hd
    · cases hd
  · cases hd

end Returns

/-! ## Style -/

namespace Style

variable {doc : Document} {line : Extent}

theorem checkMissingBrace_located (h : doc.Streamed) (hlt : line.start < line.stop)
    (hstop : line.stop < doc.tokens.length) :
    ∀ d ∈ checkMissingBrace doc line, d.Located doc.source.name doc.source.chars := by
  intro d hd
  unfold checkMissingBrace at hd
  split at hd
  · split at hd
    · obtain rfl := List.mem_singleton.mp hd
      exact Diagnostic.located_error (h.lineSpan_real (by omega))
    · cases hd
  · cases hd

theorem checkSnakeCase_located (h : doc.Streamed) (hstop : line.stop < doc.tokens.length) :
    ∀ d ∈ checkSnakeCase doc line, d.Located doc.source.name doc.source.chars := by
  intro d hd
  obtain ⟨t, ht, hd⟩ := List.mem_filterMap.mp hd
  obtain ⟨k, _, hk, _, rfl⟩ := Extent.mem_tokens ht
  split at hd
  · obtain rfl := Option.some.inj hd
    exact Diagnostic.located_of_alone rfl (h.real (by omega)) rfl
  · cases hd

theorem checkSemicolon_located (h : doc.Streamed) (hlt : line.start < line.stop)
    (hstop : line.stop < doc.tokens.length) :
    ∀ d ∈ checkSemicolon doc line, d.Located doc.source.name doc.source.chars := by
  intro d hd
  simp only [checkSemicolon] at hd
  split at hd
  · obtain rfl := List.mem_singleton.mp hd
    exact Diagnostic.located_of_alone rfl (h.real (by omega)) rfl
  · cases hd

theorem checkPub_located (h : doc.Streamed) {tracker : ClassTracker} {lines : List Extent}
    (hlines : ∀ e ∈ lines, e.start < e.stop ∧ e.stop < doc.tokens.length) :
    ∀ d ∈ checkPub doc tracker lines, d.Located doc.source.name doc.source.chars := by
  induction lines generalizing tracker with
  | nil => exact List.forall_mem_nil _
  | cons line lines ih =>
    obtain ⟨hlt, hstop⟩ := hlines line (List.mem_cons_self ..)
    intro d hd
    simp only [checkPub] at hd
    rcases List.mem_append.mp hd with hd | hd
    · split at hd
      · obtain rfl := List.mem_singleton.mp hd
        refine Diagnostic.located_of_alone rfl ?_ rfl
        rw [Extent.tokenAt_tokens hlt (Nat.le_of_lt hstop)]
        exact h.real (by omega)
      · cases hd
    · exact ih (fun e he => hlines e (List.mem_cons_of_mem _ he)) d hd

theorem check_located (h : doc.Streamed) (hints : Bool) :
    ∀ d ∈ check doc hints, d.Located doc.source.name doc.source.chars := by
  intro d hd
  simp only [check] at hd
  rcases List.mem_append.mp hd with hd | hd
  · obtain ⟨line, hline, hd⟩ := List.mem_flatMap.mp hd
    obtain ⟨hlt, hstop⟩ := mem_tokenLines h.endsInEof hline
    rcases List.mem_append.mp hd with hd | hd
    · exact checkMissingBrace_located h hlt hstop d hd
    · split at hd
      · rcases List.mem_append.mp hd with hd | hd
        · exact checkSnakeCase_located h hstop d hd
        · exact checkSemicolon_located h hlt hstop d hd
      · cases hd
  · split at hd
    · exact checkPub_located h (fun e => mem_tokenLines h.endsInEof) d hd
    · cases hd

end Style

/-! ## The whole report -/

theorem analyze_located (uri text : String) (hints : Bool) :
    ∀ d ∈ (analyze uri text hints).diagnostics, d.Located uri text.toList := by
  have h := Document.streamed_ofText uri text
  intro d hd
  simp only [analyze, List.mem_append] at hd
  rcases hd with ((((hd | hd) | hd) | hd) | hd) | hd
  · exact Lexer.tokenize_located uri text d hd
  · exact Brackets.check_located h d hd
  · exact SymbolTable.collect_located h d hd
  · exact Resolve.check_located h d hd
  · exact Returns.check_located h d hd
  · exact Style.check_located h hints d hd

namespace Record

/-- The place is the position with line and column counted from 0. -/
def Place.Exact (place : Place) (p : Position) : Prop :=
  place.line + 1 = p.line ∧ place.character + 1 = p.column

/-- The range is the span with lines and columns counted from 0. -/
def Range.Exact (range : Range) (s : Span) : Prop :=
  range.start.Exact s.start ∧ range.stop.Exact s.stop

/-- The exchanged diagnostic has the range of the diagnostic and the ranges of its related places,
all counted from 0. -/
def Item.Exact (item : Item) (d : Diagnostic) : Prop :=
  (∃ range span, item.range = some range ∧ d.span = some span ∧ range.Exact span) ∧
    List.Forall₂ (fun (r : RelatedItem) (place : Related) => r.range.Exact place.span)
      item.related d.related

variable {text : List Char}

theorem Place.exact_ofPosition {p : Position} (h : p.TrueIn text) :
    (Place.ofPosition p).Exact p := by
  have hline := h.line_pos
  have hcolumn := h.column_pos
  simp only [Place.Exact, Place.ofPosition, Position.zeroBased]
  omega

theorem Range.exact_ofSpan {file : String} {s : Span} (h : s.Real file text) :
    (Range.ofSpan s).Exact s :=
  ⟨Place.exact_ofPosition h.start_true, Place.exact_ofPosition h.stop_true⟩

theorem Item.exact_ofDiagnostic {file : String} {d : Diagnostic} (h : d.Located file text) :
    (Item.ofDiagnostic d).Exact d := by
  obtain ⟨span, hspan, hreal, hrelated⟩ := h
  refine ⟨⟨.ofSpan span, span, ?_, hspan, Range.exact_ofSpan hreal⟩, ?_⟩
  · simp [Item.ofDiagnostic, hspan]
  · refine List.forall₂_map_left_iff.mpr (List.forall₂_same.mpr ?_)
    exact fun r hr => Range.exact_ofSpan (hrelated r hr).1

end Record

/-- **Every reported range is a real range of the document**, and counting from 0 in the record
takes exactly 1 off every line and column. -/
theorem analyze_ranges_real (uri text : String) (hints : Bool) :
    let report := analyze uri text hints
    (∀ d ∈ report.diagnostics, d.Located uri text.toList) ∧
      List.Forall₂ Record.Item.Exact report.toRecord.diagnostics report.diagnostics := by
  intro report
  refine ⟨analyze_located uri text hints, ?_⟩
  refine List.forall₂_map_left_iff.mpr (List.forall₂_same.mpr ?_)
  exact fun d hd => Record.Item.exact_ofDiagnostic (analyze_located uri text hints d hd)

end AuroraLint
