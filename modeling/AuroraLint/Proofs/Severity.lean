import AuroraLint.Analysis

/-!
# Severities

Which pass says how serious its findings are.

* `Diagnostic.isHint` : the diagnostic is advice on style.

The lexer, the brackets, the symbol table and the walk report errors only, returns add warnings, and
style alone gives hints, between its errors and behind them.

Main statements: `analyze_eq_filter` — a report without hints is the whole report with the hints
filtered out — and `analyze_without_hints`, which adds that every hint marks code that can be
removed.
-/

set_option autoImplicit false

namespace AuroraLint

namespace Diagnostic

/-- The diagnostic is a hint. -/
def isHint (d : Diagnostic) : Bool :=
  d.severity == .hint

@[simp] theorem isHint_unnecessary (message : String) (span : Span) :
    (unnecessary message span).isHint = true := rfl

theorem isHint_of_severity {d : Diagnostic} {s : Severity} (h : d.severity = s)
    (hs : s ≠ .hint) : d.isHint = false := by
  rw [isHint, h]
  simpa using hs

end Diagnostic

/-! ## Passes that report errors -/

variable {d : Diagnostic}

theorem Lexer.severity_of_mem {file text : String} (hd : d ∈ (tokenize file text).2) :
    d.severity = .error := by
  obtain ⟨s, _, hs⟩ := List.mem_filterMap.mp hd
  unfold Scanned.diagnostic? at hs
  split at hs
  · cases hs
  · obtain rfl := Option.some.inj hs
    rfl

theorem Brackets.severity_of_mem {ts : List Token} (hd : d ∈ check ts) : d.severity = .error := by
  obtain ⟨v, _, hv⟩ := List.mem_filterMap.mp hd
  cases v with
  | matched => cases hv
  | mismatched | unexpected | unclosed =>
    obtain rfl := Option.some.inj hv
    rfl

namespace SymbolTable

theorem severity_of_mem_add {t : SymbolTable} {declaration : Declaration}
    (hd : d ∈ (t.add declaration).2) : d.severity = .error := by
  have hfunction : ∀ header s, d ∈ (t.addFunction header s).2 → d.severity = .error := by
    intro header s hd
    unfold addFunction at hd
    split at hd
    · obtain rfl := List.mem_singleton.mp hd
      rfl
    · cases hd
  cases declaration with
  | function header => exact hfunction _ _ hd
  | external header => exact hfunction _ _ hd
  | classDef header members =>
    simp only [add, addClass] at hd
    split at hd
    · obtain rfl := List.mem_singleton.mp hd
      rfl
    · cases hd

theorem severity_of_mem_addAll {t : SymbolTable} {declarations : List Declaration}
    (hd : d ∈ (t.addAll declarations).2) : d.severity = .error := by
  induction declarations generalizing t with
  | nil => cases hd
  | cons declaration declarations ih =>
    rcases List.mem_append.mp hd with hd | hd
    · exact severity_of_mem_add hd
    · exact ih hd

theorem severity_of_mem_collect {ts : List Token} (hd : d ∈ (collect ts).2) :
    d.severity = .error :=
  severity_of_mem_addAll hd

end SymbolTable

namespace Resolve

variable {doc : Document} {symbols : SymbolTable} {st : State} {i : Nat}

theorem severity_of_mem_checkAgainst {what : String} {s : Signature}
    (hd : d ∈ checkAgainst doc i what s) : d.severity = .error := by
  unfold checkAgainst at hd
  split at hd
  · cases hd
  · rcases List.mem_append.mp hd with hd | hd
    · split at hd
      · cases hd
      · obtain rfl := List.mem_singleton.mp hd
        rfl
    · obtain ⟨⟨arg, param⟩, _, harg⟩ := List.mem_filterMap.mp hd
      simp only [checkArgument] at harg
      split at harg
      · cases harg
      · obtain rfl := Option.some.inj harg
        rfl

theorem severity_of_mem_checkCall (hd : d ∈ checkCall doc symbols st i) : d.severity = .error := by
  unfold checkCall at hd
  split at hd
  · cases hd
  · simp only [checkConstructorCall] at hd
    split at hd
    · obtain rfl := List.mem_singleton.mp hd
      rfl
    · split at hd
      · cases hd
      · exact severity_of_mem_checkAgainst hd
  · simp only [checkFunctionCall] at hd
    split at hd
    · obtain rfl := List.mem_singleton.mp hd
      rfl
    · exact severity_of_mem_checkAgainst hd

theorem severity_of_mem_checkDeclaration (hd : d ∈ checkDeclaration doc st i) :
    d.severity = .error := by
  unfold checkDeclaration at hd
  split at hd
  · cases hd
  · split at hd
    · obtain rfl := List.mem_singleton.mp hd
      rfl
    · unfold checkInitializer at hd
      split at hd
      · simp only at hd
        split at hd
        · cases hd
        · obtain rfl := List.mem_singleton.mp hd
          rfl
      · cases hd

theorem severity_of_mem_checkAssignment (hd : d ∈ checkAssignment doc st i) :
    d.severity = .error := by
  simp only [checkAssignment] at hd
  split at hd
  · obtain rfl := List.mem_singleton.mp hd
    rfl
  · split at hd
    · cases hd
    · obtain rfl := List.mem_singleton.mp hd
      rfl

theorem severity_of_mem_checkLiteralOperation (hd : d ∈ checkLiteralOperation doc i) :
    d.severity = .error := by
  unfold checkLiteralOperation at hd
  split at hd
  · split at hd
    · obtain rfl := List.mem_singleton.mp hd
      rfl
    · cases hd
  · cases hd

theorem severity_of_mem_findings (hd : d ∈ findings doc symbols st i) : d.severity = .error := by
  unfold findings at hd
  split at hd
  · exact severity_of_mem_checkDeclaration hd
  · exact severity_of_mem_checkDeclaration hd
  · unfold checkIdentifier at hd
    split at hd
    · exact severity_of_mem_checkCall hd
    · split at hd
      · exact severity_of_mem_checkAssignment hd
      · cases hd
  · exact severity_of_mem_checkLiteralOperation hd
  · cases hd

theorem severity_of_mem_check (hd : d ∈ check doc symbols) : d.severity = .error := by
  rw [check_eq] at hd
  obtain ⟨i, _, hd⟩ := List.mem_flatMap.mp hd
  exact severity_of_mem_findings hd

end Resolve

/-! ## Returns -/

/-- A function without any `return` is warned of; all else that is wrong is an error. -/
theorem Returns.severity_of_mem_check {doc : Document} (hd : d ∈ check doc) :
    d.severity = .error ∨ d.severity = .warning := by
  obtain ⟨i, _, hd⟩ := List.mem_flatMap.mp hd
  unfold checkAt at hd
  split at hd
  · split at hd
    · rcases List.mem_append.mp hd with hd | hd
      · obtain ⟨k, _, hk⟩ := List.mem_filterMap.mp hd
        unfold checkReturn at hk
        split at hk
        · obtain rfl := Option.some.inj hk
          exact .inl rfl
        · obtain rfl := Option.some.inj hk
          exact .inl rfl
        · cases hk
      · split at hd
        · obtain rfl := List.mem_singleton.mp hd
          exact .inr rfl
        · cases hd
    · cases hd
  · cases hd

/-! ## Style -/

namespace Style

variable {doc : Document} {line : Extent}

theorem severity_of_mem_checkMissingBrace (hd : d ∈ checkMissingBrace doc line) :
    d.severity = .error := by
  unfold checkMissingBrace at hd
  split at hd
  · split at hd
    · obtain rfl := List.mem_singleton.mp hd
      rfl
    · cases hd
  · cases hd

theorem eq_unnecessary_of_mem_checkSnakeCase (hd : d ∈ checkSnakeCase doc line) :
    ∃ message span, d = .unnecessary message span := by
  obtain ⟨t, _, ht⟩ := List.mem_filterMap.mp hd
  split at ht
  · obtain rfl := Option.some.inj ht
    exact ⟨_, _, rfl⟩
  · cases ht

theorem eq_unnecessary_of_mem_checkSemicolon (hd : d ∈ checkSemicolon doc line) :
    ∃ message span, d = .unnecessary message span := by
  simp only [checkSemicolon] at hd
  split at hd
  · exact ⟨_, _, List.mem_singleton.mp hd⟩
  · cases hd

theorem eq_unnecessary_of_mem_checkPub {tracker : ClassTracker} {lines : List Extent}
    (hd : d ∈ checkPub doc tracker lines) : ∃ message span, d = .unnecessary message span := by
  induction lines generalizing tracker with
  | nil => cases hd
  | cons line lines ih =>
    rcases List.mem_append.mp hd with hd | hd
    · split at hd
      · exact ⟨_, _, List.mem_singleton.mp hd⟩
      · cases hd
    · exact ih hd

/-- The findings on style that are no hints are the same whether hints are wanted or not. -/
theorem check_eq_filter (doc : Document) :
    check doc false = (check doc true).filter fun d => !d.isHint := by
  have hdrop : ∀ ds : List Diagnostic, (∀ d ∈ ds, ∃ message span, d = .unnecessary message span) →
      ds.filter (fun d => !d.isHint) = [] := by
    intro ds hds
    rw [List.filter_eq_nil_iff]
    intro d hd
    obtain ⟨message, span, rfl⟩ := hds d hd
    simp
  have hline : ∀ line, checkLine doc false line =
      (checkLine doc true line).filter fun d => !d.isHint := by
    intro line
    have hkeep : (checkMissingBrace doc line).filter (fun d => !d.isHint) =
        checkMissingBrace doc line := by
      rw [List.filter_eq_self]
      intro d hd
      rw [Diagnostic.isHint_of_severity (severity_of_mem_checkMissingBrace hd) nofun]
      rfl
    simp [checkLine, hkeep, hdrop _ fun _ => eq_unnecessary_of_mem_checkSnakeCase,
      hdrop _ fun _ => eq_unnecessary_of_mem_checkSemicolon]
  simp only [check, List.filter_append, List.filter_flatMap, ← hline, ↓reduceIte,
    Bool.false_eq_true, hdrop _ fun _ => eq_unnecessary_of_mem_checkPub]

theorem eq_unnecessary_of_isHint {hints : Bool} (hd : d ∈ check doc hints)
    (hhint : d.isHint = true) : ∃ message span, d = .unnecessary message span := by
  simp only [check] at hd
  rcases List.mem_append.mp hd with hd | hd
  · obtain ⟨line, _, hd⟩ := List.mem_flatMap.mp hd
    rcases List.mem_append.mp hd with hd | hd
    · rw [Diagnostic.isHint_of_severity (severity_of_mem_checkMissingBrace hd) nofun] at hhint
      cases hhint
    · split at hd
      · rcases List.mem_append.mp hd with hd | hd
        · exact eq_unnecessary_of_mem_checkSnakeCase hd
        · exact eq_unnecessary_of_mem_checkSemicolon hd
      · cases hd
  · split at hd
    · exact eq_unnecessary_of_mem_checkPub hd
    · cases hd

end Style

/-! ## Reports -/

/-- What the passes in front of the style checks find in a document. -/
def faults (uri text : String) : List Diagnostic :=
  let doc := Document.ofText uri text
  let symbols := SymbolTable.collect doc.tokens
  (Lexer.tokenize uri text).2 ++ Brackets.check doc.tokens ++ symbols.2 ++
    Resolve.check doc symbols.1 ++ Returns.check doc

theorem analyze_eq (uri text : String) (hints : Bool) :
    analyze uri text hints =
      ⟨uri, faults uri text ++ Style.check (Document.ofText uri text) hints⟩ := rfl

theorem isHint_of_mem_faults {uri text : String} (hd : d ∈ faults uri text) : d.isHint = false := by
  simp only [faults, List.mem_append] at hd
  rcases hd with (((hd | hd) | hd) | hd) | hd
  · exact Diagnostic.isHint_of_severity (Lexer.severity_of_mem hd) nofun
  · exact Diagnostic.isHint_of_severity (Brackets.severity_of_mem hd) nofun
  · exact Diagnostic.isHint_of_severity (SymbolTable.severity_of_mem_collect hd) nofun
  · exact Diagnostic.isHint_of_severity (Resolve.severity_of_mem_check hd) nofun
  · rcases Returns.severity_of_mem_check hd with herror | hwarning
    · exact Diagnostic.isHint_of_severity herror nofun
    · exact Diagnostic.isHint_of_severity hwarning nofun

/-- **A report without hints is the whole report with the hints filtered out.** -/
theorem analyze_eq_filter (uri text : String) :
    (analyze uri text false).diagnostics =
      (analyze uri text true).diagnostics.filter fun d => !d.isHint := by
  have hkeep : (faults uri text).filter (fun d => !d.isHint) = faults uri text := by
    rw [List.filter_eq_self]
    intro d hd
    rw [isHint_of_mem_faults hd]
    rfl
  rw [analyze_eq, analyze_eq, List.filter_append, hkeep, Style.check_eq_filter]

/-- **Turning hints off removes the hints and nothing else.** What is left keeps its order, and each
hint that goes marks code that can be removed. -/
theorem analyze_without_hints (uri text : String) :
    analyze uri text false =
        { analyze uri text true with
          diagnostics := (analyze uri text true).diagnostics.filter (·.severity ≠ .hint) } ∧
      ∀ d ∈ (analyze uri text true).diagnostics, d.severity = .hint → Tag.unnecessary ∈ d.tags := by
  constructor
  · have hfilter : ∀ ds : List Diagnostic, ds.filter (fun d => !d.isHint) =
        ds.filter (·.severity ≠ .hint) := by
      intro ds
      refine List.filter_congr fun d _ => ?_
      cases hs : d.severity <;> simp [Diagnostic.isHint, hs]
    rw [← hfilter, ← analyze_eq_filter]
    rfl
  · intro d hd hseverity
    have hhint : d.isHint = true := by
      rw [Diagnostic.isHint, hseverity]
      rfl
    rw [analyze_eq] at hd
    rcases List.mem_append.mp hd with hd | hd
    · rw [isHint_of_mem_faults hd] at hhint
      cases hhint
    · obtain ⟨message, span, rfl⟩ := Style.eq_unnecessary_of_isHint hd hhint
      exact List.mem_singleton_self _

end AuroraLint
