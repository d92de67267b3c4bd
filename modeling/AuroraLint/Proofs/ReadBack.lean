import AuroraLint.Proofs.FindingSpans
import AuroraLint.Proofs.Lexeme
import Mathlib.Data.List.Forall2
import Mathlib.Data.List.TakeWhile

/-!
# Reading back what was printed

The text form of a diagnostic is one that the reader of compiler output takes for a finding, and it
takes neither more nor less: messages may hold brackets and arrows, and file names whole places.

* `Finding.written`        : the text that a finding and a path are read from.
* `Diagnostic.Printable`   : what the text form says all of.
* `Diagnostic.ReadBackAs`  : what is left of a diagnostic after printing and reading.

Main statements: `Finding.read?_written` — a written finding is read as it was written;
`Finding.allFrom_written` — the search goes on right behind it; `compilerDiagnostics_render` — the
text forms of any number of diagnostics, joined by line feeds, are read back in order.
-/

set_option autoImplicit false

namespace AuroraLint

/-! ## Digits and blanks -/

namespace Text

theorem isDigit_of_ascii {c : Char} (h : c.isDigit = true) : isDigit c = true :=
  inRanges_iff.mpr ⟨(0x0030, 0x0039), by simp [digitRanges], Lexeme.toNat_of_isDigit h⟩

/-- A blank at the head of a text is trimmed away. -/
theorem trim_cons_blank {c : Char} (h : isBlank c = true) (cs : List Char) :
    trim (c :: cs) = trim cs := by
  rw [trim, trimStart, List.dropWhile_cons_of_pos h]
  rfl

end Text

namespace Finding

/-! ## Places -/

/-- A place has two colons. -/
theorem two_le_count_of_place? {cs : List Char} {found : List Char × List Char}
    (h : place? cs = some found) : 2 ≤ cs.count ':' := by
  unfold place? at h
  split at h
  · rename_i cs
    simp only at h
    split at h
    · rename_i after hdrop
      have hle : ((cs.drop (cs.takeWhile Text.isDigit).length).count ':') ≤ cs.count ':' :=
        (List.drop_sublist ..).count_le _
      rw [hdrop, List.count_cons_self] at hle
      rw [List.count_cons_self]
      omega
    · cases h
  · cases h

/-- A text with one colon at most has no place in it. -/
theorem lastPlace?_eq_none {cs : List Char} (h : cs.count ':' ≤ 1) (i : Nat) :
    lastPlace? i cs = none := by
  induction cs generalizing i with
  | nil => rfl
  | cons c cs ih =>
    have hle : cs.count ':' ≤ (c :: cs).count ':' := List.count_le_count_cons
    rw [lastPlace?, ih (by omega)]
    cases hp : place? (c :: cs) with
    | none => rfl
    | some found =>
      have := two_le_count_of_place? hp
      omega

/-- The last place of the end of a text is the last of the text. -/
theorem lastPlace?_append {ys : List Char} {found : List Char × List Char × Nat}
    (xs : List Char) {i : Nat} (h : lastPlace? (i + xs.length) ys = some found) :
    lastPlace? i (xs ++ ys) = some found := by
  induction xs generalizing i with
  | nil => exact h
  | cons x xs ih =>
    have hrest : lastPlace? (i + 1) (xs ++ ys) = some found := by
      refine ih ?_
      rw [List.length_cons] at h
      rw [show i + 1 + xs.length = i + (xs.length + 1) by omega]
      exact h
    rw [List.cons_append, lastPlace?, hrest]

section Digits

variable {line column : List Char} (hline : ∀ d ∈ line, d.isDigit = true)
  (hcolumn : ∀ d ∈ column, d.isDigit = true)

include hline hcolumn

theorem place?_written (hline' : line ≠ []) (hcolumn' : column ≠ []) :
    place? (':' :: (line ++ ':' :: column)) = some (line, column) := by
  have hrun : (line ++ ':' :: column).takeWhile Text.isDigit = line :=
    takeWhile_run (fun d hd => Text.isDigit_of_ascii (hline d hd)) (by decide) column
  have hrun' : column.takeWhile Text.isDigit = column :=
    List.takeWhile_eq_self_iff.mpr fun d hd => Text.isDigit_of_ascii (hcolumn d hd)
  simp [place?, hrun, hrun', hline', hcolumn']

/-- **The place at the end of a line is its last**: the digits have no colon. -/
theorem lastPlace?_written (hline' : line ≠ []) (hcolumn' : column ≠ []) (path : List Char)
    (i : Nat) :
    lastPlace? i (path ++ ':' :: (line ++ ':' :: column)) =
      some (line, column, i + path.length + line.length + column.length + 2) := by
  have hcolon : ∀ run : List Char, (∀ d ∈ run, d.isDigit = true) → run.count ':' = 0 := by
    intro run hrun
    refine List.count_eq_zero.mpr fun hmem => ?_
    exact absurd (hrun ':' hmem) (by decide)
  have hcount : (line ++ ':' :: column).count ':' ≤ 1 := by
    rw [List.count_append, List.count_cons_self, hcolon line hline, hcolon column hcolumn,
      Nat.zero_add]
  refine lastPlace?_append path ?_
  rw [lastPlace?, lastPlace?_eq_none hcount, place?_written hline hcolumn hline' hcolumn']
  rfl

end Digits

/-! ## Written findings -/

/-- The text that a finding with a path is read from: two lines, the second one indented. -/
def written (f : Finding) (path : List Char) : List Char :=
  f.severity ++ '[' :: (f.code ++ ']' :: ':' :: (f.message ++ '\n' :: ' ' :: ' ' :: '-' :: '-' ::
    '>' :: ' ' :: (path ++ ':' :: (f.line ++ ':' :: f.column))))

/-- The parts of a finding are such as can be told from what is written between them. -/
structure Readable (f : Finding) : Prop where
  severity_ne : f.severity ≠ []
  severity_word : ∀ c ∈ f.severity, Text.isWord c = true
  code_ne : f.code ≠ []
  code_word : ∀ c ∈ f.code, Text.isWord c = true
  message_ne : f.message ≠ []
  message_line : '\n' ∉ f.message
  line_ne : f.line ≠ []
  line_digits : ∀ c ∈ f.line, c.isDigit = true
  column_ne : f.column ≠ []
  column_digits : ∀ c ∈ f.column, c.isDigit = true

/-- A text without line feed is the rest of its line, before a line feed or the end. -/
theorem restOfLine_append {cs rest : List Char} (hcs : '\n' ∉ cs)
    (hrest : rest = [] ∨ rest.head? = some '\n') : restOfLine (cs ++ rest) = cs := by
  have hrun : ∀ c ∈ cs, (c != '\n') = true := by
    intro c hc
    have : c ≠ '\n' := fun h => hcs (h ▸ hc)
    simpa using this
  unfold restOfLine
  rcases hrest with rfl | hhead
  · rw [List.append_nil]
    exact List.takeWhile_eq_self_iff.mpr hrun
  · cases rest with
    | nil => cases hhead
    | cons c rest =>
      obtain rfl := Option.some.inj hhead
      exact takeWhile_run hrun (by decide) rest

/-- **A written finding is read as it was written**, up to the end of its second line. -/
theorem read?_written {f : Finding} (h : f.Readable) {path rest : List Char} (hpath : '\n' ∉ path)
    (hrest : rest = [] ∨ rest.head? = some '\n') :
    read? (f.written path ++ rest) = some (f, (f.written path).length) := by
  have hdigits : ∀ run : List Char, (∀ d ∈ run, d.isDigit = true) → '\n' ∉ run :=
    fun run hrun hmem => absurd (hrun '\n' hmem) (by decide)
  have htarget : '\n' ∉ ' ' :: (path ++ ':' :: (f.line ++ ':' :: f.column)) := by
    have := hdigits f.line h.line_digits
    have := hdigits f.column h.column_digits
    simp_all
  have hseverity := fun rest =>
    takeWhile_run h.severity_word (by decide : Text.isWord '[' = false) rest
  have hcode := fun rest => takeWhile_run h.code_word (by decide : Text.isWord ']' = false) rest
  have hmessage : ∀ rest, restOfLine (f.message ++ '\n' :: rest) = f.message :=
    fun rest => restOfLine_append h.message_line (.inr rfl)
  have hplace := restOfLine_append htarget hrest
  have hlast := lastPlace?_written h.line_digits h.column_digits h.line_ne h.column_ne path 1
  have hgap : ∀ rest, (' ' :: ' ' :: '-' :: rest).takeWhile isGap = [' ', ' '] := fun _ => rfl
  have hparts : (f.severity.isEmpty || f.code.isEmpty || f.message.isEmpty) = false := by
    simp [h.severity_ne, h.code_ne, h.message_ne]
  have hlength : (f.written path).length = f.severity.length + f.code.length + f.message.length +
      [' ', ' '].length + (1 + path.length + f.line.length + f.column.length + 2) + 7 := by
    simp only [written, List.length_append, List.length_cons, List.length_nil]
    omega
  rw [hlength]
  simp only [written, List.append_assoc, List.cons_append] at hplace ⊢
  simp only [read?, hseverity, List.drop_left, hcode, hmessage, hgap]
  simp only [List.length_cons, List.length_nil, List.drop_succ_cons, List.drop_zero, hplace,
    List.tail_cons, hlast, Option.bind_eq_bind, Option.bind_some, hparts, Bool.false_eq_true,
    if_false]

/-! ## One finding after the other -/

/-- Characters that belong to a finding are passed over. -/
theorem allFrom_skip (front rest : List Char) :
    allFrom front.length (front ++ rest) = allFrom 0 rest := by
  induction front with
  | nil => rfl
  | cons c front ih => exact ih

/-- **The search goes on right behind a written finding.** -/
theorem allFrom_written {f : Finding} (h : f.Readable) {path rest : List Char} (hpath : '\n' ∉ path)
    (hrest : rest = [] ∨ rest.head? = some '\n') :
    allFrom 0 (f.written path ++ rest) = f :: allFrom 0 rest := by
  have hread := read?_written h hpath hrest
  cases hw : f.written path with
  | nil => simp [written] at hw
  | cons c cs =>
    rw [hw, List.cons_append] at hread
    rw [List.cons_append, allFrom, hread]
    simp only [List.length_cons, Nat.add_sub_cancel, allFrom_skip]

/-- No finding starts with a line feed. -/
theorem allFrom_newline (rest : List Char) : allFrom 0 ('\n' :: rest) = allFrom 0 rest := by
  have hword : ('\n' :: rest).takeWhile Text.isWord = [] :=
    List.takeWhile_cons_of_neg (by decide)
  have hread : read? ('\n' :: rest) = none := by
    simp [read?, hword]
  rw [allFrom, hread]

/-- Findings with their paths, written one under the other, are all found. -/
theorem all_written {fs : List (Finding × List Char)}
    (h : ∀ p ∈ fs, p.1.Readable ∧ '\n' ∉ p.2) :
    all (List.intercalate ['\n'] (fs.map fun p => p.1.written p.2)) = fs.map Prod.fst := by
  unfold all
  induction fs with
  | nil => rfl
  | cons p fs ih =>
    obtain ⟨hreadable, hpath⟩ := h p List.mem_cons_self
    have hfs := ih fun q hq => h q (List.mem_cons_of_mem _ hq)
    cases fs with
    | nil =>
      have hone := allFrom_written hreadable hpath (.inl rfl)
      rw [List.append_nil] at hone
      simpa [List.intercalate, allFrom] using hone
    | cons q fs =>
      rw [List.map_cons] at hfs
      rw [List.map_cons, List.map_cons, List.intercalate_cons_cons, List.append_assoc,
        List.singleton_append, allFrom_written hreadable hpath (.inr rfl), allFrom_newline, hfs]
      rfl

/-! ## From diagnostics to findings and back -/

theorem number?_toDigits {n : Nat} (h : n ≤ maxNumber) : number? (Nat.toDigits 10 n) = some n := by
  have hdigits : (Nat.toDigits 10 n).all Char.isDigit = true :=
    List.all_eq_true.mpr fun c hc => Nat.isDigit_of_mem_toDigits (by decide) (by decide) hc
  have hvalue : (Nat.toDigits 10 n).foldl (fun n c => 10 * n + (c.toNat - '0'.toNat)) 0 = n :=
    Nat.ofDigitChars_ten_toDigits
  simp only [number?, hdigits, if_true, hvalue, h]

theorem severityOf_name {s : Severity} (h : s = .error ∨ s = .warning) :
    severityOf s.name.toList = s := by
  rcases h with rfl | rfl <;> decide

end Finding

open Finding

namespace Diagnostic

/-- Everything that its text form says of a diagnostic can be read off it again: it is an error or
warning with a code of word characters, a message on one line without blanks at its ends, and the
place of a line and column of the document, numbers that a finding can name. -/
structure Printable (source : Source) (d : Diagnostic) : Prop where
  severity : d.severity = .error ∨ d.severity = .warning
  code : ∃ code, d.code = some code ∧ code.toList ≠ [] ∧ ∀ c ∈ code.toList, Text.isWord c = true
  message_ne : d.message.toList ≠ []
  message_line : '\n' ∉ d.message.toList
  message_trim : Text.trim d.message.toList = d.message.toList
  place : ∃ span, d.span = some span ∧ '\n' ∉ span.file.toList ∧
    (1 ≤ span.start.line ∧ span.start.line ≤ source.lineCount) ∧
    (1 ≤ span.start.column ∧ span.start.column ≤ source.lineLength span.start.line + 1) ∧
    span.start.line ≤ maxNumber ∧ span.start.column ≤ maxNumber

/-- The diagnostic `r` was read off the text form of `d`. -/
structure ReadBackAs (d r : Diagnostic) : Prop where
  severity_eq : r.severity = d.severity
  code_eq : r.code = d.code
  message_eq : r.message = d.message
  place_eq : ∃ span span', d.span = some span ∧ r.span = some span' ∧
    span'.start.line = span.start.line ∧ span'.start.column = span.start.column
  source_eq : r.source = some "compiler"

end Diagnostic

/-- The text form of a diagnostic is a written finding, from which the diagnostic is read back. -/
theorem Diagnostic.Printable.finding {source : Source} {d : Diagnostic} (h : d.Printable source) :
    ∃ (f : Finding) (path : List Char),
      d.render.toList = f.written path ∧ f.Readable ∧ '\n' ∉ path ∧
      ∃ r, f.diagnostic? source = some r ∧ d.ReadBackAs r := by
  obtain ⟨code, hcode, hcode_ne, hcode_word⟩ := h.code
  obtain ⟨span, hspan, hfile, hline, hcolumn, hmaxLine, hmaxColumn⟩ := h.place
  have hdigits : ∀ n, ∀ c ∈ Nat.toDigits 10 n, c.isDigit = true :=
    fun n c hc => Nat.isDigit_of_mem_toDigits (by decide) (by decide) hc
  have hname : d.severity.name.toList ≠ [] ∧
      ∀ c ∈ d.severity.name.toList, Text.isWord c = true := by
    rw [← List.all_eq_true]
    rcases h.severity with hs | hs <;> rw [hs] <;> decide
  refine ⟨⟨d.severity.name.toList, code.toList, ' ' :: d.message.toList,
    Nat.toDigits 10 span.start.line, Nat.toDigits 10 span.start.column⟩, span.file.toList, ?_, ?_,
    hfile, ?_⟩
  · simp only [render, hcode, hspan, Span.render, written, Nat.toString_eq_repr,
      String.toList_append, Nat.toList_repr, String.reduceToList, List.append_assoc,
      List.cons_append, List.nil_append]
    rfl
  · exact ⟨hname.1, hname.2, hcode_ne, hcode_word, by simp, by simpa using h.message_line,
      Nat.toDigits_ne_nil, hdigits _, Nat.toDigits_ne_nil, hdigits _⟩
  · have hmessage : Text.trim (' ' :: d.message.toList) = d.message.toList := by
      rw [Text.trim_cons_blank Text.isBlank_space, h.message_trim]
    have hkept : Kept source ⟨d.severity.name.toList, code.toList, ' ' :: d.message.toList,
        Nat.toDigits 10 span.start.line, Nat.toDigits 10 span.start.column⟩ := by
      refine ⟨by rw [hmessage]; exact h.message_ne, ?_, span.start.line, ?_, hline⟩
      · rw [number?_toDigits hmaxColumn]
        rfl
      · exact number?_toDigits hmaxLine
    obtain ⟨r, hr, hplaced⟩ := hkept.exists_diagnostic
    obtain ⟨line, column, span', hline', hcolumn', -, hspan', hclamped⟩ := hplaced.place
    obtain rfl := Option.some.inj ((number?_toDigits hmaxLine).symm.trans hline')
    obtain rfl := Option.some.inj ((number?_toDigits hmaxColumn).symm.trans hcolumn')
    refine ⟨r, hr, ?_, ?_, ?_, ⟨span, span', hspan, hspan', hclamped.start_line, ?_⟩,
      hplaced.source_eq⟩
    · rw [hplaced.severity_eq, severityOf_name h.severity]
    · rw [hplaced.code_eq, hcode, String.ofList_toList]
    · exact String.toList_injective (hplaced.message_eq.trans hmessage)
    · rw [hclamped.start_column]
      omega

/-- The findings that the text forms of diagnostics are, and what each is read as. -/
theorem exists_findings {source : Source} {ds : List Diagnostic}
    (h : ∀ d ∈ ds, d.Printable source) :
    ∃ fs : List (Finding × List Char),
      ds.map (fun d => d.render.toList) = fs.map (fun p => p.1.written p.2) ∧
      (∀ p ∈ fs, p.1.Readable ∧ '\n' ∉ p.2) ∧
      List.Forall₂ Diagnostic.ReadBackAs ds ((fs.map Prod.fst).filterMap (diagnostic? source)) := by
  induction ds with
  | nil => exact ⟨[], rfl, by simp, .nil⟩
  | cons d ds ih =>
    obtain ⟨fs, htexts, hfs, hread⟩ := ih fun e he => h e (List.mem_cons_of_mem _ he)
    obtain ⟨f, path, htext, hf, hpath, r, hr, hdr⟩ := (h d List.mem_cons_self).finding
    refine ⟨(f, path) :: fs, by rw [List.map_cons, List.map_cons, htext, htexts], ?_, ?_⟩
    · exact List.forall_mem_cons.mpr ⟨⟨hf, hpath⟩, hfs⟩
    · rw [List.map_cons, List.filterMap_cons_some hr]
      exact .cons hdr hread

/-- **Printing and reading back is a round trip.** -/
theorem compilerDiagnostics_render (source : Source) (ds : List Diagnostic)
    (h : ∀ d ∈ ds, d.Printable source) :
    List.Forall₂ Diagnostic.ReadBackAs ds
      (compilerDiagnostics source (String.intercalate "\n" (ds.map Diagnostic.render))) := by
  obtain ⟨fs, htexts, hfs, hread⟩ := exists_findings h
  have htext : (String.intercalate "\n" (ds.map Diagnostic.render)).toList =
      List.intercalate ['\n'] (fs.map fun p => p.1.written p.2) := by
    rw [String.toList_intercalate, List.map_map, ← htexts]
    rfl
  rw [compilerDiagnostics, htext, all_written hfs]
  exact hread

/-- Two diagnostics that quote an arrow, a code and a place, in files whose names end like a place,
are two diagnostics again. -/
theorem compilerDiagnostics_render_quoting :
    let source : Source := ⟨"a.au", "let x = 1\nprint(x)\n"⟩
    let ds : List Diagnostic :=
      [{ severity := .error, message := "see --> b.au:1:1, or note[N7]: c", code := some "E0001",
         span := some ⟨"a.au:7:8", ⟨1, 5, 4⟩, ⟨1, 6, 5⟩⟩ },
       { severity := .warning, message := "error[E2]: --> 3:4", code := some "W_2",
         span := some ⟨"b --> c.au", ⟨2, 9, 18⟩, ⟨2, 9, 18⟩⟩ }]
    (∀ d ∈ ds, d.Printable source) ∧ List.Forall₂ Diagnostic.ReadBackAs ds
      (compilerDiagnostics source (String.intercalate "\n" (ds.map Diagnostic.render))) := by
  intro source ds
  have h : ∀ d ∈ ds, d.Printable source := by
    refine List.forall_mem_cons.mpr ⟨?_, List.forall_mem_singleton.mpr ?_⟩
    · exact ⟨.inl rfl, ⟨_, rfl, by decide +kernel, List.all_eq_true.mp (by decide +kernel)⟩,
        by decide +kernel, by decide +kernel, by decide +kernel,
        ⟨_, rfl, by decide +kernel, by decide +kernel, by decide +kernel, by decide +kernel,
          by decide +kernel⟩⟩
    · exact ⟨.inr rfl, ⟨_, rfl, by decide +kernel, List.all_eq_true.mp (by decide +kernel)⟩,
        by decide +kernel, by decide +kernel, by decide +kernel,
        ⟨_, rfl, by decide +kernel, by decide +kernel, by decide +kernel, by decide +kernel,
          by decide +kernel⟩⟩
  exact ⟨h, compilerDiagnostics_render source ds h⟩

end AuroraLint
