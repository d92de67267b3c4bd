import AuroraLint.Proofs.Checked.Source
import AuroraLint.Proofs.FindingPattern

/-!
# Findings placed in words

The diagnostics made of the output of a compiler, with all lines, columns and lengths in words. A sum
that is too large for a word stays at the largest one; one more is then a fault.

* `Finding.EndFits`             : the column at which a finding ends is a word.
* `Checked.findingSpan`         : the span of a finding at a line and column.
* `Checked.compilerDiagnostics` : the diagnostics in an output.

Main statements: `Checked.compilerDiagnostics_eq_ok` — if the lines can be counted and the kept
findings end at columns that are words, they are those of the library;
`Checked.compilerDiagnostics_clamped_in_words` — so they lie on their lines.
-/

set_option autoImplicit false

namespace AuroraLint

/-- The column at which the finding ends on its line is a word. -/
def Finding.EndFits (s : Source) (f : Finding) : Prop :=
  ∀ n ∈ Finding.number? f.line, ∀ column ∈ Finding.number? f.column,
    min (max column 1 + Finding.width) (s.lineLength n + 1) < wordSize

/-- In an addressable document every finding ends at a word. -/
theorem Finding.endFits_of_addressable {s : Source} (h : s.Addressable) (f : Finding) : f.EndFits s :=
  fun n _ _ _ => Nat.lt_of_le_of_lt (Nat.min_le_right ..) (h.columns_lt n)

namespace Checked

/-! ## One finding -/

/-- As `Finding.span?`; the line is compared with the number of lines first. -/
def findingSpan (s : Source) (n column : Nat) : Checked (Option Span) :=
  if n = 0 ∨ lineCount s < n then return none
  else do
    let length ← lineLength s n
    let fromColumn ← word (min (column - 1) length + 1)
    let start ← position s n fromColumn
    let toColumn ← word (min (min (column - 1 + Finding.width) (wordSize - 1)) length + 1)
    let stop ← position s n toColumn
    return start.bind fun start => stop.map fun stop => s.span start stop

/-- As `Finding.diagnostic?`. -/
def findingDiagnostic (s : Source) (f : Finding) : Checked (Option Diagnostic) :=
  let message := Text.trim f.message
  if message.isEmpty then return none
  else
    match Finding.number? f.line, Finding.number? f.column with
    | some n, some column => do
      let span ← findingSpan s n column
      return span.map fun span =>
        { severity := Finding.severityOf f.severity
          message := String.ofList message
          span := some span
          code := some (String.ofList f.code)
          source := some "compiler" }
    | _, _ => return none

/-- As `AuroraLint.compilerDiagnostics`. -/
def compilerDiagnostics (s : Source) (output : String) : Checked (List Diagnostic) :=
  filterMap (findingDiagnostic s) (Finding.all output.toList)

section

variable {s : Source} {f : Finding} {n column : Nat}
  (hmessage : (Text.trim f.message).isEmpty = false) (hline : Finding.number? f.line = some n)
  (hcolumn : Finding.number? f.column = some column)

include hmessage hline hcolumn

/-- A finding with a message fails where its place does. -/
theorem findingDiagnostic_eq_error {fault : Fault} (h : findingSpan s n column = .error fault) :
    findingDiagnostic s f = .error fault := by
  simp only [findingDiagnostic, hmessage, hline, hcolumn, h, Bool.false_eq_true, if_false]
  rfl

/-- Without a place there is no diagnostic. -/
theorem findingDiagnostic_eq_none (h : findingSpan s n column = .ok none) :
    findingDiagnostic s f = .ok none := by
  simp only [findingDiagnostic, hmessage, hline, hcolumn, h, Bool.false_eq_true, if_false]
  rfl

end

/-- With the end of a finding in words, every column on the way there is, and no sum is cut off. -/
theorem clamp_lt {column width length size : Nat} (hlength : length < size)
    (hend : min (max column 1 + width) (length + 1) < size) :
    min (column - 1) length + 1 < size ∧ min (column - 1 + width) length + 1 < size ∧
      min (min (column - 1 + width) (size - 1)) length = min (column - 1 + width) length := by
  omega

section

variable {s : Source} (hbytes : s.byteSize < wordSize) (hlines : s.lineCount < wordSize)

include hbytes hlines

/-- No column of a finding leaves the words if the one at its end is a word. -/
theorem findingSpan_eq_ok {n column : Nat}
    (hend : 1 ≤ n → n ≤ s.lineCount →
      min (max column 1 + Finding.width) (s.lineLength n + 1) < wordSize) :
    findingSpan s n column = .ok (Finding.span? s n column) := by
  rw [findingSpan, lineCount_eq hlines]
  split
  · rename_i hout
    rw [Finding.span?_eq_none hout]
    rfl
  · rename_i hin
    have hstop := hend (by omega) (by omega)
    have hlength := Nat.lt_of_le_of_lt (s.lineLength_le_byteSize n) hbytes
    obtain ⟨hfrom, hto, hcut⟩ := clamp_lt hlength hstop
    rw [lineLength_eq_ok hlength, ok_bind, word_eq_ok hfrom, ok_bind,
      position_eq_ok hbytes n hfrom, ok_bind, hcut, word_eq_ok hto, ok_bind,
      position_eq_ok hbytes n hto, ok_bind, Finding.span?]
    cases s.position? n (min (column - 1) (s.lineLength n) + 1) with
    | none => rfl
    | some start =>
      cases s.position? n (min (column - 1 + Finding.width) (s.lineLength n) + 1) <;> rfl

/-- Only a finding that is kept is placed at all. -/
theorem findingDiagnostic_eq_ok {f : Finding} (hend : f.Kept s → f.EndFits s) :
    findingDiagnostic s f = .ok (f.diagnostic? s) := by
  unfold findingDiagnostic Finding.diagnostic?
  dsimp only
  split
  · rfl
  · rename_i hmessage
    cases hline : Finding.number? f.line with
    | none => rfl
    | some n =>
      cases hcolumn : Finding.number? f.column with
      | none => rfl
      | some column =>
        have hspan : findingSpan s n column = .ok (Finding.span? s n column) := by
          refine findingSpan_eq_ok hbytes hlines fun hfirst hlast => ?_
          refine hend ⟨fun hnil => hmessage (by rw [hnil]; rfl), ?_, n, hline, hfirst, hlast⟩
            n hline column hcolumn
          rw [hcolumn]
          rfl
        simp only [hspan, ok_bind, Option.bind_eq_bind, Option.bind_some]
        cases Finding.span? s n column <;> rfl

/-- **The diagnostics of an output are those of the library**, if all that is kept of it ends at
columns that are words. -/
theorem compilerDiagnostics_eq_ok {output : String}
    (hends : ∀ f ∈ Finding.all output.toList, f.Kept s → f.EndFits s) :
    compilerDiagnostics s output = .ok (AuroraLint.compilerDiagnostics s output) :=
  filterMap_eq_ok fun f hf => findingDiagnostic_eq_ok hbytes hlines (hends f hf)

/-- The place of a finding is in words if it ends at a word. -/
theorem fits_of_clampedTo {n column : Nat} {span : Span} (hlast : n ≤ s.lineCount)
    (hspan : span.ClampedTo s n column)
    (hend : min (max column 1 + Finding.width) (s.lineLength n + 1) < wordSize) : span.Fits := by
  have hwidth : Finding.width = 5 := rfl
  have hstart := hspan.start_true.offset_le
  have hstop := hspan.stop_true.offset_le
  have hsize : Text.byteSize s.chars = s.byteSize := rfl
  refine ⟨⟨?_, ?_, by omega⟩, ⟨?_, ?_, by omega⟩⟩
  · rw [hspan.start_line]
    omega
  · rw [hspan.start_column]
    omega
  · rw [hspan.stop_line]
    omega
  · rw [hspan.stop_column]
    omega

end

/-! ## All findings -/

open Finding in
/-- A finding is kept, and ends at a word, where what its match took does. -/
theorem kept_endFits_of_readAs {s : Source} {found : Finding × Nat} {taken : List (List Char)}
    (h : ReadAs found taken) (hend : Kept s (ofMatch taken) → EndFits s (ofMatch taken)) :
    Kept s found.1 → EndFits s found.1 := by
  unfold Kept EndFits at *
  rwa [h.trim_message_eq, h.line_eq, h.column_eq] at hend

open Finding in
/-- **Findings are clamped to the document**, if its lines can be counted in words and no match that
is kept ends at a column too large for one. Whatever the output, the diagnostics made of it are those
of its matches with a message, a line of the document and a column, one for each and in their order:
each says what its match says, at a place on one line, in words. -/
theorem compilerDiagnostics_clamped_in_words (s : Source) (output : String)
    (hbytes : s.byteSize < wordSize) (hlines : s.lineCount < wordSize)
    (hends : ∀ f ∈ (Pattern.all pattern output.toList).map ofMatch, Kept s f → EndFits s f) :
    ∃ diagnostics, compilerDiagnostics s output = .ok diagnostics ∧
      List.Forall₂ (fun f d => PlacedAs s f d ∧ ∀ span ∈ d.span, span.Fits)
        (((Pattern.all pattern output.toList).map ofMatch).filter (Kept s ·)) diagnostics := by
  have hplaced := AuroraLint.compilerDiagnostics_clamped s output
  refine ⟨_, compilerDiagnostics_eq_ok hbytes hlines fun f hf => ?_,
    List.forall₂_iff_zip.mpr ⟨hplaced.length_eq, fun {f d} hmem => ?_⟩⟩
  · have hread := allFrom_pattern 0 output.toList
    obtain ⟨i, hi, rfl⟩ := List.mem_iff_getElem.mp hf
    have hi' := Nat.lt_of_lt_of_eq hi hread.length_eq
    obtain ⟨n, hat⟩ := hread.get hi hi'
    exact kept_endFits_of_readAs hat (hends _ (List.mem_map_of_mem (List.getElem_mem hi')))
  · have hat : PlacedAs s f d := List.forall₂_zip hplaced hmem
    refine ⟨hat, fun span' hspan' => ?_⟩
    obtain ⟨n, column, span, hline, hcolumn, ⟨-, hlast⟩, hspan, hclamped⟩ := hat.place
    obtain rfl : span = span' := Option.some.inj (hspan.symm.trans hspan')
    obtain ⟨hf, hkept⟩ := List.mem_filter.mp (List.of_mem_zip hmem).1
    exact fits_of_clampedTo hbytes hlines hlast hclamped
      (hends f hf (of_decide_eq_true hkept) n hline column hcolumn)

open Finding in
/-- The largest column on a line that ends in a carriage return. -/
theorem compilerDiagnostics_clamped_in_words_return :
    let s : Source := ⟨"m.aur", "é = 1\r\n"⟩
    let output := "error[E1]: late \n --> m.aur:1:4294967295\nnote[N]: no such line\n --> m.aur:3:1"
    (s.byteSize < wordSize ∧ s.lineCount < wordSize ∧
      ∀ f ∈ (Pattern.all pattern output.toList).map ofMatch, Kept s f → EndFits s f) ∧
    ∃ diagnostics, compilerDiagnostics s output = .ok diagnostics ∧
      List.Forall₂ (fun f d => PlacedAs s f d ∧ ∀ span ∈ d.span, span.Fits)
        (((Pattern.all pattern output.toList).map ofMatch).filter (Kept s ·)) diagnostics := by
  intro s output
  have hcountable : Text.Countable s.chars := by decide +kernel
  have h := Source.addressable_of_countable hcountable
  have hends : ∀ f ∈ (Pattern.all pattern output.toList).map ofMatch, Kept s f → EndFits s f :=
    fun f _ _ => f.endFits_of_addressable h
  exact ⟨⟨h.bytes_lt, h.lines_lt, hends⟩,
    compilerDiagnostics_clamped_in_words s output h.bytes_lt h.lines_lt hends⟩

/-- Behind the last character of the longest line there is no column left. -/
theorem findingSpan_longestLine {s : Source} (h : s.chars = Text.longestLine) :
    findingSpan s 1 (wordSize - 1) = .error .overflow := by
  obtain ⟨hcount, hline⟩ := line?_longestLine h
  have hbytes := byteSize_lt_of_longestLine h
  have hlength : s.lineLength 1 = wordSize - 1 := by
    rw [Source.lineLength, hline, Option.map_some, Option.getD_some, Text.longestLine,
      List.length_replicate]
  have hword : s.lineLength 1 < wordSize := by
    rw [hlength]
    decide
  have hfrom : min (wordSize - 1 - 1) (wordSize - 1) + 1 < wordSize := by decide
  have hto : ¬ min (min (wordSize - 1 - 1 + Finding.width) (wordSize - 1)) (wordSize - 1) + 1 <
      wordSize := by decide
  rw [findingSpan, lineCount_eq (hcount ▸ one_lt_wordSize), hcount, if_neg (by decide),
    lineLength_eq_ok hword, ok_bind, hlength, word_eq_ok hfrom, ok_bind,
    position_eq_ok hbytes 1 hfrom, ok_bind, word_eq_error hto]
  rfl

/-- Where the number of lines is no word, none of them is found. -/
theorem findingSpan_mostLineFeeds {s : Source} (h : s.chars = Text.mostLineFeeds) :
    findingSpan s 1 1 = .ok none := by
  have hcount : lineCount s = 0 := by
    rw [lineCount, length_lineStarts, (line?_mostLineFeeds h).1, lowWord, Nat.mod_self]
  rw [findingSpan, hcount, if_pos (.inr Nat.one_pos)]
  rfl

/-- On the longest line a finding at the largest column outgrows a word; and where there are too many
lines for a word, a finding on the first of them is dropped. -/
theorem compilerDiagnostics_longest_texts :
    let long : Source := ⟨"m", String.ofList Text.longestLine⟩
    let feeds : Source := ⟨"m", String.ofList Text.mostLineFeeds⟩
    (long.byteSize < wordSize ∧
      compilerDiagnostics long "error[E]: x\n-->m:1:4294967295" = .error .overflow) ∧
    (feeds.byteSize < wordSize ∧ feeds.line? 1 = some [] ∧
      compilerDiagnostics feeds "error[E]: x\n-->m:1:1" = .ok []) := by
  intro long feeds
  have hlong : long.chars = Text.longestLine := String.toList_ofList
  have hfeeds : feeds.chars = Text.mostLineFeeds := String.toList_ofList
  have hmessage : (Text.trim " x".toList).isEmpty = false := by decide +kernel
  have hone : Finding.number? ['1'] = some 1 := by decide +kernel
  have hlargest : Finding.number? "4294967295".toList = some (wordSize - 1) := by decide +kernel
  have hfar : Finding.all "error[E]: x\n-->m:1:4294967295".toList =
      [⟨"error".toList, ['E'], " x".toList, ['1'], "4294967295".toList⟩] := by decide +kernel
  have hnear : Finding.all "error[E]: x\n-->m:1:1".toList =
      [⟨"error".toList, ['E'], " x".toList, ['1'], ['1']⟩] := by decide +kernel
  refine ⟨⟨byteSize_lt_of_longestLine hlong, ?_⟩, byteSize_lt_of_mostLineFeeds hfeeds,
    (line?_mostLineFeeds hfeeds).2, ?_⟩
  · have hoverflow := findingSpan_longestLine hlong
    rw [compilerDiagnostics, hfar, filterMap,
      findingDiagnostic_eq_error hmessage hone hlargest hoverflow]
    rfl
  · have hnone := findingSpan_mostLineFeeds hfeeds
    rw [compilerDiagnostics, hnear, filterMap, findingDiagnostic_eq_none hmessage hone hone hnone]
    rfl

end Checked

end AuroraLint
