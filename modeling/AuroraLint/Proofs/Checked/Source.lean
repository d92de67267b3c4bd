import AuroraLint.Proofs.Checked.Basic
import AuroraLint.Proofs.LineSlices
import AuroraLint.Proofs.Stream

/-!
# Documents addressed in words

The lookups in a source text, with every byte offset, index and difference checked, and with
positions, numbers of lines and lengths of lines in words. A number that is only noted, not counted
up, loses what a word cannot hold.

* `Checked.lineStarts`  : the byte offsets at which lines start; lines are cut out between two.
* `Checked.position`    : the position of a line and column.
* `Checked.lineEnd`     : the position of the largest column of a line.
* `Checked.inferExtent` : the text of an expression is cut out at the ends of its span.

Main statements: `line_eq_ok`, `position_eq_ok`, `lineEnd_eq_ok` and `inferExtent_eq_ok` — all offsets
stand between characters, so in an addressable document the answers are those of the library;
`Checked.lines_and_columns_in_words` — lines and columns address all of it.
-/

set_option autoImplicit false

namespace AuroraLint.Checked

/-! ## Lines -/

/-- The byte offsets behind the line feeds of a text that starts at `offset`. -/
def lineStartsFrom (offset : Nat) : List Char → List Nat
  | [] => []
  | c :: cs =>
    if c = '\n' then (offset + 1) :: lineStartsFrom (offset + 1) cs
    else lineStartsFrom (offset + c.utf8Size) cs

/-- The byte offsets at which the lines of a document start. -/
def lineStarts (s : Source) : List Nat :=
  0 :: lineStartsFrom 0 s.chars

/-- The byte offset at which line `n`, counted from 0, ends: at the line feed before the next line,
or at the end of the document. -/
def lineStop (s : Source) (n : Nat) : Checked Nat :=
  match (lineStarts s)[n + 1]? with
  | some next => sub next 1
  | none => pure s.byteSize

/-- As `Source.line?`, with the line cut out between its start and its end. -/
def line (s : Source) : Nat → Checked (Option (List Char))
  | 0 => pure none
  | n + 1 =>
    match (lineStarts s)[n]? with
    | none => pure none
    | some start => do
      let stop ← lineStop s n
      let text ← cut start stop s.chars
      return some (Text.stripReturn text)

theorem getElem?_lineStartsFrom (offset n : Nat) (cs : List Char) :
    (offset :: lineStartsFrom offset cs)[n]? =
      if n < (Text.rawLines cs).length then
        some (offset + Source.bytesOfLines n (Text.rawLines cs))
      else none := by
  induction cs generalizing offset n with
  | nil => cases n <;> simp [lineStartsFrom, Text.rawLines, Source.bytesOfLines]
  | cons c cs ih =>
    cases n with
    | zero => simp [Source.bytesOfLines, List.length_pos_iff]
    | succ n =>
      by_cases hc : c = '\n'
      · simp [lineStartsFrom, Text.rawLines, hc, ih, Source.bytesOfLines, Nat.add_assoc]
      · have hnext := ih (offset + c.utf8Size) (n + 1)
        cases hr : Text.rawLines cs with
        | nil => exact absurd hr (Text.rawLines_ne_nil cs)
        | cons first others =>
          rw [hr] at hnext
          simp only [List.getElem?_cons_succ, lineStartsFrom, hc, if_false, Text.rawLines, hr,
            List.length_cons] at hnext ⊢
          rw [hnext]
          simp [Source.bytesOfLines, Nat.add_assoc]

theorem bytesOfLines_succ {lines : List (List Char)} {n : Nat} {line : List Char}
    (h : lines[n]? = some line) :
    Source.bytesOfLines (n + 1) lines = Source.bytesOfLines n lines + Text.byteSize line + 1 := by
  induction lines generalizing n with
  | nil => simp at h
  | cons first others ih =>
    cases n with
    | zero =>
      obtain rfl : first = line := by simpa using h
      simp [Source.bytesOfLines]
    | succ n =>
      have := ih (by simpa using h)
      simp only [Source.bytesOfLines] at this ⊢
      omega

/-- A line is what stands between its start and the line feed before the next one. -/
theorem cut_line {s : Source} {n : Nat} {line : List Char}
    (h : (Text.rawLines s.chars)[n]? = some line) :
    ∃ start stop, (lineStarts s)[n]? = some start ∧ lineStop s n = .ok stop ∧
      cut start stop s.chars = .ok line := by
  have hlt : n < (Text.rawLines s.chars).length := (List.getElem?_eq_some_iff.mp h).1
  obtain ⟨before, hat, hcount, hbytes⟩ := Text.lineAt_of_rawLines h
  obtain ⟨after, htext, hafter⟩ := hat.text_eq
  refine ⟨Text.byteSize before, Text.byteSize before + Text.byteSize line, ?_, ?_, ?_⟩
  · rw [lineStarts, getElem?_lineStartsFrom, if_pos hlt, hbytes, Nat.zero_add]
  · rw [lineStop, lineStarts, getElem?_lineStartsFrom]
    by_cases hnext : n + 1 < (Text.rawLines s.chars).length
    · simp only [if_pos hnext, Nat.zero_add]
      rw [bytesOfLines_succ h, hbytes, sub_eq_ok (by omega), Nat.add_sub_cancel]
    · -- the last line has nothing behind it
      have hnil : after = [] := by
        rcases hafter with hnil | hhead
        · exact hnil
        · have hlen := Text.length_rawLines s.chars
          have hpos : 0 < after.count '\n' :=
            List.count_pos_iff.mpr (List.mem_of_mem_head? hhead)
          rw [htext, List.count_append, List.count_append, hcount, ← htext] at hlen
          omega
      simp only [if_neg hnext, pure_eq_ok, Source.byteSize]
      rw [htext, hnil]
      simp
  · refine cut_eq_ok ?_
    rw [htext]
    exact Text.slice?_byteSize before line after

theorem line_eq_ok (s : Source) (n : Nat) : line s n = .ok (s.line? n) := by
  cases n with
  | zero => rfl
  | succ n =>
    cases h : s.rawLines[n]? with
    | none =>
      have hstart : (lineStarts s)[n]? = none := by
        rw [lineStarts, getElem?_lineStartsFrom]
        exact if_neg (Nat.not_lt.mpr (List.getElem?_eq_none_iff.mp h))
      simp only [line, hstart, Source.line?, Source.rawLine?, h]
      rfl
    | some text =>
      obtain ⟨start, stop, hstart, hstop, hcut⟩ := cut_line h
      simp only [line, hstart, Source.line?, Source.rawLine?, h]
      rw [hstop, ok_bind, hcut, ok_bind]
      rfl

/-- As `Source.lineCount`. -/
def lineCount (s : Source) : Nat :=
  lowWord (lineStarts s).length

/-- As `Source.lineLength`. -/
def lineLength (s : Source) (n : Nat) : Checked Nat := do
  let text ← line s n
  return (text.map fun text => lowWord text.length).getD 0

theorem length_lineStartsFrom (offset : Nat) (cs : List Char) :
    (lineStartsFrom offset cs).length = cs.count '\n' := by
  induction cs generalizing offset with
  | nil => rfl
  | cons c cs ih =>
    by_cases hc : c = '\n'
    · simp [lineStartsFrom, hc, ih]
    · simp [lineStartsFrom, hc, ih]

theorem length_lineStarts (s : Source) : (lineStarts s).length = s.lineCount := by
  rw [lineStarts, List.length_cons, length_lineStartsFrom]
  exact (Text.length_rawLines s.chars).symm

theorem lineCount_eq {s : Source} (h : s.lineCount < wordSize) : lineCount s = s.lineCount := by
  rw [lineCount, length_lineStarts, lowWord_eq h]

theorem lineLength_eq_ok {s : Source} {n : Nat} (h : s.lineLength n < wordSize) :
    lineLength s n = .ok (s.lineLength n) := by
  rw [lineLength, line_eq_ok, ok_bind]
  unfold Source.lineLength at h ⊢
  cases hline : s.line? n with
  | none => rfl
  | some text =>
    rw [hline] at h
    exact congrArg Except.ok (lowWord_eq h)

/-! ## Positions on a line -/

/-- As `Source.position?`, with the start of the line looked up. -/
def position (s : Source) (n column : Nat) : Checked (Option Position) := do
  let text ← line s n
  match text with
  | none => return none
  | some text => do
    let index ← sub n 1
    let start ← item (lineStarts s) index
    let wanted ← sub (max column 1) 1
    let column ← word (lowWord (text.take wanted).length + 1)
    return some ⟨n, column, lowWord (start + Text.byteSize (text.take wanted))⟩

/-- As `Source.lineEnd`: the place of the largest column that is a word. -/
def lineEnd (s : Source) (n : Nat) : Checked Position := do
  let p ← position s n (wordSize - 1)
  return p.getD ⟨n, 1, lowWord s.byteSize⟩

/-- As `Source.toLineEnd`. -/
def toLineEnd (s : Source) (start : Position) : Checked Span := do
  let stop ← lineEnd s start.line
  return s.span start stop

/-- As `Source.lineSpan`. -/
def lineSpan (s : Source) (n : Nat) : Checked Span := do
  let start ← position s n 1
  toLineEnd s (start.getD ⟨n, 1, lowWord s.byteSize⟩)

section

variable {s : Source} {n : Nat} (hbytes : s.byteSize < wordSize)

include hbytes

/-- **No place of a line is out of reach of the words**: its column does not exceed the one that is
asked for, and its offset is within the document. -/
theorem position_eq_ok (n : Nat) {column : Nat} (hcolumn : column < wordSize) :
    position s n column = .ok (s.position? n column) := by
  rw [position, line_eq_ok, ok_bind]
  cases hline : s.line? n with
  | none =>
    rw [Source.position?, hline]
    rfl
  | some text =>
    have hplace : s.position? n column = some ⟨n, (text.take (column - 1)).length + 1,
        s.lineStart n + Text.byteSize (text.take (column - 1))⟩ := by
      rw [Source.position?, hline]
      rfl
    obtain ⟨p, hp, -, -, htrue⟩ := Source.exists_position? hline column
    obtain rfl := Option.some.inj (hplace.symm.trans hp)
    have hlength : (text.take (column - 1)).length + 1 < wordSize := by
      have hone := one_lt_wordSize
      rw [List.length_take]
      omega
    have hoffset := Nat.lt_of_le_of_lt htrue.offset_le hbytes
    have hfirst : 1 ≤ n := by
      cases n with
      | zero => cases hline
      | succ n => exact Nat.le_add_left ..
    have hstart : item (lineStarts s) (n - 1) = .ok (s.lineStart n) := by
      have hlast : n - 1 < (Text.rawLines s.chars).length := by
        have hexists : ¬ (n = 0 ∨ s.lineCount < n) := fun hn => by
          rw [(s.line?_eq_none_iff n).mpr hn] at hline
          cases hline
        have hcount : s.lineCount = (Text.rawLines s.chars).length := rfl
        omega
      refine item_eq_ok ?_
      rw [lineStarts, getElem?_lineStartsFrom, if_pos hlast, Nat.zero_add]
      rfl
    have hwanted : max column 1 - 1 = column - 1 := by omega
    rw [hplace]
    simp only [sub_eq_ok hfirst, sub_eq_ok (show 1 ≤ max column 1 by omega), ok_bind, hstart, hwanted]
    rw [lowWord_eq (by omega), word_eq_ok hlength, ok_bind, lowWord_eq hoffset]
    rfl

theorem lineEnd_eq_ok (hlength : s.lineLength n + 1 < wordSize) :
    lineEnd s n = .ok (s.lineEnd n) := by
  have hlargest : wordSize - 1 < wordSize := by decide
  rw [lineEnd, position_eq_ok hbytes n hlargest, ok_bind]
  cases hline : s.line? n with
  | none =>
    rw [Source.lineEnd, Source.position?, Source.position?, hline, lowWord_eq hbytes]
    rfl
  | some text =>
    have htext : s.lineLength n = text.length := by rw [Source.lineLength, hline]; rfl
    rw [Source.lineEnd_eq_position? hline (by omega)]
    rfl

theorem toLineEnd_eq_ok {start : Position} (hlength : s.lineLength start.line + 1 < wordSize) :
    toLineEnd s start = .ok (s.toLineEnd start) := by
  rw [toLineEnd, lineEnd_eq_ok hbytes hlength, ok_bind]
  rfl

/-- The span of a line reaches from its first column to the largest that is a word. -/
theorem exists_lineSpan {text : List Char} (h : s.line? n = some text) :
    ∃ span, lineSpan s n = .ok span ∧ s.position? n 1 = some span.start ∧
      s.position? n (wordSize - 1) = some span.stop := by
  have hlargest : wordSize - 1 < wordSize := by decide
  obtain ⟨start, hstart, hline, -, -⟩ := Source.exists_position? h 1
  obtain ⟨stop, hstop, -, -, -⟩ := Source.exists_position? h (wordSize - 1)
  refine ⟨s.span start stop, ?_, hstart, hstop⟩
  rw [lineSpan, position_eq_ok hbytes n one_lt_wordSize, ok_bind, hstart, Option.getD_some,
    toLineEnd, lineEnd, hline, position_eq_ok hbytes n hlargest, ok_bind, hstop]
  rfl

theorem lineSpan_eq_ok (hlength : s.lineLength n + 1 < wordSize) :
    lineSpan s n = .ok (s.lineSpan n) := by
  have hstart : ((s.position? n 1).getD ⟨n, 1, s.byteSize⟩).line = n := by
    rw [Source.position?]
    cases s.line? n <;> rfl
  rw [lineSpan, position_eq_ok hbytes n one_lt_wordSize, ok_bind, lowWord_eq hbytes]
  exact toLineEnd_eq_ok hbytes (by rwa [hstart])

end

/-! ## Slices -/

/-- As `Source.slice`; a cut inside a character fails. -/
def slice (s : Source) (start stop : Position) : Checked (List Char) := do
  let lo := min start.offset s.byteSize
  let hi ← clamp stop.offset lo s.byteSize
  cut lo hi s.chars

theorem slice_eq_ok_of_slice? {s : Source} {start stop : Position} {mid : List Char}
    (h : s.slice? start stop = some mid) : slice s start stop = .ok mid := by
  rw [slice, clamp_eq_ok (Nat.min_le_right ..), ok_bind]
  exact cut_eq_ok h

/-- The span of a line holds all of it that the columns reach. -/
theorem slice_lineSpan {s : Source} (hbytes : s.byteSize < wordSize) {n : Nat} {text : List Char}
    (h : s.line? n = some text) :
    ∃ span, lineSpan s n = .ok span ∧
      slice s span.start span.stop = .ok (text.take (wordSize - 2)) := by
  obtain ⟨span, hspan, hstart, hstop⟩ := exists_lineSpan hbytes h
  obtain ⟨start, stop, hstart', hstop', hslice⟩ :=
    Source.slice?_columns h (show 1 ≤ wordSize - 1 by decide)
  obtain rfl := Option.some.inj (hstart.symm.trans hstart')
  obtain rfl := Option.some.inj (hstop.symm.trans hstop')
  exact ⟨span, hspan, slice_eq_ok_of_slice? hslice⟩

/-- **Lines and columns address all of a text**, if its bytes and its lines can be counted in words.
The lines, each with the carriage return it lost, are the text between its line feeds. Between two
columns of a line, cut off at its end, stand the characters that counting gives; the span of a line
holds the whole line, if behind its last character there is a column left. No other number addresses
anything. -/
theorem lines_and_columns_in_words (s : Source) (hbytes : s.byteSize < wordSize)
    (hlines : s.lineCount < wordSize) :
    (∀ n, line s n = .ok (s.line? n)) ∧
    List.intercalate ['\n'] ((List.range (lineCount s)).map fun i =>
      (s.line? (i + 1)).getD [] ++ s.lostReturn (i + 1)) = s.chars ∧
    (∀ n, 1 ≤ n → n ≤ lineCount s → ∃ text, line s n = .ok (some text) ∧ '\n' ∉ text ∧
      (∀ c c', c ≤ c' → c' < wordSize → ∃ start stop,
        position s n c = .ok (some start) ∧ position s n c' = .ok (some stop) ∧
        slice s start stop = .ok ((text.take (min (max c' 1 - 1) text.length)).drop
          (min (max c 1 - 1) text.length))) ∧
      (text.length + 1 < wordSize → ∃ span, lineSpan s n = .ok span ∧
        slice s span.start span.stop = .ok text)) ∧
    ∀ n, n = 0 ∨ lineCount s < n → line s n = .ok none ∧
      ∀ c, c < wordSize → position s n c = .ok none := by
  obtain ⟨hjoined, hwithin, hout⟩ := s.lines_and_columns
  rw [lineCount_eq hlines]
  refine ⟨line_eq_ok s, hjoined, fun n hfirst hlast => ?_, fun n hn => ?_⟩
  · obtain ⟨text, htext, hfeed, hcolumns, -⟩ := hwithin n hfirst hlast
    refine ⟨text, by rw [line_eq_ok, htext], hfeed, fun c c' hle hword => ?_, fun hlength => ?_⟩
    · obtain ⟨start, stop, hstart, hstop, hslice⟩ := hcolumns c c' hle
      refine ⟨start, stop, ?_, ?_, slice_eq_ok_of_slice? hslice⟩
      · rw [position_eq_ok hbytes n (Nat.lt_of_le_of_lt hle hword), hstart]
      · rw [position_eq_ok hbytes n hword, hstop]
    · obtain ⟨span, hspan, hslice⟩ := slice_lineSpan hbytes htext
      rw [List.take_of_length_le (by omega)] at hslice
      exact ⟨span, hspan, hslice⟩
  · obtain ⟨hnone, hplaces⟩ := hout n hn
    exact ⟨by rw [line_eq_ok, hnone], fun c hc => by rw [position_eq_ok hbytes n hc, hplaces]⟩

/-- Of a line of characters of more than one byte that ends in a carriage return: the columns from
2 to the largest, and the whole line. -/
theorem lines_and_columns_in_words_return :
    let s : Source := ⟨"a.au", "é\r\nλx = 1\r\n"⟩
    (s.byteSize < wordSize ∧ s.lineCount < wordSize ∧ 1 ≤ 2 ∧ 2 ≤ lineCount s ∧ 2 ≤ 4294967295 ∧
      4294967295 < wordSize ∧ ['λ', 'x', ' ', '=', ' ', '1'].length + 1 < wordSize) ∧
    line s 2 = .ok (some ['λ', 'x', ' ', '=', ' ', '1']) ∧
      (∃ start stop, position s 2 2 = .ok (some start) ∧ position s 2 4294967295 = .ok (some stop) ∧
        slice s start stop = .ok ['x', ' ', '=', ' ', '1']) ∧
      ∃ span, lineSpan s 2 = .ok span ∧
        slice s span.start span.stop = .ok ['λ', 'x', ' ', '=', ' ', '1'] := by
  intro s
  have hbytes : s.byteSize < wordSize := by decide +kernel
  have hlines : s.lineCount < wordSize := by decide +kernel
  have hcount : 2 ≤ lineCount s := by decide +kernel
  have hline : line s 2 = .ok (some ['λ', 'x', ' ', '=', ' ', '1']) := by
    rw [line_eq_ok]
    exact congrArg Except.ok (by decide +kernel)
  obtain ⟨text, htext, -, hcolumns, hwhole⟩ :=
    (lines_and_columns_in_words s hbytes hlines).2.2.1 2 (by decide) hcount
  obtain rfl : text = ['λ', 'x', ' ', '=', ' ', '1'] :=
    Option.some.inj (Except.ok.inj (htext.symm.trans hline))
  exact ⟨⟨hbytes, hlines, by decide, hcount, by decide, by decide, by decide⟩, hline,
    hcolumns 2 4294967295 (by decide) (by decide), hwhole (by decide)⟩

theorem byteSize_lt_of_longestLine {s : Source} (h : s.chars = Text.longestLine) :
    s.byteSize < wordSize := by
  rw [Source.byteSize, h]
  exact Text.byteSize_longestLine_lt

theorem byteSize_lt_of_mostLineFeeds {s : Source} (h : s.chars = Text.mostLineFeeds) :
    s.byteSize < wordSize := by
  rw [Source.byteSize, h]
  exact Text.byteSize_mostLineFeeds_lt

/-- The longest line is the only one of its text. -/
theorem line?_longestLine {s : Source} (h : s.chars = Text.longestLine) :
    s.lineCount = 1 ∧ s.line? 1 = some Text.longestLine := by
  have hlines : s.rawLines = [Text.longestLine] := by
    rw [Source.rawLines, h, Text.rawLines_of_line Text.newline_not_mem_longestLine]
  have hlast : Text.longestLine.getLast? = some 'a' := by
    rw [Text.longestLine, List.getLast?_replicate]
    rfl
  refine ⟨by rw [Source.lineCount, hlines]; rfl, ?_⟩
  rw [Source.line?, Source.rawLine?, hlines, List.getElem?_cons_zero, Option.map_some,
    Text.stripReturn, hlast]
  rfl

/-- A text of line feeds has one line more, each of them empty. -/
theorem line?_mostLineFeeds {s : Source} (h : s.chars = Text.mostLineFeeds) :
    s.lineCount = wordSize ∧ s.line? 1 = some [] := by
  refine ⟨?_, ?_⟩
  · rw [Source.lineCount, Source.rawLines, h, Text.length_rawLines, Text.mostLineFeeds,
      List.count_replicate_self]
    rfl
  · have hfirst : Text.mostLineFeeds = '\n' :: List.replicate (wordSize - 2) '\n' := rfl
    rw [Source.line?, Source.rawLine?, Source.rawLines, h, hfirst, Text.rawLines]
    rfl

/-- Of as many line feeds as can be counted the number of lines is 0, and the span of the longest
line leaves its last character out. -/
theorem lines_and_columns_longest_texts :
    let feeds : Source := ⟨"m", String.ofList Text.mostLineFeeds⟩
    let long : Source := ⟨"m", String.ofList Text.longestLine⟩
    (feeds.byteSize < wordSize ∧ lineCount feeds = 0 ∧ line feeds 1 = .ok (some [])) ∧
    (long.byteSize < wordSize ∧ lineCount long = 1 ∧ line long 1 = .ok (some Text.longestLine) ∧
      ∃ span, lineSpan long 1 = .ok span ∧
        slice long span.start span.stop = .ok (List.replicate (wordSize - 2) 'a')) := by
  intro feeds long
  have hfeeds : feeds.chars = Text.mostLineFeeds := String.toList_ofList
  have hlong : long.chars = Text.longestLine := String.toList_ofList
  obtain ⟨hfeedsCount, hfeedsLine⟩ := line?_mostLineFeeds hfeeds
  obtain ⟨hlongCount, hlongLine⟩ := line?_longestLine hlong
  have hlongBytes := byteSize_lt_of_longestLine hlong
  obtain ⟨span, hspan, hslice⟩ := slice_lineSpan hlongBytes hlongLine
  rw [Text.longestLine, List.take_replicate] at hslice
  refine ⟨⟨byteSize_lt_of_mostLineFeeds hfeeds, ?_, ?_⟩, hlongBytes, ?_, ?_, span, hspan, hslice⟩
  · rw [lineCount, length_lineStarts, hfeedsCount, lowWord, Nat.mod_self]
  · rw [line_eq_ok, hfeedsLine]
  · rw [lineCount_eq (hlongCount ▸ one_lt_wordSize), hlongCount]
  · rw [line_eq_ok, hlongLine]

/-! ## Expressions -/

/-- As `Extent.span`, with both tokens looked up. -/
def extentSpan (ts : List Token) (e : Extent) : Checked Span := do
  let firstToken ← item ts e.start
  let last ← sub e.stop 1
  let lastToken ← item ts last
  return firstToken.span.merge lastToken.span

/-- As `Document.inferExtent`. -/
def inferExtent (doc : Document) (e : Extent) : Checked (Ty × Span) := do
  let span ← extentSpan doc.tokens e
  let text ← slice doc.source span.start span.stop
  return (Ty.infer text, span)

/-- The ends of a real span stand between characters. -/
theorem slice_eq_ok {s : Source} {span : Span} (h : span.Real s.name s.chars) :
    slice s span.start span.stop = .ok (s.slice span.start span.stop) := by
  obtain ⟨mid, hslice⟩ := h.exists_slice?
  rw [slice_eq_ok_of_slice? hslice, Source.slice, hslice]
  rfl

theorem extentSpan_eq_ok {ts : List Token} {e : Extent} (hlt : e.start < e.stop)
    (hstop : e.stop ≤ ts.length) : extentSpan ts e = .ok (e.span ts) := by
  rw [extentSpan, token_eq_ok (by omega), ok_bind, sub_eq_ok (by omega), ok_bind,
    token_eq_ok (by omega), ok_bind]
  rfl

theorem inferExtent_eq_ok {doc : Document} (h : doc.Streamed) {e : Extent} (hlt : e.start < e.stop)
    (hstop : e.stop < doc.tokens.length) : inferExtent doc e = .ok (doc.inferExtent e) := by
  rw [inferExtent, extentSpan_eq_ok hlt (Nat.le_of_lt hstop), ok_bind,
    slice_eq_ok (h.extent_real hlt hstop), ok_bind]
  rfl

end AuroraLint.Checked
