import AuroraLint.Proofs.Line

/-!
# Counters of 32 bits

Positions count without a bound. A counter that is kept in a word of 32 bits has one, and this
module tells for which texts it is never reached.

* `wordSize`           : the number of values of a word.
* `Position.Fits`      : line, column and offset are words.
* `Text.Countable`     : a text with few enough bytes, lines and characters on each line.
* `Text.Longest`       : a line, or a run of line feeds, that takes all bytes that can be counted.
* `Source.Addressable` : the same of a document, whose lines have lost their carriage returns.

Main statements: `Text.countable_iff_fits` — in a countable text, and in no other, all positions fit;
`Text.countable_of_byteSize_lt` — a text is countable if one more byte could still be counted;
`Text.not_countable_iff` — of the texts whose bytes can be counted, only the longest are not.
-/

set_option autoImplicit false

namespace AuroraLint

/-- The number of values of a word of 32 bits. -/
def wordSize : Nat := 4294967296

theorem one_lt_wordSize : 1 < wordSize := by decide

/-! ## Positions -/

namespace Position

/-- Line, column and offset are words. -/
structure Fits (p : Position) : Prop where
  line_lt : p.line < wordSize
  column_lt : p.column < wordSize
  offset_lt : p.offset < wordSize

/-- Each character moves line and column together by one at most, and the offset by one at least. -/
theorem line_add_column_after (p : Position) (cs : List Char) (h : 1 ≤ p.column) :
    (p.after cs).line + (p.after cs).column + p.offset ≤
      (p.after cs).offset + p.line + p.column := by
  induction cs generalizing p with
  | nil =>
    rw [after_nil]
    omega
  | cons c cs ih =>
    have hsize := c.utf8Size_pos
    rw [after_cons]
    by_cases hc : c = '\n'
    · have hadvance : p.advance c = ⟨p.line + 1, 1, p.offset + c.utf8Size⟩ := if_pos hc
      have hnext := ih (p.advance c) (by simp [hadvance])
      rw [hadvance] at hnext ⊢
      simp only at hnext
      omega
    · have hadvance : p.advance c = ⟨p.line, p.column + 1, p.offset + c.utf8Size⟩ := if_neg hc
      have hnext := ih (p.advance c) (by simp [hadvance])
      rw [hadvance] at hnext ⊢
      simp only at hnext
      omega

theorem line_ofFront_le (front : List Char) : (ofFront front).line ≤ front.length + 1 := by
  rw [Nat.add_comm front.length]
  exact Nat.add_le_add_left List.count_le_length 1

theorem column_ofFront_le (front : List Char) : (ofFront front).column ≤ front.length + 1 := by
  have hle := (List.takeWhile_prefix (l := front.reverse) (· != '\n')).length_le
  rw [List.length_reverse] at hle
  rw [Nat.add_comm front.length]
  exact Nat.add_le_add_left hle 1

theorem line_add_column_ofFront (front : List Char) :
    (ofFront front).line + (ofFront front).column ≤ (ofFront front).offset + 2 :=
  after_start front ▸ line_add_column_after start front (Nat.le_refl 1)

end Position

/-- Both ends of the span fit. -/
def Span.Fits (s : Span) : Prop :=
  s.start.Fits ∧ s.stop.Fits

/-! ## Texts -/

namespace Text

/-- Bytes, lines and the columns of each line can be counted in words. -/
structure Countable (text : List Char) : Prop where
  bytes_lt : byteSize text < wordSize
  lines_lt : (rawLines text).length < wordSize
  columns_lt : ∀ line ∈ rawLines text, line.length + 1 < wordSize

instance (text : List Char) : Decidable (Countable text) :=
  decidable_of_iff (byteSize text < wordSize ∧ (rawLines text).length < wordSize ∧
      ∀ line ∈ rawLines text, line.length + 1 < wordSize)
    ⟨fun h => ⟨h.1, h.2.1, h.2.2⟩, fun h => ⟨h.bytes_lt, h.lines_lt, h.columns_lt⟩⟩

variable {text front : List Char} {c : Char}

/-- **In a countable text, and in no other, all positions fit.** -/
theorem countable_iff_fits :
    Countable text ↔ ∀ front, front <+: text → (Position.ofFront front).Fits := by
  constructor
  · intro h front hfront
    obtain ⟨before, x, line, hline, hat, hx, hprefix, -, -⟩ := exists_lineAt_front hfront
    have hcount := hfront.sublist.count_le '\n'
    have hlines := h.lines_lt
    rw [length_rawLines] at hlines
    have hcolumns := h.columns_lt line (List.mem_of_getElem? hline)
    have hlength := hprefix.length_le
    constructor
    case line_lt =>
      show 1 + front.count '\n' < wordSize
      omega
    case column_lt =>
      rw [hx, Position.ofFront_lineAt hat hprefix]
      show x.length + 1 < wordSize
      omega
    case offset_lt => exact Nat.lt_of_le_of_lt (Text.byteSize_le_of_prefix hfront) h.bytes_lt
  · intro h
    have hall := h text List.prefix_rfl
    constructor
    case bytes_lt => exact hall.offset_lt
    case lines_lt =>
      rw [length_rawLines, Nat.add_comm]
      exact hall.line_lt
    case columns_lt =>
      intro line hline
      obtain ⟨n, hn⟩ := List.mem_iff_getElem?.mp hline
      obtain ⟨before, hat, -, -⟩ := lineAt_of_rawLines hn
      obtain ⟨after, htext, -⟩ := hat.text_eq
      have hplace := h (before ++ line) ⟨after, by rw [htext, List.append_assoc]⟩
      rw [Position.ofFront_lineAt hat List.prefix_rfl] at hplace
      exact hplace.column_lt

theorem Countable.fits (h : Countable text) (hfront : front <+: text) :
    (Position.ofFront front).Fits :=
  countable_iff_fits.mp h front hfront

theorem Countable.trueIn_fits (h : Countable text) {p : Position} (hp : p.TrueIn text) : p.Fits := by
  obtain ⟨front, hfront, rfl⟩ := hp
  exact h.fits hfront

theorem Countable.of_prefix (h : Countable text) (hfront : front <+: text) : Countable front :=
  countable_iff_fits.mpr fun _ hmore => h.fits (hmore.trans hfront)

theorem countable_nil : Countable [] := by decide

/-- One more character asks for one more position. -/
theorem countable_concat_iff :
    Countable (front ++ [c]) ↔ Countable front ∧ (Position.ofFront (front ++ [c])).Fits := by
  refine ⟨fun h => ⟨h.of_prefix (List.prefix_append ..), h.fits List.prefix_rfl⟩, fun h => ?_⟩
  refine countable_iff_fits.mpr fun more hmore => ?_
  rcases List.prefix_concat_iff.mp hmore with rfl | hmore
  · exact h.2
  · exact h.1.fits hmore

/-- A text is countable if one more byte could still be counted. -/
theorem countable_of_byteSize_lt (h : byteSize text + 1 < wordSize) : Countable text := by
  refine countable_iff_fits.mpr fun front hfront => ?_
  have hsum := Position.line_add_column_ofFront front
  have hoffset : (Position.ofFront front).offset ≤ byteSize text := byteSize_le_of_prefix hfront
  have hline : 1 ≤ (Position.ofFront front).line := Nat.le_add_right ..
  have hcolumn : 1 ≤ (Position.ofFront front).column := Nat.le_add_right ..
  constructor <;> omega

/-! ### The longest texts -/

/-- A text of as many characters as there are bytes that can be counted, all of them on one line or
all of them line feeds. -/
structure Longest (text : List Char) : Prop where
  length_succ : text.length + 1 = wordSize
  line_or_feeds : '\n' ∉ text ∨ ∀ c ∈ text, c = '\n'

/-- A line that takes all the bytes that can be counted. -/
def longestLine : List Char := List.replicate (wordSize - 1) 'a'

/-- As many line feeds as there are bytes that can be counted. -/
def mostLineFeeds : List Char := List.replicate (wordSize - 1) '\n'

theorem byteSize_replicate (n : Nat) (c : Char) :
    byteSize (List.replicate n c) = n * c.utf8Size := by
  induction n with
  | zero => simp
  | succ n ih =>
    rw [List.replicate_succ, byteSize_cons, ih, Nat.succ_mul, Nat.add_comm]

/-- The characters of a text without line feeds are its columns. -/
theorem ofFront_of_line (hline : '\n' ∉ text) :
    Position.ofFront text = ⟨1, text.length + 1, byteSize text⟩ := by
  have hat : LineAt text [] text := ⟨⟨[], by simp, .inl rfl⟩, hline, .inl rfl⟩
  simpa using Position.ofFront_lineAt hat List.prefix_rfl

theorem newline_not_mem_longestLine : '\n' ∉ longestLine := by
  simp [longestLine, List.mem_replicate]

theorem ofFront_longestLine :
    Position.ofFront longestLine = ⟨1, wordSize, wordSize - 1⟩ := by
  have hbytes : byteSize longestLine = wordSize - 1 := by
    rw [longestLine, byteSize_replicate]
    exact Nat.mul_one _
  rw [ofFront_of_line newline_not_mem_longestLine, hbytes, longestLine, List.length_replicate]
  rfl

theorem ofFront_mostLineFeeds :
    Position.ofFront mostLineFeeds = ⟨wordSize, 1, wordSize - 1⟩ := by
  have hline : 1 + mostLineFeeds.count '\n' = wordSize := by
    rw [mostLineFeeds, List.count_replicate_self]
    rfl
  have hlast : mostLineFeeds.reverse.takeWhile (· != '\n') = [] := by
    rw [mostLineFeeds, List.reverse_replicate, List.takeWhile_replicate]
    rfl
  have hbytes : byteSize mostLineFeeds = wordSize - 1 := by
    rw [mostLineFeeds, byteSize_replicate]
    exact Nat.mul_one _
  rw [Position.ofFront, hline, hlast, hbytes]
  rfl

/-- A line that takes all bytes that can be counted has one column too many. -/
theorem not_countable_of_line (hline : '\n' ∉ text) (hlength : wordSize ≤ text.length + 1) :
    ¬ Countable text := by
  intro h
  have hcolumn := (h.fits List.prefix_rfl).column_lt
  rw [ofFront_of_line hline] at hcolumn
  exact Nat.not_lt_of_le hlength hcolumn

/-- A text of line feeds that takes all of them has one line too many. -/
theorem not_countable_of_count (h : wordSize ≤ text.count '\n' + 1) : ¬ Countable text := by
  intro hcountable
  have hlines := hcountable.lines_lt
  rw [length_rawLines] at hlines
  omega

/-- A text that moves the line with each of its characters consists of line feeds. -/
theorem eq_newline_of_length_lt_line (h : text.length < (Position.ofFront text).line) :
    ∀ c ∈ text, c = '\n' := by
  have hline : (Position.ofFront text).line = 1 + text.count '\n' := rfl
  have hcount : text.count '\n' ≤ text.length := List.count_le_length
  intro c hc
  exact (List.count_eq_length.mp (by omega) c hc).symm

/-- A text that moves the column with each of its characters has no line feed. -/
theorem newline_not_mem_of_length_lt_column (h : text.length < (Position.ofFront text).column) :
    '\n' ∉ text := by
  have hcolumn : (Position.ofFront text).column =
    1 + (text.reverse.takeWhile (· != '\n')).length := rfl
  have hprefix := List.takeWhile_prefix (l := text.reverse) (· != '\n')
  have hle := hprefix.length_le
  rw [List.length_reverse] at hle
  have hself := hprefix.eq_of_length (by rw [List.length_reverse]; omega)
  intro hmem
  have hkept : '\n' ∈ text.reverse.takeWhile (· != '\n') := by
    rw [hself]
    exact List.mem_reverse.mpr hmem
  simpa using List.all_eq_true.mp List.all_takeWhile '\n' hkept

/-- Where a position outgrows the words before the bytes do, every byte has moved it. -/
theorem eq_of_not_fits (hbytes : byteSize text < wordSize) (hfront : front <+: text)
    (h : ¬ (Position.ofFront front).Fits) :
    front = text ∧ text.length + 1 = wordSize ∧
      (wordSize ≤ (Position.ofFront text).line ∨ wordSize ≤ (Position.ofFront text).column) := by
  have hsum := Position.line_add_column_ofFront front
  have hoffset : byteSize front ≤ byteSize text := byteSize_le_of_prefix hfront
  have hline : 1 ≤ (Position.ofFront front).line := Nat.le_add_right ..
  have hcolumn : 1 ≤ (Position.ofFront front).column := Nat.le_add_right ..
  have hsize := length_le_byteSize text
  rw [Position.ofFront_offset] at hsum
  have hlarge : wordSize ≤ (Position.ofFront front).line ∨
      wordSize ≤ (Position.ofFront front).column := by
    refine Decidable.by_contra fun hsmall => h ?_
    constructor
    case offset_lt => exact Nat.lt_of_le_of_lt hoffset hbytes
    all_goals omega
  obtain rfl : front = text := eq_of_byteSize_eq hfront List.prefix_rfl (by omega)
  have hlines := Position.line_ofFront_le front
  have hcolumns := Position.column_ofFront_le front
  exact ⟨rfl, by omega, hlarge⟩

/-- **Of the texts whose bytes can be counted, only the longest are not countable.** -/
theorem not_countable_iff (hbytes : byteSize text < wordSize) : ¬ Countable text ↔ Longest text := by
  constructor
  · intro h
    obtain ⟨front, hfront, hfits⟩ : ∃ front, front <+: text ∧ ¬ (Position.ofFront front).Fits := by
      simpa [countable_iff_fits] using h
    obtain ⟨rfl, hlength, hlarge⟩ := eq_of_not_fits hbytes hfront hfits
    refine ⟨hlength, ?_⟩
    rcases hlarge with hlines | hcolumns
    · exact .inr (eq_newline_of_length_lt_line (by omega))
    · exact .inl (newline_not_mem_of_length_lt_column (by omega))
  · rintro ⟨hlength, hline | hfeeds⟩
    · exact not_countable_of_line hline (Nat.le_of_eq hlength.symm)
    · have hcount : text.count '\n' = text.length :=
        List.count_eq_length.mpr fun c hc => (hfeeds c hc).symm
      exact not_countable_of_count (by omega)

theorem byteSize_longestLine_lt : byteSize longestLine < wordSize := by
  have hbytes := congrArg Position.offset ofFront_longestLine
  rw [Position.ofFront_offset] at hbytes
  rw [hbytes]
  decide

theorem byteSize_mostLineFeeds_lt : byteSize mostLineFeeds < wordSize := by
  have hbytes := congrArg Position.offset ofFront_mostLineFeeds
  rw [Position.ofFront_offset] at hbytes
  rw [hbytes]
  decide

theorem not_countable_longestLine : ¬ Countable longestLine :=
  not_countable_of_line newline_not_mem_longestLine <| by
    rw [longestLine, List.length_replicate]
    decide

theorem not_countable_mostLineFeeds : ¬ Countable mostLineFeeds :=
  not_countable_of_count <| by
    rw [mostLineFeeds, List.count_replicate_self]
    decide

end Text

/-! ## Documents -/

namespace Source

variable {s : Source}

/-- Bytes, lines and the columns of each line, without its carriage return, can be counted in
words. -/
structure Addressable (s : Source) : Prop where
  bytes_lt : s.byteSize < wordSize
  lines_lt : s.lineCount < wordSize
  columns_lt : ∀ n, s.lineLength n + 1 < wordSize

/-- A line is no longer than the piece between line feeds that it is cut out of. -/
theorem lineLength_le (s : Source) (n : Nat) :
    s.lineLength n = 0 ∨ ∃ line ∈ Text.rawLines s.chars, s.lineLength n ≤ line.length := by
  unfold lineLength line?
  cases hline : s.rawLine? n with
  | none => exact .inl rfl
  | some line =>
    refine .inr ⟨line, ?_, (Text.stripReturn_prefix line).length_le⟩
    cases n with
    | zero => cases hline
    | succ n => exact List.mem_of_getElem? hline

/-- A line has no more characters than the document has bytes. -/
theorem lineLength_le_byteSize (s : Source) (n : Nat) : s.lineLength n ≤ s.byteSize := by
  rcases s.lineLength_le n with hzero | ⟨line, hmem, hle⟩
  · rw [hzero]
    exact Nat.zero_le _
  · obtain ⟨k, hk⟩ := List.mem_iff_getElem?.mp hmem
    obtain ⟨before, hat, -, -⟩ := Text.lineAt_of_rawLines hk
    obtain ⟨after, htext, -⟩ := hat.text_eq
    have hlength := congrArg List.length htext
    rw [List.length_append, List.length_append] at hlength
    have hsize : s.chars.length ≤ s.byteSize := Text.length_le_byteSize s.chars
    omega

theorem addressable_of_countable (h : Text.Countable s.chars) : s.Addressable := by
  refine ⟨h.bytes_lt, h.lines_lt, fun n => ?_⟩
  rcases s.lineLength_le n with hzero | ⟨line, hmem, hle⟩
  · rw [hzero]
    exact one_lt_wordSize
  · exact Nat.lt_of_le_of_lt (Nat.succ_le_succ hle) (h.columns_lt line hmem)

end Source

end AuroraLint
