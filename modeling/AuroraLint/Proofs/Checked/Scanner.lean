import AuroraLint.Proofs.Checked.Cursor
import AuroraLint.Proofs.LineByLine
import AuroraLint.Proofs.Lossless

/-!
# Tokens of countable texts

The scanner with a cursor that counts in words, and with each lexeme cut out of the text at its two
byte offsets.

* `Checked.scan`, `Checked.tokenize` : the scanner with these operations checked.

Main statements: `Checked.scan_of_tiling` — the tokens are those of the library, unless the text is
not countable; `Checked.tokenize_lossless_in_words` and `Checked.tokenize_append_line_in_words` — so
the tokens of a countable text give it back, with positions that fit, and are those of its lines.
-/

set_option autoImplicit false

namespace AuroraLint.Checked

open Text (Countable)

/-! ## The scanner -/

/-- What is left to scan gets shorter with each token. -/
theorem length_rest_lt {c start stop : Cursor} {gap more : Nat} {ch : Char} {cs : List Char}
    (hstart : skip c gap = .ok start) (hrest : start.rest = ch :: cs)
    (hstop : skip start (more + 1) = .ok stop) : stop.rest.length < c.rest.length := by
  have hlength := congrArg List.length hrest
  rw [eq_of_skip_eq_ok hstart, Cursor.rest_skip, List.length_drop, List.length_cons] at hlength
  rw [eq_of_skip_eq_ok hstop, Cursor.rest_skip, hrest, List.length_drop, List.length_cons]
  omega

/-- As `Lexer.scan`, with each lexeme cut out of the text. -/
def scan (c : Cursor) : Checked (List Lexer.Scanned) :=
  match hstart : skip c (trivia false c.rest) with
  | .error fault => .error fault
  | .ok start =>
    match hrest : start.rest with
    | [] => pure [⟨⟨.eof, "", start.spanFrom start.pos⟩, true⟩]
    | ch :: cs =>
      let lexeme := Lexeme.read start.prev ch cs
      match hstop : skip start (lexeme.more + 1) with
      | .error fault => .error fault
      | .ok stop =>
        have := length_rest_lt hstart hrest hstop
        do
          let text ← orFault .cut (stop.sliceFrom start.pos.offset)
          let others ← scan stop
          return ⟨⟨lexeme.kind, String.ofList text, stop.spanFrom start.pos⟩, lexeme.terminated⟩ ::
            others
termination_by c.rest.length

/-- As `Lexer.tokenize`. -/
def tokenize (file text : String) : Checked (List Token × List Diagnostic) := do
  let scanned ← scan (Cursor.ofText file text.toList)
  return (scanned.map (·.token), scanned.filterMap Lexer.Scanned.diagnostic?)

/-- The operations of the scanner, one after the other. -/
theorem scan_eq (c : Cursor) : scan c = do
    let start ← skip c (trivia false c.rest)
    match start.rest with
    | [] => pure [⟨⟨.eof, "", start.spanFrom start.pos⟩, true⟩]
    | ch :: cs => do
      let lexeme := Lexeme.read start.prev ch cs
      let stop ← skip start (lexeme.more + 1)
      let text ← orFault .cut (stop.sliceFrom start.pos.offset)
      let others ← scan stop
      return ⟨⟨lexeme.kind, String.ofList text, stop.spanFrom start.pos⟩, lexeme.terminated⟩ ::
        others := by
  rw [scan]
  split
  · rename_i hstart
    rw [hstart]
    rfl
  · rename_i start hstart
    refine Eq.trans ?_ (congrArg (· >>= _) hstart).symm
    rw [ok_bind]
    obtain ⟨file, past, rest, pos⟩ := start
    cases rest with
    | nil => rfl
    | cons ch cs =>
      dsimp only
      split
      · rename_i hstop
        rw [hstop]
        rfl
      · rename_i hstop
        rw [hstop]
        rfl

section

variable {file : String} {front gap tail rest : List Char} {c : Char} {lexeme : Lexeme}
  (hfront : Countable front)

include hfront

/-- What is left of a text that is a gap. -/
theorem scan_gap (hgap : trivia false gap = gap.length) :
    scan (.between file front gap) =
      if Countable (front ++ gap) then .ok [.ending file (front ++ gap)]
      else .error .overflow := by
  rw [scan_eq, Cursor.rest_between, skip_between file hfront, hgap, List.take_length]
  split
  · rw [Cursor.skip_between, ok_bind, List.take_length, List.drop_length]
    rfl
  · rfl

/-- A gap and the lexeme behind it. -/
theorem scan_token (hgap : trivia false (gap ++ c :: (tail ++ rest)) = gap.length)
    (hread : Lexeme.read (lastOnLine (front ++ gap)) c (tail ++ rest) = lexeme)
    (hmore : lexeme.more = tail.length) :
    scan (.between file front (gap ++ c :: (tail ++ rest))) =
      if Countable (front ++ gap ++ c :: tail) then do
        let others ← scan (.between file (front ++ gap ++ c :: tail) rest)
        return .spelling file (front ++ gap) lexeme (c :: tail) :: others
      else .error .overflow := by
  rw [scan_eq, Cursor.rest_between, skip_between file hfront, hgap, List.take_left' rfl]
  by_cases hstart : Countable (front ++ gap)
  · rw [if_pos hstart, Cursor.skip_between, ok_bind, List.take_left' rfl, List.drop_left' rfl]
    simp only [Cursor.rest_between, Cursor.prev_between, hread, hmore]
    rw [skip_between file hstart, List.take_succ_cons, List.take_left' rfl]
    split
    · rw [Cursor.skip_between, ok_bind, List.take_succ_cons, List.take_left' rfl,
        List.drop_succ_cons, List.drop_left' rfl, Cursor.pos_between, Cursor.sliceFrom_between]
      rfl
    · rfl
  · rw [if_neg hstart, if_neg fun hall => hstart (hall.of_prefix (List.prefix_append ..))]
    rfl

end

/-- **The tokens of a countable text are those of the library**, and of any other text there are
none. The induction is over the tiling of what is left. -/
theorem scan_of_tiling {file : String} {front rest : List Char} {scanned : List Lexer.Scanned}
    (hfront : Countable front) (h : Lexer.Tiling file front rest scanned) :
    scan (.between file front rest) =
      if Countable (front ++ rest) then .ok scanned else .error .overflow := by
  induction h with
  | ending hgap =>
    rw [List.append_nil] at hgap
    exact scan_gap hfront hgap
  | @token front gap tail rest c scanned lexeme hgap hread hmore next ih =>
    have hassoc : front ++ (gap ++ c :: (tail ++ rest)) = front ++ gap ++ c :: tail ++ rest := by
      simp
    rw [scan_token hfront hgap hread hmore, hassoc]
    by_cases hstop : Countable (front ++ gap ++ c :: tail)
    · rw [if_pos hstop, ih hstop]
      split <;> rfl
    · rw [if_neg hstop, if_neg fun hall => hstop (hall.of_prefix (List.prefix_append ..))]

/-- **Of a countable text there are the tokens and errors of the library, of any other text there are
none.** -/
theorem tokenize_eq (file text : String) :
    tokenize file text =
      if Countable text.toList then .ok (Lexer.tokenize file text) else .error .overflow := by
  have hscan := scan_of_tiling Text.countable_nil (Lexer.tiling_scan file [] text.toList)
  rw [tokenize, Cursor.ofText_eq_between, hscan, List.nil_append]
  split <;> rfl

/-! ## Tokens that give the text back -/

/-- **Tokenizing a countable text loses nothing**, and every position is the true one and fits. -/
theorem tokenize_lossless_in_words (file text : String) (h : Countable text.toList) :
    let tokens := (Lexer.tokenize file text).1
    tokenize file text = .ok (Lexer.tokenize file text) ∧
      Lossless text.toList tokens ∧
      ∀ t ∈ tokens, t.span.Fits := by
  intro tokens
  have hlossless := Lexer.tokenize_lossless file text
  refine ⟨(tokenize_eq file text).trans (if_pos h), hlossless, fun t ht => ?_⟩
  obtain ⟨hstart, hstop⟩ := hlossless.positions t ht
  exact ⟨h.trueIn_fits hstart, h.trueIn_fits hstop⟩

/-- Strings, comments and characters of more than one byte on two lines. -/
theorem tokenize_lossless_in_words_two_lines :
    let text := "let s = \"é\" # é\n  s[0]"
    Countable text.toList ∧ tokenize "m" text = .ok (Lexer.tokenize "m" text) ∧
      Lossless text.toList (Lexer.tokenize "m" text).1 := by
  intro text
  have hcountable : Countable text.toList := by decide +kernel
  obtain ⟨hok, hlossless, -⟩ := tokenize_lossless_in_words "m" text hcountable
  exact ⟨hcountable, hok, hlossless⟩

/-- The end of a text is a token, at a position that fits only if the text is countable. -/
theorem tokenize_of_not_countable {text : String} (h : ¬ Countable text.toList) :
    tokenize "m" text = .error .overflow ∧
      ∃ t ∈ (Lexer.tokenize "m" text).1, t.span.stop = .ofFront text.toList := by
  refine ⟨(tokenize_eq "m" text).trans (if_neg h), ?_⟩
  obtain ⟨scanned, htiling, heq⟩ := Lexer.tiling_tokenize "m" text
  obtain ⟨init, rfl, -⟩ := htiling.eq_append_ending
  refine ⟨(Lexer.Scanned.ending "m" text.toList).token, ?_, rfl⟩
  rw [heq]
  simp

/-- The end of one of the longest texts has a column, or a line, that is no word. -/
theorem tokenize_longest_texts :
    let line := String.ofList Text.longestLine
    let feeds := String.ofList Text.mostLineFeeds
    (Text.byteSize line.toList < wordSize ∧ tokenize "m" line = .error .overflow ∧
      ∃ t ∈ (Lexer.tokenize "m" line).1, t.span.stop = ⟨1, wordSize, wordSize - 1⟩) ∧
    (Text.byteSize feeds.toList < wordSize ∧ tokenize "m" feeds = .error .overflow ∧
      ∃ t ∈ (Lexer.tokenize "m" feeds).1, t.span.stop = ⟨wordSize, 1, wordSize - 1⟩) := by
  intro line feeds
  have hline : line.toList = Text.longestLine := String.toList_ofList
  have hfeeds : feeds.toList = Text.mostLineFeeds := String.toList_ofList
  have hlineTokens := tokenize_of_not_countable (hline ▸ Text.not_countable_longestLine)
  have hfeedsTokens := tokenize_of_not_countable (hfeeds ▸ Text.not_countable_mostLineFeeds)
  rw [hline, Text.ofFront_longestLine] at hlineTokens
  rw [hfeeds, Text.ofFront_mostLineFeeds] at hfeedsTokens
  exact ⟨⟨hline ▸ Text.byteSize_longestLine_lt, hlineTokens⟩,
    ⟨hfeeds ▸ Text.byteSize_mostLineFeeds_lt, hfeedsTokens⟩⟩

/-! ## Tokens of two texts -/

/-- The text behind a line feed is counted further down. -/
theorem countable_below {above below : List Char} (h : Countable (above ++ '\n' :: below)) :
    Countable below := by
  refine Text.countable_iff_fits.mpr fun front hfront => ?_
  obtain ⟨rest, rfl⟩ := hfront
  have hfits : (Position.ofFront (above ++ '\n' :: front)).Fits := h.fits ⟨rest, by simp⟩
  rw [Position.ofFront_down] at hfits
  obtain ⟨hline, hcolumn, hoffset⟩ := hfits
  simp only [Position.down] at hline hcolumn hoffset
  constructor <;> omega

/-- **Lexing is compositional over the lines of a countable text.** -/
theorem tokenize_append_line_in_words (file above below : String)
    (h : Countable (above ++ "\n" ++ below).toList) :
    let lines := above.toList.count '\n' + 1
    let bytes := Text.byteSize above.toList + 1
    ∃ tokens errors tokens' errors',
      tokenize file above = .ok (tokens, errors) ∧ tokenize file below = .ok (tokens', errors') ∧
      tokenize file (above ++ "\n" ++ below) =
        .ok (tokens.filter (·.kind ≠ .eof) ++ tokens'.map (Token.down lines bytes),
          errors ++ errors'.map (Diagnostic.down lines bytes)) := by
  intro lines bytes
  have htext : (above ++ "\n" ++ below).toList = above.toList ++ '\n' :: below.toList := by
    simp [String.toList_append]
  have hsplit := htext ▸ h
  refine ⟨_, _, _, _, (tokenize_eq file above).trans (if_pos ?_),
    (tokenize_eq file below).trans (if_pos (countable_below hsplit)), ?_⟩
  · exact hsplit.of_prefix (List.prefix_append ..)
  · rw [tokenize_eq, if_pos h, Lexer.tokenize_append_line]
    rfl

/-- A string that its line cuts off, above a comment. -/
theorem tokenize_append_line_in_words_cut_off :
    Countable ("a \"b" ++ "\n" ++ "# c").toList ∧
      ∃ tokens errors tokens' errors',
        tokenize "m" "a \"b" = .ok (tokens, errors) ∧ tokenize "m" "# c" = .ok (tokens', errors') ∧
        tokenize "m" ("a \"b" ++ "\n" ++ "# c") =
          .ok (tokens.filter (·.kind ≠ .eof) ++ tokens'.map (Token.down 1 5),
            errors ++ errors'.map (Diagnostic.down 1 5)) := by
  have hcountable : Countable ("a \"b" ++ "\n" ++ "# c").toList := by decide +kernel
  exact ⟨hcountable, tokenize_append_line_in_words "m" "a \"b" "# c" hcountable⟩

/-- With one more line feed above it, the last line of a text may have a number that is no word. -/
theorem tokenize_append_line_feeds :
    let below := String.ofList (List.replicate (wordSize - 2) '\n')
    Text.byteSize ("" ++ "\n" ++ below).toList < wordSize ∧
      tokenize "m" "" = .ok (Lexer.tokenize "m" "") ∧
      tokenize "m" below = .ok (Lexer.tokenize "m" below) ∧
      tokenize "m" ("" ++ "\n" ++ below) = .error .overflow := by
  intro below
  have hbelow : below.toList = List.replicate (wordSize - 2) '\n' := String.toList_ofList
  have hjoined : ("" ++ "\n" ++ below).toList = Text.mostLineFeeds := by
    rw [String.toList_append, hbelow]
    rfl
  have hcountable : Countable below.toList := by
    refine Text.countable_of_byteSize_lt ?_
    rw [hbelow, Text.byteSize_replicate]
    decide
  refine ⟨hjoined ▸ Text.byteSize_mostLineFeeds_lt, ?_, ?_, ?_⟩
  · exact (tokenize_eq "m" "").trans (if_pos Text.countable_nil)
  · exact (tokenize_eq "m" below).trans (if_pos hcountable)
  · exact (tokenize_eq "m" _).trans (if_neg (hjoined ▸ Text.not_countable_mostLineFeeds))

end AuroraLint.Checked
