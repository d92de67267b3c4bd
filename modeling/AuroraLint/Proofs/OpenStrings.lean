import AuroraLint.Proofs.Classification
import AuroraLint.Proofs.Forms
import AuroraLint.Proofs.LineByLine
import Mathlib.Data.List.Induction

/-!
# Strings that their line cuts off

A line toggles between code and string at its quotes. The scanner never counts them, and yet the
errors that it makes are the lines with an odd number of them.

* `CharClass.toggles`    : the quotes of a line that toggle, by their places.
* `CharClass.openQuote?` : the last of them, if a string is open at the end of the line.
* `Lexer.errorsIn`       : the errors of the text with given lines, one for each open quote.
* `Source.placeAt`       : the position before a character of a line.

Main statements: `LineState.mode_run_eq_string_iff` — a line ends in a string exactly if an odd
number of its quotes toggle; `Lexer.Tiling.errors_eq` — the errors of one line;
`Lexer.tokenize_errors` — the errors of a document.
-/

set_option autoImplicit false

namespace AuroraLint

namespace CharClass

/-! ## Toggles -/

/-- Character `k` of the line is a quote that opens or closes a string: no backslash stands right
before it, and no comment has begun. -/
def TogglesAt (row : List Char) (k : Nat) : Prop :=
  row[k]? = some '"' ∧ (k = 0 ∨ row[k - 1]? ≠ some '\\') ∧ (classify row)[k]? ≠ some .comment

instance (row : List Char) (k : Nat) : Decidable (TogglesAt row k) :=
  inferInstanceAs (Decidable (_ ∧ _))

/-- The places of the quotes of a line that toggle. -/
def toggles (row : List Char) : List Nat :=
  (List.range row.length).filter (TogglesAt row)

/-- The place of the quote that opens a string which the end of the line cuts off. -/
def openQuote? (row : List Char) : Option Nat :=
  if (toggles row).length % 2 = 1 then (toggles row).getLast? else none

namespace LineState

/-- The next character toggles. -/
def Toggles (s : LineState) (c : Char) : Prop :=
  c = '"' ∧ s.prev ≠ some '\\' ∧ s.mode ≠ .comment

instance (s : LineState) (c : Char) : Decidable (s.Toggles c) :=
  inferInstanceAs (Decidable (_ ∧ _))

theorem classOf_quote_eq_comment_iff (s : LineState) :
    s.classOf '"' = .comment ↔ s.mode = .comment := by
  cases hs : s.mode with
  | code => by_cases hp : s.prev = some '\\' <;> simp [classOf, modeAfter, hs, hp]
  | string => simp [classOf, hs]
  | comment => simp [classOf, modeAfter, hs]

/-- A toggle opens a string or closes it; any other character leaves it open or closed. -/
theorem modeAfter_eq_string_iff (s : LineState) (c : Char) :
    s.modeAfter c = .string ↔ if s.Toggles c then s.mode ≠ .string else s.mode = .string := by
  cases hs : s.mode with
  | code =>
    by_cases hq : c = '"' ∧ s.prev ≠ some '\\'
    · simp [modeAfter, Toggles, hs, hq]
    · by_cases hh : c = '#' <;> simp_all [modeAfter, Toggles]
  | string =>
    by_cases hq : c = '"' ∧ s.prev ≠ some '\\'
    · simp [modeAfter, Toggles, hs, hq]
    · simp_all [modeAfter, Toggles]
  | comment => simp [modeAfter, Toggles, hs]

end LineState

variable {row : List Char} {k : Nat} {c : Char}

/-- Whether a character toggles is seen from the line before it. -/
theorem togglesAt_iff (hline : '\n' ∉ row) (hk : row[k]? = some c) :
    TogglesAt row k ↔ (LineState.run {} (row.take k)).Toggles c := by
  have hclass : (classify row)[k]? = some ((LineState.run {} (row.take k)).classOf c) :=
    getElem?_classifyFrom hline hk
  have hprev : (k = 0 ∨ row[k - 1]? ≠ some '\\') ↔
      (LineState.run {} (row.take k)).prev ≠ some '\\' := by
    rw [LineState.prev_run, lastOnLine]
    cases k with
    | zero => simp
    | succ j =>
      have hlt : j < row.length := by
        have := (List.getElem?_eq_some_iff.mp hk).1
        omega
      have hlast : (row.take (j + 1)).getLast? = some row[j] := by
        rw [List.take_add_one, List.getElem?_eq_getElem hlt, Option.toList_some,
          List.getLast?_concat]
      have hne : row[j] ≠ '\n' := by
        intro heq
        exact hline (heq ▸ List.getElem_mem hlt)
      simp [hlast, hlt, Option.filter, hne]
  rw [TogglesAt, LineState.Toggles, hclass, hk, hprev]
  constructor
  · rintro ⟨hc, hp, hcomment⟩
    obtain rfl := Option.some.inj hc
    refine ⟨rfl, hp, fun hmode => hcomment ?_⟩
    rw [(LineState.classOf_quote_eq_comment_iff _).mpr hmode]
  · rintro ⟨rfl, hp, hmode⟩
    refine ⟨rfl, hp, fun hcomment => hmode ?_⟩
    exact (LineState.classOf_quote_eq_comment_iff _).mp (Option.some.inj hcomment)

/-- The toggles of a longer line. -/
theorem toggles_concat (hline : '\n' ∉ row ++ [c]) :
    toggles (row ++ [c]) =
      toggles row ++ if (LineState.run {} row).Toggles c then [row.length] else [] := by
  have hfront : '\n' ∉ row := fun h => hline (List.mem_append_left _ h)
  have hold : ∀ j ∈ List.range row.length,
      decide (TogglesAt (row ++ [c]) j) = decide (TogglesAt row j) := by
    intro j hj
    have hlt : j < row.length := List.mem_range.mp hj
    have hget : row[j]? = some row[j] := List.getElem?_eq_getElem hlt
    have hget' : (row ++ [c])[j]? = some row[j] := by
      rw [List.getElem?_append_left hlt, hget]
    refine decide_eq_decide.mpr ?_
    rw [togglesAt_iff hline hget', togglesAt_iff hfront hget,
      List.take_append_of_le_length (Nat.le_of_lt hlt)]
  have hnew : TogglesAt (row ++ [c]) row.length ↔ (LineState.run {} row).Toggles c := by
    have hget : (row ++ [c])[row.length]? = some c := List.getElem?_concat_length
    rw [togglesAt_iff hline hget, List.take_left' rfl]
  rw [toggles, List.length_append, List.length_singleton, List.range_succ, List.filter_append,
    List.filter_congr hold]
  refine congrArg _ ?_
  by_cases h : (LineState.run {} row).Toggles c
  · simp [h, hnew]
  · simp [h, hnew]

/-- **A line ends in a string exactly if an odd number of its quotes toggle.** -/
theorem LineState.mode_run_eq_string_iff (hline : '\n' ∉ row) :
    (run {} row).mode = .string ↔ (toggles row).length % 2 = 1 := by
  induction row using List.reverseRecOn with
  | nil => simp [toggles]
  | append_singleton row c ih =>
    have hfront : '\n' ∉ row := fun h => hline (List.mem_append_left _ h)
    have hc : c ≠ '\n' := by
      rintro rfl
      simp at hline
    have hstep : (run {} (row ++ [c])).mode = (run {} row).modeAfter c := by
      rw [run_append, run_cons, run_nil, step_of_ne hc]
    rw [hstep, modeAfter_eq_string_iff, toggles_concat hline, List.length_append]
    have hcount := ih hfront
    by_cases h : (run {} row).Toggles c
    · rw [if_pos h, if_pos h, List.length_singleton, Ne, hcount]
      omega
    · rw [if_neg h, if_neg h, List.length_nil, hcount]
      omega

theorem lt_of_openQuote? (h : openQuote? row = some k) : k < row.length := by
  unfold openQuote? at h
  split at h
  · have hmem : k ∈ toggles row := List.mem_of_getLast? h
    exact List.mem_range.mp (List.mem_filter.mp hmem).1
  · cases h

/-- A line that does not end in a string has no open quote. -/
theorem openQuote?_eq_none (hline : '\n' ∉ row) (h : (LineState.run {} row).mode ≠ .string) :
    openQuote? row = none :=
  if_neg fun hodd => h ((LineState.mode_run_eq_string_iff hline).mpr hodd)

/-- The quote that opens a string is the open one, if everything behind it is of the string. -/
theorem openQuote?_eq_some {front tail : List Char} (hline : '\n' ∉ front ++ '"' :: tail)
    (hcode : (LineState.run {} front).mode = .code)
    (hprev : (LineState.run {} front).prev ≠ some '\\')
    (htail : ∀ u, u <+: tail → (LineState.run {} (front ++ '"' :: u)).mode = .string) :
    openQuote? (front ++ '"' :: tail) = some front.length := by
  have hodd : (toggles (front ++ '"' :: tail)).length % 2 = 1 :=
    (LineState.mode_run_eq_string_iff hline).mp (htail tail List.prefix_rfl)
  rw [openQuote?, if_pos hodd]
  clear hodd
  induction tail using List.reverseRecOn with
  | nil =>
    have htoggles : (LineState.run {} front).Toggles '"' := ⟨rfl, hprev, by simp [hcode]⟩
    rw [toggles_concat hline, if_pos htoggles, List.getLast?_concat]
  | append_singleton tail c ih =>
    have hassoc : front ++ '"' :: (tail ++ [c]) = (front ++ '"' :: tail) ++ [c] := by simp
    rw [hassoc] at hline ⊢
    have hbefore := htail tail (List.prefix_append tail [c])
    have hafter := htail (tail ++ [c]) List.prefix_rfl
    have hc : c ≠ '\n' := by
      rintro rfl
      simp at hline
    -- the string is open before the character and after it
    have hstays : ¬ (LineState.run {} (front ++ '"' :: tail)).Toggles c := by
      intro htoggles
      rw [hassoc, LineState.run_append, LineState.run_cons, LineState.run_nil,
        LineState.step_of_ne hc] at hafter
      rw [LineState.modeAfter_eq_string_iff, if_pos htoggles] at hafter
      exact hafter hbefore
    rw [toggles_concat hline, if_neg hstays, List.append_nil]
    refine ih (fun h => hline (List.mem_append_left _ h)) fun u hu => ?_
    exact htail u (hu.trans (List.prefix_append tail [c]))

/-- A closed string with a `#`, a quote behind a backslash, and the quote of a string left open. -/
example : openQuote? ['"', '#', '"', '\\', '"', '"', 'y'] = some 5 := by decide

/-! ## The state at the end of a gap and of a lexeme -/

namespace LineState

/-- No string is open where a text ends in a gap. -/
theorem mode_run_last_gap {s : LineState} {inComment : Bool} {gap : List Char}
    (hs : s.mode = gapMode inComment) (hgap : trivia inComment gap = gap.length) :
    (s.run gap).mode ≠ .string := by
  induction gap generalizing s inComment with
  | nil => cases inComment <;> simp [hs, gapMode]
  | cons g gap ih =>
    obtain ⟨hg, hnext⟩ := trivia_cons_eq_succ_iff.mp hgap
    exact ih (step_gap hs hg) hnext

/-- All along a string literal that is not closed, the line is in a string. -/
theorem mode_run_open {s : LineState} {p : Char} {tail u : List Char} (hs : s.mode = .string)
    (hp : s.prev = some p) (htail : Lexeme.stringTail p tail = (tail.length, false))
    (hu : u <+: tail) : (s.run u).mode = .string := by
  induction tail generalizing s p u with
  | nil => rwa [List.prefix_nil.mp hu]
  | cons d tail ih =>
    rw [Lexeme.stringTail] at htail
    split at htail
    · cases congrArg Prod.snd htail
    · rename_i hquote
      split at htail
      · cases congrArg Prod.fst htail
      · rename_i hn
        obtain ⟨hlen, hopen⟩ := Prod.mk.inj htail
        cases u with
        | nil => exact hs
        | cons e u =>
          obtain ⟨rfl, hu'⟩ := List.cons_prefix_cons.mp hu
          have hmode : s.modeAfter e = .string := by
            simpa [modeAfter, hs, hp] using hquote
          rw [run_cons, step_of_ne hn, hmode]
          exact ih rfl rfl (Prod.ext (Nat.succ.inj hlen) hopen) hu'

/-- Behind a finished lexeme the line is in code. -/
theorem mode_run_finished {s : LineState} {prev : Option Char} {c : Char} {tail rest : List Char}
    {lexeme : Lexeme} (hs : s.mode = .code) (hp : s.prev = prev)
    (hread : Lexeme.read prev c (tail ++ rest) = lexeme) (hmore : lexeme.more = tail.length)
    (hb : Text.isBlank c = false) (hh : c ≠ '#') (hfinished : lexeme.terminated = true) :
    (s.run (c :: tail)).mode = .code := by
  by_cases hk : lexeme.kind = .stringLiteral
  · obtain ⟨hquote, htail⟩ := Lexeme.stringTail_of_read hread hmore hk
    have hclosed := @mode_run_closed ⟨.string, some c⟩ c (tail ++ rest) rfl rfl
      (by rw [htail, hfinished])
    rw [htail, List.take_left' rfl] at hclosed
    rwa [run_cons, step_quote hs (hp ▸ hquote)]
  · exact (run_other_lexeme hs hp hread hmore hb hh hk).2

end LineState

end CharClass

namespace Lexer

open CharClass CharClass.LineState

/-! ## The errors of a line -/

section Unfinished

variable {prev : Option Char} {c : Char} {tail rest : List Char} {lexeme : Lexeme}

/-- Only a string literal is unfinished, and its line ends behind it. -/
theorem string_of_not_terminated (hread : Lexeme.read prev c (tail ++ rest) = lexeme)
    (hmore : lexeme.more = tail.length) (h : lexeme.terminated = false) :
    (c = '"' ∧ prev ≠ some '\\') ∧ Lexeme.stringTail c tail = (tail.length, false) ∧
      (rest = [] ∨ rest.head? = some '\n') := by
  have hk : lexeme.kind = .stringLiteral := by
    have hform := Lexeme.form_of_read hread hmore
    rw [h] at hform
    generalize lexeme.kind = k at hform
    cases hform
    rfl
  obtain ⟨hquote, htail⟩ := Lexeme.stringTail_of_read hread hmore hk
  rw [h] at htail
  have hcut := @Lexeme.drop_stringTail_of_not_closed c (tail ++ rest) (by rw [htail])
  rw [htail, List.drop_left' rfl] at hcut
  exact ⟨hquote, Lexeme.stringTail_front htail, hcut⟩

/-- The quote of an unfinished literal is the open one of its line. -/
theorem openQuote?_of_not_terminated {front : List Char} (hline : '\n' ∉ front ++ c :: tail)
    (hcode : (run {} front).mode = .code)
    (hread : Lexeme.read (lastOnLine front) c (tail ++ rest) = lexeme)
    (hmore : lexeme.more = tail.length) (h : lexeme.terminated = false) :
    openQuote? (front ++ c :: tail) = some front.length := by
  obtain ⟨⟨rfl, hescaped⟩, htail, _⟩ := string_of_not_terminated hread hmore h
  rw [← prev_run] at hescaped
  refine openQuote?_eq_some hline hcode hescaped fun u hu => ?_
  rw [run_append, run_cons, step_quote hcode ⟨rfl, hescaped⟩]
  exact mode_run_open rfl rfl htail hu

end Unfinished

/-- **The errors of one line.** There is one if a string is open at its end, from the open quote to
the end of the line. The induction is over the tiling, with the line in code at each gap. -/
theorem Tiling.errors_eq {file : String} {front rest : List Char} {scanned : List Scanned}
    (h : Tiling file front rest scanned) (hline : '\n' ∉ front ++ rest)
    (hcode : (run {} front).mode = .code) :
    scanned.filterMap Scanned.diagnostic? = ((openQuote? (front ++ rest)).map fun k =>
      Diagnostic.error "unterminated string literal"
        ⟨file, .ofFront ((front ++ rest).take k), .ofFront (front ++ rest)⟩).toList := by
  induction h with
  | @ending front gap hgap =>
    rw [List.append_nil] at hgap
    have hlast : (run {} (front ++ gap)).mode ≠ .string := by
      rw [run_append]
      exact mode_run_last_gap (show _ = gapMode false from hcode) hgap
    rw [openQuote?_eq_none hline hlast]
    rfl
  | @token front gap tail rest c scanned lexeme hgap hread hmore next ih =>
    obtain ⟨hb, hh⟩ := not_blank_of_trivia hgap
    have hassoc : front ++ (gap ++ c :: (tail ++ rest)) = front ++ gap ++ c :: tail ++ rest := by
      simp
    rw [hassoc] at hline ⊢
    have hmode : (run {} (front ++ gap)).mode = .code := by
      rw [run_append]
      exact mode_run_gap (show _ = gapMode false from hcode) hgap
    cases hfinished : lexeme.terminated with
    | true =>
      have hnone : (Scanned.spelling file (front ++ gap) lexeme (c :: tail)).diagnostic? = none :=
        if_pos hfinished
      rw [List.filterMap_cons_none hnone]
      refine ih hline ?_
      rw [run_append]
      exact mode_run_finished hmode (prev_run _) hread hmore hb hh hfinished
    | false =>
      -- the literal takes all that is left of the line
      have hrest : rest = [] := by
        rcases (string_of_not_terminated hread hmore hfinished).2.2 with hnil | hnext
        · exact hnil
        · have hmem : '\n' ∈ rest := List.mem_of_mem_head? hnext
          exact absurd (List.mem_append_right _ hmem) hline
      subst hrest
      have hend : scanned = [.ending file (front ++ gap ++ c :: tail)] := by
        rw [← next.scan_eq]
        simpa using @scan_gap file (front ++ gap ++ c :: tail) [] rfl
      have herror : (Scanned.spelling file (front ++ gap) lexeme (c :: tail)).diagnostic? =
          some (.error "unterminated string literal"
            ⟨file, .ofFront (front ++ gap), .ofFront (front ++ gap ++ c :: tail)⟩) :=
        if_neg (by simp [Scanned.spelling, hfinished])
      rw [List.append_nil] at hline ⊢
      rw [openQuote?_of_not_terminated hline hmode hread hmore hfinished,
        List.filterMap_cons_some herror, hend, Option.map_some, List.take_left' rfl]
      rfl

/-! ## The errors of a document -/

/-- The position before character `k` of line `n`, counted from 0, of the text with these lines. -/
def placeIn (lines : List (List Char)) (n : Nat) (line : List Char) (k : Nat) : Position :=
  ⟨n + 1, k + 1, Source.bytesOfLines n lines + Text.byteSize (line.take k)⟩

/-- The error of line `n` of the text with these lines, if a string is open at its end. -/
def errorIn (file : String) (lines : List (List Char)) (line : List Char) (n : Nat) :
    Option Diagnostic :=
  (openQuote? line).map fun k =>
    .error "unterminated string literal"
      ⟨file, placeIn lines n line k, placeIn lines n line line.length⟩

/-- The errors of the text with these lines. -/
def errorsIn (file : String) (lines : List (List Char)) : List Diagnostic :=
  lines.zipIdx.filterMap fun (line, n) => errorIn file lines line n

section Lines

variable (file : String) {first : List Char} (rest : List (List Char))

/-- The places of a first line are told by the line alone. -/
theorem ofFront_take_eq_placeIn (hline : '\n' ∉ first) {k : Nat} (hk : k ≤ first.length) :
    Position.ofFront (first.take k) = placeIn (first :: rest) 0 first k := by
  have hat : Text.LineAt first [] first := ⟨⟨[], by simp, .inl rfl⟩, hline, .inl rfl⟩
  have hplace := Position.ofFront_lineAt hat (List.take_prefix k first)
  rw [List.nil_append] at hplace
  rw [hplace, List.length_take, Nat.min_eq_left hk]
  rfl

/-- The errors of a first line, scanned alone. -/
theorem errors_first (hline : '\n' ∉ first) :
    (scan (.ofText file first)).filterMap Scanned.diagnostic? =
      (errorIn file (first :: rest) first 0).toList := by
  have herrors := (tiling_scan file [] first).errors_eq hline rfl
  rw [List.nil_append, ← Cursor.ofText_eq_between] at herrors
  rw [herrors, errorIn]
  refine congrArg Option.toList (Option.map_congr fun k hk => ?_)
  have hlt : k < first.length := lt_of_openQuote? hk
  have hstop := @ofFront_take_eq_placeIn first rest hline _ (Nat.le_refl _)
  rw [List.take_length] at hstop
  rw [ofFront_take_eq_placeIn rest hline (Nat.le_of_lt hlt), hstop]

/-- The error of a line is further down behind a first line. -/
theorem errorIn_down (hline : '\n' ∉ first) (line : List Char) (n : Nat) :
    (errorIn file rest line n).map
        (Diagnostic.down (first.count '\n' + 1) (Text.byteSize first + 1)) =
      errorIn file (first :: rest) line (n + 1) := by
  have hplace : ∀ k, (placeIn rest n line k).down (first.count '\n' + 1)
      (Text.byteSize first + 1) = placeIn (first :: rest) (n + 1) line k := by
    intro k
    simp only [placeIn, Position.down, Source.bytesOfLines, List.count_eq_zero.mpr hline,
      Position.mk.injEq, true_and]
    omega
  simp only [errorIn, Option.map_map, ← hplace]
  rfl

theorem errorsIn_cons (hline : '\n' ∉ first) :
    errorsIn file (first :: rest) = (errorIn file (first :: rest) first 0).toList ++
      (errorsIn file rest).map
        (Diagnostic.down (first.count '\n' + 1) (Text.byteSize first + 1)) := by
  rw [errorsIn, errorsIn, List.filterMap_eq_flatMap_toList, List.filterMap_eq_flatMap_toList,
    List.zipIdx_cons, List.flatMap_cons, List.zipIdx_succ, List.flatMap_map, List.map_flatMap]
  refine congrArg _ (congrArg (List.flatMap · _) (funext fun (line, n) => ?_))
  rw [← Option.toList_map, errorIn_down file rest hline]

end Lines

/-- **The errors of a text, line by line.** -/
theorem errors_eq_errorsIn (file : String) {lines : List (List Char)} (hne : lines ≠ [])
    (hlines : ∀ line ∈ lines, '\n' ∉ line) :
    (scan (.ofText file (List.intercalate ['\n'] lines))).filterMap Scanned.diagnostic? =
      errorsIn file lines := by
  induction lines with
  | nil => exact absurd rfl hne
  | cons first rest ih =>
    have hfirst := hlines first List.mem_cons_self
    have herrors := errors_first file rest hfirst
    rw [errorsIn_cons file rest hfirst, ← herrors]
    cases rest with
    | nil => simp [errorsIn]
    | cons second rest =>
      have hrest := ih (by simp) fun line hline => hlines line (List.mem_cons_of_mem _ hline)
      obtain ⟨init, hinit, _⟩ := scan_eq_append_ending file first
      have hkept : (scan (.ofText file first)).dropLast.filterMap Scanned.diagnostic? =
          (scan (.ofText file first)).filterMap Scanned.diagnostic? := by
        rw [hinit, List.dropLast_concat, List.filterMap_append]
        simp [Scanned.ending, Scanned.diagnostic?]
      rw [List.intercalate_cons_cons, List.append_assoc, List.singleton_append, scan_append_line,
        List.filterMap_append, hkept, ← hrest, List.filterMap_map, List.map_filterMap]
      exact congrArg _ (congrArg (List.filterMap · _) (funext (Scanned.diagnostic?_down _ _)))

end Lexer

/-- The position before character `k` of line `n`. -/
def Source.placeAt (s : Source) (n : Nat) (line : List Char) (k : Nat) : Position :=
  ⟨n, k + 1, s.offsetAt n line k⟩

/-- **Unterminated strings are reported exactly.** The errors of a document are, in the order of
its lines, one for each line with a string open at its end, from the quote that opened the string
to the end of the line; and there are no others. -/
theorem Lexer.tokenize_errors (uri text : String) :
    let source := Source.mk uri text
    (tokenize uri text).2 = source.rawLines.zipIdx.filterMap fun (line, n) =>
      (CharClass.openQuote? line).map fun k =>
        .error "unterminated string literal"
          (source.span (source.placeAt (n + 1) line k)
            (source.placeAt (n + 1) line line.length)) := by
  intro source
  have hlines : ∀ line ∈ source.rawLines, '\n' ∉ line := by
    intro line hmem
    obtain ⟨n, hn⟩ := List.getElem?_of_mem hmem
    obtain ⟨_, hat, _⟩ := Text.lineAt_of_rawLines hn
    exact hat.newline_not_mem
  have herrors := errors_eq_errorsIn uri (Text.rawLines_ne_nil source.chars) hlines
  rwa [Text.intercalate_rawLines] at herrors

end AuroraLint
