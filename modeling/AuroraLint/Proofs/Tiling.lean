import AuroraLint.Proofs.Lexeme
import AuroraLint.Proofs.Position
import AuroraLint.Token.Lexer

/-!
# Tokens tile the text

The scanner described on texts alone: a document is a sequence of gaps and lexemes, and what it
makes of a lexeme depends on the text before and after it.

* `Cursor.between` : the cursor at a place of a text.
* `Gap`            : blanks and comments, each comment up to a line feed or the end of the text.
* `Lexer.Tiling`   : the tokens of a text cut into gaps and lexemes.

Main statement: `Lexer.tiling_scan` — every scan is a tiling; later facts about tokens are
inductions over it. `Lexer.Tiling.scan_eq` — a text has no other tiling. `Gap.of_trivia` — what the
scanner skips is a gap.
-/

set_option autoImplicit false

namespace AuroraLint

/-! ## Cursors between two texts -/

/-- The last character of a text, unless it ends a line. -/
def lastOnLine (front : List Char) : Option Char :=
  front.getLast?.filter (· != '\n')

namespace Cursor

/-- The cursor that has `front` behind it and `rest` ahead. -/
def between (file : String) (front rest : List Char) : Cursor :=
  ⟨file, front.reverse, rest, .ofFront front⟩

variable (file : String) (front rest : List Char)

theorem ofText_eq_between (text : List Char) : ofText file text = between file [] text := rfl

@[simp] theorem rest_between : (between file front rest).rest = rest := rfl

@[simp] theorem pos_between : (between file front rest).pos = .ofFront front := rfl

@[simp] theorem prev_between : (between file front rest).prev = lastOnLine front := by
  simp [prev, between, lastOnLine]

@[simp] theorem spanFrom_between (start : Position) :
    (between file front rest).spanFrom start = ⟨file, start, .ofFront front⟩ := rfl

theorem advance_between (c : Char) :
    (between file front (c :: rest)).advance = between file (front ++ [c]) rest := by
  simp [advance, between, Position.advance_ofFront]

/-- Reading moves characters from the rest to the front. -/
@[simp] theorem skip_between (n : Nat) :
    (between file front rest).skip n = between file (front ++ rest.take n) (rest.drop n) := by
  induction n generalizing front rest with
  | zero => simp [skip]
  | succ n ih =>
    cases rest with
    | nil =>
      have h := ih front []
      simp only [List.take_nil, List.append_nil, List.drop_nil] at h ⊢
      rw [skip, show (between file front []).advance = between file front [] from rfl, h]
    | cons c cs => rw [skip, advance_between, ih]; simp

end Cursor

/-! ## Gaps -/

/-- A text of blanks and comments with `after` behind it. A comment takes every character from its
`#` up to a line feed or the end. -/
inductive Gap (after : List Char) : List Char → Prop
  | nil : Gap after []
  | blank {c : Char} {cs : List Char} (hc : Text.isBlank c = true) (hcs : Gap after cs) :
      Gap after (c :: cs)
  | comment {body cs : List Char} (hbody : '\n' ∉ body)
      (hend : cs ++ after = [] ∨ (cs ++ after).head? = some '\n') (hcs : Gap after cs) :
      Gap after ('#' :: (body ++ cs))

theorem trivia_le (inComment : Bool) (cs : List Char) : trivia inComment cs ≤ cs.length := by
  induction cs generalizing inComment with
  | nil => simp [trivia]
  | cons c cs ih =>
    have hf := ih false
    have ht := ih true
    rw [trivia, List.length_cons]
    split
    · split <;> omega
    · split
      · omega
      · split <;> omega

/-- Whether a comment is open after one more character of a gap. -/
def commentAfter (inComment : Bool) (c : Char) : Bool :=
  if inComment then c != '\n' else c == '#'

/-- One character of a gap: it is in a comment, or blank, or opens a comment. -/
theorem trivia_cons_eq_succ_iff {inComment : Bool} {c : Char} {cs : List Char} {n : Nat} :
    trivia inComment (c :: cs) = n + 1 ↔
      (inComment = true ∨ Text.isBlank c = true ∨ c = '#') ∧
        trivia (commentAfter inComment c) cs = n := by
  cases inComment with
  | true =>
    by_cases hn : c = '\n'
    · simp [trivia, commentAfter, hn]
    · have hc : (c != '\n') = true := by simpa using hn
      simp [trivia, commentAfter, hn, hc]
  | false =>
    by_cases hh : c = '#'
    · simp [trivia, commentAfter, hh]
    · have hc : (c == '#') = false := by simpa using hh
      by_cases hb : Text.isBlank c = true <;> simp [trivia, commentAfter, hb, hh, hc]

theorem trivia_cons_eq_zero {inComment : Bool} {c : Char} {cs : List Char}
    (h : trivia inComment (c :: cs) = 0) :
    ¬ (inComment = true ∨ Text.isBlank c = true ∨ c = '#') := by
  intro hc
  have hs : trivia inComment (c :: cs) = trivia (commentAfter inComment c) cs + 1 :=
    trivia_cons_eq_succ_iff.mpr ⟨hc, rfl⟩
  omega

/-- A gap ends before a character that is neither blank nor `#`, and with no comment open. -/
theorem not_blank_of_trivia {inComment : Bool} {gap rest : List Char} {c : Char}
    (h : trivia inComment (gap ++ c :: rest) = gap.length) :
    Text.isBlank c = false ∧ c ≠ '#' := by
  induction gap generalizing inComment with
  | nil =>
    have hc := trivia_cons_eq_zero h
    exact ⟨by simpa using fun hb => hc (.inr (.inl hb)), fun hh => hc (.inr (.inr hh))⟩
  | cons g gap ih => exact ih (trivia_cons_eq_succ_iff.mp h).2

theorem gap_split_of_trivia {inComment : Bool} {gap rest : List Char}
    (h : trivia inComment (gap ++ rest) = gap.length) :
    ∃ body cs, gap = body ++ cs ∧ '\n' ∉ body ∧ (inComment = false → body = []) ∧
      (inComment = true → cs ++ rest = [] ∨ (cs ++ rest).head? = some '\n') ∧ Gap rest cs := by
  induction gap generalizing inComment with
  | nil =>
    refine ⟨[], [], rfl, by simp, fun _ => rfl, ?_, .nil⟩
    intro hc
    cases rest with
    | nil => exact .inl rfl
    | cons r rest => exact absurd (.inl hc) (trivia_cons_eq_zero h)
  | cons g gap ih =>
    obtain ⟨hg, hgap⟩ := trivia_cons_eq_succ_iff.mp h
    obtain ⟨body, cs, rfl, hbody, hfalse, htrue, hcs⟩ := ih hgap
    cases inComment with
    | true =>
      by_cases hn : g = '\n'
      · subst hn
        obtain rfl := hfalse rfl
        exact ⟨[], '\n' :: cs, rfl, by simp, fun _ => rfl, fun _ => .inr rfl,
          .blank Text.isBlank_newline hcs⟩
      · exact ⟨g :: body, cs, rfl, by simp [hbody, Ne.symm hn], nofun,
          fun _ => htrue (by simp [commentAfter, hn]), hcs⟩
    | false =>
      by_cases hh : g = '#'
      · subst hh
        exact ⟨[], '#' :: (body ++ cs), rfl, by simp, fun _ => rfl, nofun,
          .comment hbody (htrue rfl) hcs⟩
      · have hb : Text.isBlank g = true := by simpa [hh] using hg
        obtain rfl := hfalse (by simp [commentAfter, hh])
        exact ⟨[], g :: cs, rfl, by simp, fun _ => rfl, nofun, .blank hb hcs⟩

/-- What the scanner skips is a gap. -/
theorem Gap.of_trivia {gap rest : List Char} (h : trivia false (gap ++ rest) = gap.length) :
    Gap rest gap := by
  obtain ⟨body, cs, rfl, _, hfalse, _, hcs⟩ := gap_split_of_trivia h
  rw [hfalse rfl]
  exact hcs

/-! ## Tilings -/

namespace Lexer

/-- The token that spells `cs` after the text `before`. -/
def Scanned.spelling (file : String) (before : List Char) (lexeme : Lexeme) (cs : List Char) :
    Scanned :=
  ⟨⟨lexeme.kind, String.ofList cs, ⟨file, .ofFront before, .ofFront (before ++ cs)⟩⟩,
    lexeme.terminated⟩

/-- The end of the document `text`. -/
def Scanned.ending (file : String) (text : List Char) : Scanned :=
  ⟨⟨.eof, "", ⟨file, .ofFront text, .ofFront text⟩⟩, true⟩

/-- `Tiling file front rest scanned`: the tokens of `rest`, which follows `front` in the document,
are `scanned`. -/
inductive Tiling (file : String) : List Char → List Char → List Scanned → Prop
  | ending {front gap : List Char} (hgap : trivia false (gap ++ []) = gap.length) :
      Tiling file front gap [.ending file (front ++ gap)]
  | token {front gap tail rest : List Char} {c : Char} {scanned : List Scanned}
      (lexeme : Lexeme)
      (hgap : trivia false (gap ++ c :: (tail ++ rest)) = gap.length)
      (hread : Lexeme.read (lastOnLine (front ++ gap)) c (tail ++ rest) = lexeme)
      (hmore : lexeme.more = tail.length)
      (next : Tiling file (front ++ gap ++ c :: tail) rest scanned) :
      Tiling file front (gap ++ c :: (tail ++ rest))
        (.spelling file (front ++ gap) lexeme (c :: tail) :: scanned)

/-- **Every scan is a tiling.** -/
theorem tiling_scan (file : String) (front rest : List Char) :
    Tiling file front rest (scan (.between file front rest)) := by
  rw [scan]
  obtain ⟨gap, hgap⟩ : ∃ gap, gap = rest.take (trivia false rest) := ⟨_, rfl⟩
  have hlen : trivia false rest = gap.length := by
    rw [hgap, List.length_take, Nat.min_eq_left (trivia_le false rest)]
  have hsplit : rest = gap ++ rest.drop (trivia false rest) := by
    rw [hgap, List.take_append_drop]
  split
  · rename_i hd
    simp only [Cursor.rest_between, Cursor.skip_between, Cursor.spanFrom_between,
      Cursor.pos_between] at hd ⊢
    rw [← hgap]
    rw [hd, List.append_nil] at hsplit
    subst hsplit
    exact .ending (by rw [List.append_nil]; exact hlen)
  · rename_i c cs hd
    simp only [Cursor.rest_between, Cursor.skip_between] at hd
    simp only [Cursor.rest_between, Cursor.skip_between, Cursor.spanFrom_between,
      Cursor.pos_between, Cursor.prev_between, hd, ← hgap, List.take_succ_cons,
      List.drop_succ_cons]
    obtain ⟨lexeme, hlex⟩ : ∃ l, l = Lexeme.read (lastOnLine (front ++ gap)) c cs := ⟨_, rfl⟩
    have hmore : lexeme.more = (cs.take lexeme.more).length := by
      rw [List.length_take, Nat.min_eq_left]
      rw [hlex]
      exact Lexeme.more_read_le ..
    rw [← hlex]
    have hcs : cs.take lexeme.more ++ cs.drop lexeme.more = cs := List.take_append_drop ..
    have hrest : rest = gap ++ c :: (cs.take lexeme.more ++ cs.drop lexeme.more) := by
      rw [hcs, ← hd]
      exact hsplit
    have next := tiling_scan file (front ++ gap ++ c :: cs.take lexeme.more) (cs.drop lexeme.more)
    have := Tiling.token lexeme (by rw [← hrest]; exact hlen) (by rw [hcs]; exact hlex.symm) hmore next
    rw [← hrest] at this
    exact this
termination_by rest.length
decreasing_by
  have hl := congrArg List.length hrest
  simp only [List.length_append, List.length_cons] at hl
  omega

/-- The tokens of a document tile its text. -/
theorem tiling_tokenize (file text : String) :
    ∃ scanned, Tiling file [] text.toList scanned ∧
      tokenize file text = (scanned.map (·.token), scanned.filterMap Scanned.diagnostic?) :=
  ⟨_, tiling_scan file [] text.toList, rfl⟩

/-! ## Every tiling is a scan -/

/-- What is left of a text that is a gap. -/
theorem scan_gap (file : String) {front gap : List Char}
    (hgap : trivia false gap = gap.length) :
    scan (.between file front gap) = [.ending file (front ++ gap)] := by
  rw [scan]
  simp only [Cursor.rest_between, Cursor.skip_between]
  split
  · simp [hgap, Scanned.ending]
  · rename_i hd
    simp [hgap] at hd

/-- A gap and the lexeme behind it. -/
theorem scan_token (file : String) {front gap tail rest : List Char} {c : Char} {lexeme : Lexeme}
    (hgap : trivia false (gap ++ c :: (tail ++ rest)) = gap.length)
    (hread : Lexeme.read (lastOnLine (front ++ gap)) c (tail ++ rest) = lexeme)
    (hmore : lexeme.more = tail.length) :
    scan (.between file front (gap ++ c :: (tail ++ rest))) =
      .spelling file (front ++ gap) lexeme (c :: tail) ::
        scan (.between file (front ++ gap ++ c :: tail) rest) := by
  rw [scan]
  simp only [Cursor.rest_between, Cursor.skip_between]
  split
  · rename_i hd
    simp [hgap] at hd
  · rename_i d ds hd
    rw [hgap, Cursor.skip_between, Cursor.rest_between, List.drop_left' rfl] at hd
    obtain ⟨rfl, rfl⟩ := List.cons.inj hd
    simp only [hgap, List.take_left' rfl, List.drop_left' rfl, Cursor.prev_between, hread, hmore,
      List.take_succ_cons, List.drop_succ_cons, Cursor.spanFrom_between, Cursor.pos_between]
    rfl

/-- **A text has one tiling**: the scan. -/
theorem Tiling.scan_eq {file : String} {front rest : List Char} {scanned : List Scanned}
    (h : Tiling file front rest scanned) : scan (.between file front rest) = scanned := by
  induction h with
  | ending hgap => exact scan_gap file (by rwa [List.append_nil] at hgap)
  | token lexeme hgap hread hmore next ih => rw [scan_token file hgap hread hmore, ih]

/-! ## The tokens of a tiling -/

/-- `Spells text before c tail lexeme`: at the place after `before`, the text has a lexeme that
starts with `c` and goes on with `tail`. -/
structure Spells (text before : List Char) (c : Char) (tail : List Char) (lexeme : Lexeme) :
    Prop where
  text_eq : ∃ after, text = before ++ (c :: (tail ++ after)) ∧
    Lexeme.read (lastOnLine before) c (tail ++ after) = lexeme
  more_eq : lexeme.more = tail.length
  not_blank : Text.isBlank c = false
  not_hash : c ≠ '#'

namespace Spells

variable {text before tail : List Char} {c : Char} {lexeme : Lexeme}

theorem prefix_text (h : Spells text before c tail lexeme) : before ++ c :: tail <+: text := by
  obtain ⟨after, rfl, _⟩ := h.text_eq
  exact ⟨after, by simp⟩

theorem newline_not_mem (h : Spells text before c tail lexeme) : '\n' ∉ c :: tail := by
  obtain ⟨after, _, rfl⟩ := h.text_eq
  have htail : '\n' ∉ tail := by
    have := Lexeme.newline_not_mem_read (lastOnLine before) c (tail ++ after)
    rwa [h.more_eq, List.take_left' rfl] at this
  have hc : '\n' ≠ c := by
    rintro rfl
    exact absurd h.not_blank (by simp)
  simp [hc, htail]

end Spells

namespace Tiling

variable {file : String} {front rest : List Char} {scanned : List Scanned}

/-- Every token of a tiling is the end of the document, or spells a lexeme of the text. -/
theorem mem_cases (h : Tiling file front rest scanned) {s : Scanned} (hs : s ∈ scanned) :
    s = .ending file (front ++ rest) ∨ ∃ before c tail lexeme, front <+: before ∧
      Spells (front ++ rest) before c tail lexeme ∧
        s = .spelling file before lexeme (c :: tail) := by
  induction h with
  | ending hgap => exact .inl (by simpa using hs)
  | @token front gap tail rest c scanned lexeme hgap hread hmore next ih =>
    have heq : front ++ gap ++ c :: tail ++ rest = front ++ (gap ++ c :: (tail ++ rest)) := by simp
    rcases List.mem_cons.mp hs with rfl | hs
    · have hc := not_blank_of_trivia hgap
      refine .inr ⟨front ++ gap, c, tail, lexeme, List.prefix_append .., ?_, rfl⟩
      exact ⟨⟨rest, by simp, hread⟩, hmore, hc.1, hc.2⟩
    · rcases ih hs with h | ⟨before, d, tail', lexeme', hp, hsp, h⟩
      · exact .inl (by rw [h, heq])
      · refine .inr ⟨before, d, tail', lexeme', ?_, by rw [← heq]; exact hsp, h⟩
        exact List.IsPrefix.trans ⟨gap ++ c :: tail, by simp⟩ hp

/-- The end of the document is the last token, and no other token is of its kind. -/
theorem eq_append_ending (h : Tiling file front rest scanned) :
    ∃ init, scanned = init ++ [.ending file (front ++ rest)] ∧
      ∀ s ∈ init, s.token.kind ≠ .eof := by
  induction h with
  | ending hgap => exact ⟨[], rfl, List.forall_mem_nil _⟩
  | @token front gap tail rest c scanned lexeme hgap hread hmore next ih =>
    obtain ⟨init, rfl, hinit⟩ := ih
    refine ⟨.spelling file (front ++ gap) lexeme (c :: tail) :: init, by simp, ?_⟩
    intro s hs
    rcases List.mem_cons.mp hs with rfl | hs
    · show lexeme.kind ≠ .eof
      rw [← hread]
      exact Lexeme.kind_read_ne_eof _ _ _
    · exact hinit s hs

/-- No token starts before the text that is tiled. -/
theorem le_start (h : Tiling file front rest scanned) {s : Scanned} (hs : s ∈ scanned) :
    Text.byteSize front ≤ s.token.span.start.offset := by
  rcases h.mem_cases hs with rfl | ⟨before, c, tail, lexeme, hp, _, rfl⟩
  · exact Text.byteSize_le_of_prefix (List.prefix_append ..)
  · exact Text.byteSize_le_of_prefix hp

/-- Tokens stand in order and do not overlap. -/
theorem ordered (h : Tiling file front rest scanned) :
    scanned.Pairwise fun a b => a.token.span.stop.offset ≤ b.token.span.start.offset := by
  induction h with
  | ending hgap => exact List.pairwise_singleton ..
  | token lexeme hgap hread hmore next ih =>
    exact List.pairwise_cons.mpr ⟨fun s hs => next.le_start hs, ih⟩

end Tiling

end Lexer

end AuroraLint
