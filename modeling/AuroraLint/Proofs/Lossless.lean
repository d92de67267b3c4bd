import AuroraLint.Proofs.Tiling

/-!
# Tokens give the text back

* `GapsFrom` : between the tokens of a list there is nothing but gaps.
* `Lossless` : a list of tokens from which the text can be read off, with true positions.

Main statement: `tokenize_lossless` — the tokens of every text are lossless.
-/

set_option autoImplicit false

namespace AuroraLint

/-- Before the first token, from byte offset `offset` on, and between any two tokens that follow
each other the text has only gaps. -/
def GapsFrom (text : List Char) (offset : Nat) : List Token → Prop
  | [] => True
  | t :: ts =>
    (∃ front gap after, text = front ++ (gap ++ after) ∧ Text.byteSize front = offset ∧
      Text.byteSize (front ++ gap) = t.span.start.offset ∧ Gap after gap) ∧
    GapsFrom text t.span.stop.offset ts

/-- The tokens `ts` are those of the text and say truly where they stand. -/
structure Lossless (text : List Char) (ts : List Token) : Prop where
  /-- One token is the end of the document. It is the last, empty, and at the end of the text. -/
  ending : ∃ init last, ts = init ++ [last] ∧ (∀ t ∈ init, t.kind ≠ .eof) ∧ last.kind = .eof ∧
    last.lexeme = "" ∧ last.span.start = last.span.stop ∧
    last.span.start.offset = Text.byteSize text
  /-- Every other token is a non-empty piece of the text, on one line. -/
  lexemes : ∀ t ∈ ts, t.kind ≠ .eof → t.lexeme ≠ "" ∧
    Text.slice? t.span.start.offset t.span.stop.offset text = some t.lexeme.toList ∧
    t.span.start.line = t.span.stop.line
  /-- Tokens stand in order and do not overlap. -/
  ordered : ts.Pairwise fun a b => a.span.stop.offset ≤ b.span.start.offset
  /-- What no token covers is blanks and comments. -/
  gaps : GapsFrom text 0 ts
  /-- Line and column are those that counting gives. -/
  positions : ∀ t ∈ ts, t.span.start.TrueIn text ∧ t.span.stop.TrueIn text

namespace Lexer

/-! ## One lexeme -/

namespace Spells

variable {text before tail : List Char} {c : Char} {lexeme : Lexeme}

/-- The lexeme is the text between the two offsets of its token. -/
theorem slice?_eq (h : Spells text before c tail lexeme) :
    Text.slice? (Text.byteSize before) (Text.byteSize (before ++ c :: tail)) text =
      some (c :: tail) := by
  obtain ⟨after, rfl, _⟩ := h.text_eq
  rw [Text.byteSize_append]
  exact Text.slice?_byteSize before (c :: tail) after

/-- A lexeme starts and ends on one line. -/
theorem line_eq (h : Spells text before c tail lexeme) :
    (Position.ofFront before).line = (Position.ofFront (before ++ c :: tail)).line := by
  simp [Position.ofFront, List.count_append, List.count_eq_zero.mpr h.newline_not_mem]

end Spells

/-! ## All tokens -/

namespace Tiling

variable {file : String} {front rest : List Char} {scanned : List Scanned}

theorem positions_true (h : Tiling file front rest scanned) {s : Scanned} (hs : s ∈ scanned) :
    s.token.span.start.TrueIn (front ++ rest) ∧ s.token.span.stop.TrueIn (front ++ rest) := by
  rcases h.mem_cases hs with rfl | ⟨before, c, tail, lexeme, _, hsp, rfl⟩
  · exact ⟨Position.trueIn_ofFront List.prefix_rfl, Position.trueIn_ofFront List.prefix_rfl⟩
  · have hp := hsp.prefix_text
    exact ⟨Position.trueIn_ofFront ((List.prefix_append ..).trans hp), Position.trueIn_ofFront hp⟩

theorem lexeme_spec (h : Tiling file front rest scanned) {s : Scanned} (hs : s ∈ scanned)
    (hk : s.token.kind ≠ .eof) :
    s.token.lexeme ≠ "" ∧
      Text.slice? s.token.span.start.offset s.token.span.stop.offset (front ++ rest) =
        some s.token.lexeme.toList ∧
      s.token.span.start.line = s.token.span.stop.line := by
  rcases h.mem_cases hs with rfl | ⟨before, c, tail, lexeme, _, hsp, rfl⟩
  · exact absurd rfl hk
  · refine ⟨?_, ?_, hsp.line_eq⟩
    · intro he
      simpa [Scanned.spelling] using congrArg String.toList he
    · simpa [Scanned.spelling] using hsp.slice?_eq

theorem gapsFrom (h : Tiling file front rest scanned) :
    GapsFrom (front ++ rest) (Text.byteSize front) (scanned.map (·.token)) := by
  induction h with
  | @ending front gap hgap =>
    exact ⟨⟨front, gap, [], by simp, rfl, rfl, Gap.of_trivia hgap⟩, trivial⟩
  | @token front gap tail rest c scanned lexeme hgap hread hmore next ih =>
    refine ⟨⟨front, gap, c :: (tail ++ rest), rfl, rfl, rfl, Gap.of_trivia hgap⟩, ?_⟩
    simpa [Scanned.spelling] using ih

end Tiling

/-- **Tokenizing loses nothing, and every position is the true one.** -/
theorem tokenize_lossless (file text : String) :
    Lossless text.toList (tokenize file text).1 := by
  obtain ⟨scanned, htiling, heq⟩ := tiling_tokenize file text
  rw [heq]
  refine ⟨?_, ?_, ?_, htiling.gapsFrom, ?_⟩
  · obtain ⟨init, rfl, hinit⟩ := htiling.eq_append_ending
    refine ⟨init.map (·.token), (Scanned.ending file text.toList).token, by simp, ?_, rfl, rfl, rfl,
      rfl⟩
    simpa using hinit
  · intro t ht
    obtain ⟨s, hs, rfl⟩ := List.mem_map.mp ht
    exact htiling.lexeme_spec hs
  · exact List.pairwise_map.mpr htiling.ordered
  · intro t ht
    obtain ⟨s, hs, rfl⟩ := List.mem_map.mp ht
    exact htiling.positions_true hs

end Lexer

end AuroraLint
