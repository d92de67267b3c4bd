import AuroraLint.Document
import AuroraLint.Proofs.Header
import AuroraLint.Proofs.Line
import AuroraLint.Proofs.Tiling

/-!
# Real spans

* `Span.Real`   : a span that is a non-empty stretch of the document, with true positions.
* `TokenStream` : what every pass may rely on in the tokens of a document.

Main statements: `tokenStream_tokenize` — the tokens of a text are such a stream; in a stream the
spans of tokens, of what is merged from them, of headers and of lines are real.
-/

set_option autoImplicit false

namespace AuroraLint

/-- The span is a non-empty stretch of the document `file` with text `text`: it ends within the
text, and both its ends stand between two characters, on the line and column that counting gives. -/
structure Span.Real (file : String) (text : List Char) (s : Span) : Prop where
  file_eq : s.file = file
  start_lt_stop : s.start.offset < s.stop.offset
  stop_le : s.stop.offset ≤ Text.byteSize text
  start_true : s.start.TrueIn text
  stop_true : s.stop.TrueIn text

namespace Span

variable {file : String} {text : List Char} {a b : Span}

theorem real_of_true (hfile : a.file = file) (hlt : a.start.offset < a.stop.offset)
    (hstart : a.start.TrueIn text) (hstop : a.stop.TrueIn text) : a.Real file text :=
  ⟨hfile, hlt, hstop.offset_le, hstart, hstop⟩

/-- Of two real spans the merged one is real. -/
theorem Real.merge (ha : a.Real file text) (hb : b.Real file text) :
    (a.merge b).Real file text := by
  refine real_of_true ha.file_eq ?_ ?_ ?_
  · rw [merge_start_offset, merge_stop_offset]
    have := ha.start_lt_stop
    omega
  · simp only [Span.merge]
    split
    · exact ha.start_true
    · exact hb.start_true
  · simp only [Span.merge]
    split
    · exact ha.stop_true
    · exact hb.stop_true

theorem merge_start_le_left (a b : Span) : (a.merge b).start.offset ≤ a.start.offset := by
  rw [merge_start_offset]
  omega

/-- A real span has a text. -/
theorem Real.exists_slice? {s : Source} (h : a.Real s.name s.chars) :
    ∃ written, s.slice? a.start a.stop = some written := by
  obtain ⟨xs, hx, hstart⟩ := h.start_true
  obtain ⟨ys, hy, hstop⟩ := h.stop_true
  have hlt := h.start_lt_stop
  obtain ⟨mid, rfl⟩ : xs <+: ys := Text.prefix_of_byteSize_le hx hy (by
    rw [hstart, hstop] at hlt
    exact Nat.le_of_lt hlt)
  obtain ⟨back, hback⟩ := hy
  refine ⟨mid, Source.slice?_between (by rw [← hback, List.append_assoc]) ?_ ?_⟩
  · rw [hstart, Position.ofFront_offset]
  · rw [hstop, Position.ofFront_offset]

end Span

/-! ## Streams of tokens -/

/-- The tokens `ts` are those of the document `file` with text `text`, as far as the passes rely on
it. -/
structure TokenStream (file : String) (text : List Char) (ts : List Token) : Prop where
  endsInEof : EndsInEof ts
  /-- Tokens stand in order and do not overlap. -/
  ordered : ts.Pairwise fun a b => a.span.stop.offset ≤ b.span.start.offset
  /-- Every token but the end of the document spells a lexeme of the text. -/
  spelled : ∀ t ∈ ts, t.kind ≠ .eof → ∃ before c tail lexeme,
    Lexer.Spells text before c tail lexeme ∧
      t = (Lexer.Scanned.spelling file before lexeme (c :: tail)).token

/-- The tokens of a text are a stream. -/
theorem Lexer.Tiling.tokenStream {file : String} {text : List Char} {scanned : List Lexer.Scanned}
    (h : Lexer.Tiling file [] text scanned) : TokenStream file text (scanned.map (·.token)) := by
  refine ⟨?_, List.pairwise_map.mpr h.ordered, ?_⟩
  · obtain ⟨init, rfl, hinit⟩ := h.eq_append_ending
    exact ⟨init.map (·.token), (Lexer.Scanned.ending file text).token, by simp, rfl,
      by simpa using hinit⟩
  · intro t ht hk
    obtain ⟨s, hs, rfl⟩ := List.mem_map.mp ht
    rcases h.mem_cases hs with rfl | ⟨before, c, tail, lexeme, _, hsp, rfl⟩
    · exact absurd rfl hk
    · exact ⟨before, c, tail, lexeme, by simpa using hsp, rfl⟩

theorem tokenStream_tokenize (file text : String) :
    TokenStream file text.toList (Lexer.tokenize file text).1 := by
  obtain ⟨scanned, htiling, heq⟩ := Lexer.tiling_tokenize file text
  rw [heq]
  exact htiling.tokenStream

/-- A lexeme of the text has a real span. -/
theorem Lexer.Spells.real {text before tail : List Char} {c : Char} {lexeme : Lexeme}
    (h : Lexer.Spells text before c tail lexeme) (file : String) :
    (Lexer.Scanned.spelling file before lexeme (c :: tail)).token.span.Real file text := by
  have hp := h.prefix_text
  refine Span.real_of_true rfl ?_ (Position.trueIn_ofFront ((List.prefix_append ..).trans hp))
    (Position.trueIn_ofFront hp)
  have := c.utf8Size_pos
  simp only [Lexer.Scanned.spelling, Position.ofFront_offset, Text.byteSize_append,
    Text.byteSize_cons]
  omega

/-- A parameter reaches from one to another of the tokens it is read from. -/
theorem Param.span_of_ofTokens? {part : List Token} {p : Param}
    (hp : Param.ofTokens? part = some p) :
    ∃ a ∈ part, ∃ b ∈ part, p.span = a.span.merge b.span := by
  unfold Param.ofTokens? at hp
  split at hp
  · rename_i name
    split at hp
    · obtain rfl := Option.some.inj hp
      exact ⟨name, by simp, name, by simp, by simp⟩
    · cases hp
  · rename_i name colon type
    split at hp
    · obtain rfl := Option.some.inj hp
      exact ⟨name, by simp, type, by simp, rfl⟩
    · cases hp
  · rename_i name colon type mark
    split at hp
    · obtain rfl := Option.some.inj hp
      exact ⟨name, by simp, mark, by simp, rfl⟩
    · cases hp
  · cases hp

namespace TokenStream

variable {file : String} {text : List Char} {ts : List Token}

/-- Every token but the end of the document has a real span. -/
theorem real_of_mem (h : TokenStream file text ts) {t : Token} (ht : t ∈ ts) (hk : t.kind ≠ .eof) :
    t.span.Real file text := by
  obtain ⟨before, c, tail, lexeme, hsp, rfl⟩ := h.spelled t ht hk
  exact hsp.real file

theorem real (h : TokenStream file text ts) {i : Nat} (hi : i + 1 < ts.length) :
    (tokenAt ts i).span.Real file text :=
  h.real_of_mem (tokenAt_mem (by omega)) (h.endsInEof.kindAt_ne_eof hi)

/-- Every token but the last one spells a lexeme of the text. -/
theorem spelled_tokenAt (h : TokenStream file text ts) {i : Nat} (hi : i + 1 < ts.length) :
    ∃ before c tail lexeme, Lexer.Spells text before c tail lexeme ∧
      tokenAt ts i = (Lexer.Scanned.spelling file before lexeme (c :: tail)).token :=
  h.spelled _ (tokenAt_mem (by omega)) (h.endsInEof.kindAt_ne_eof hi)

/-- An identifier never spells a reserved word. -/
theorem keyword?_lexeme (h : TokenStream file text ts) {i : Nat} (hk : kindAt ts i = .identifier) :
    Kind.keyword? (tokenAt ts i).lexeme = none := by
  obtain ⟨before, c, tail, lexeme, hsp, heq⟩ :=
    h.spelled_tokenAt (h.endsInEof.succ_lt_of_eq hk nofun)
  obtain ⟨after, _, hread⟩ := hsp.text_eq
  have hkind : lexeme.kind = .identifier := by
    rw [kindAt, heq] at hk
    exact hk
  have hword := Lexeme.keyword?_of_read_identifier (hread.symm ▸ hkind)
  rw [hread, hsp.more_eq, List.take_left' rfl] at hword
  rw [heq]
  exact hword

theorem real_of_kind (h : TokenStream file text ts) {i : Nat} {k : Kind} (hk : kindAt ts i = k)
    (hne : k ≠ .eof) : (tokenAt ts i).span.Real file text :=
  h.real (h.endsInEof.succ_lt_of_eq hk hne)

/-- A later token starts later. -/
theorem start_le (h : TokenStream file text ts) {i j : Nat} (hij : i ≤ j) (hj : j < ts.length) :
    (tokenAt ts i).span.start.offset ≤ (tokenAt ts j).span.start.offset := by
  rcases Nat.lt_or_eq_of_le hij with hlt | rfl
  · have hreal := (h.real (i := i) (by omega)).start_lt_stop
    have hord := List.pairwise_iff_getElem.mp h.ordered i j (by omega) hj hlt
    rw [← tokenAt_eq_getElem, ← tokenAt_eq_getElem] at hord
    omega
  · exact Nat.le_refl _

/-- A later token stands on no earlier line. -/
theorem line_le (h : TokenStream file text ts) {i j : Nat} (hij : i ≤ j) (hj : j + 1 < ts.length) :
    (tokenAt ts i).line ≤ (tokenAt ts j).line :=
  (h.real (by omega)).start_true.line_le (h.real hj).start_true (h.start_le hij (by omega))

theorem starts_ordered (h : TokenStream file text ts) :
    ts.Pairwise fun a b => a.span.start.offset ≤ b.span.start.offset := by
  refine List.pairwise_iff_getElem.mpr fun i j hi hj hij => ?_
  have := h.start_le (Nat.le_of_lt hij) hj
  rwa [tokenAt_eq_getElem hi, tokenAt_eq_getElem hj] at this

/-- The span from one token to a later one. -/
theorem merge_real (h : TokenStream file text ts) {i j : Nat} (hi : i + 1 < ts.length)
    (hj : j + 1 < ts.length) :
    ((tokenAt ts i).span.merge (tokenAt ts j).span).Real file text :=
  (h.real hi).merge (h.real hj)

theorem extent_real (h : TokenStream file text ts) {e : Extent} (hlt : e.start < e.stop)
    (hstop : e.stop < ts.length) : (e.span ts).Real file text :=
  h.merge_real (by omega) (by omega)

theorem merge_start (h : TokenStream file text ts) {i j : Nat} (hij : i ≤ j) (hj : j < ts.length) :
    ((tokenAt ts i).span.merge (tokenAt ts j).span).start.offset =
      (tokenAt ts i).span.start.offset := by
  have := h.start_le hij hj
  rw [Span.merge_start_offset]
  omega

/-! ## Headers -/

theorem fnHeader_real (h : TokenStream file text ts) {header : FnHeader} {keyword opener : Nat}
    (hr : header.ReadAt ts keyword opener) (hlt : keyword < opener) :
    header.span.Real file text ∧
      header.span.start.offset = (tokenAt ts keyword).span.start.offset := by
  obtain ⟨hopener, hlast⟩ := hr.bounds h.endsInEof
  rw [hr.span_eq]
  exact ⟨h.merge_real (by omega) hlast, h.merge_start (by omega) (by omega)⟩

/-- Parameters stand before the parenthesis that closes their list. -/
theorem param_real (h : TokenStream file text ts) {opener closer : Nat} {p : Param}
    (hlt : opener < closer) (hcloser : closer < ts.length) (hp : p ∈ params ts opener closer) :
    p.span.Real file text ∧ p.span.start.offset ≤ (tokenAt ts closer).span.start.offset := by
  obtain ⟨e, he, hpart⟩ := List.mem_filterMap.mp hp
  obtain ⟨hstart, hne, hstop⟩ := mem_splitArguments hlt he
  obtain ⟨a, ha, b, hb, hspan⟩ := Param.span_of_ofTokens? hpart
  obtain ⟨i, _, hi, _, rfl⟩ := Extent.mem_tokens ha
  obtain ⟨j, _, hj, _, rfl⟩ := Extent.mem_tokens hb
  rw [hspan]
  refine ⟨h.merge_real (by omega) (by omega), ?_⟩
  calc ((tokenAt ts i).span.merge (tokenAt ts j).span).start.offset
      ≤ (tokenAt ts i).span.start.offset := Span.merge_start_le_left ..
    _ ≤ (tokenAt ts closer).span.start.offset := h.start_le (by omega) hcloser

/-- The parameters of a header stand before its last token. -/
theorem header_params_real (h : TokenStream file text ts) {header : FnHeader} {keyword opener : Nat}
    (hr : header.ReadAt ts keyword opener) {p : Param} (hp : p ∈ header.params) :
    p.span.Real file text ∧
      p.span.start.offset ≤ (tokenAt ts (header.last + 1)).span.start.offset := by
  have hlast := (hr.bounds h.endsInEof).2
  obtain ⟨closer, hclose, hparams, hann⟩ := hr.closes
  obtain ⟨hkind, hlt⟩ := callClose_spec hr.opens hclose
  have hcloser := h.endsInEof.succ_lt_of_eq hkind nofun
  have hle := (annotationAt_bounds h.endsInEof .arrow nofun hcloser).1
  rw [hann] at hle
  obtain ⟨hreal, hstart⟩ := h.param_real hlt (by omega) (hparams ▸ hp)
  exact ⟨hreal, Nat.le_trans hstart (h.start_le (by simp only at hle; omega) hlast)⟩

end TokenStream

/-! ## Lines -/

section Lines

variable {source : Source} {ts : List Token}

/-- The line of a token, cut where the token starts: both its ends are true places, and the token's
first character is between them. -/
theorem TokenStream.line_spec (h : TokenStream source.name source.chars ts) {i : Nat}
    (hi : i + 1 < ts.length) :
    ∃ before, before <+: source.chars ∧
      Text.byteSize before ≤ (tokenAt ts i).span.start.offset ∧
      source.position? (tokenAt ts i).line 1 = some (.ofFront before) ∧
      (source.lineEnd (tokenAt ts i).line).TrueIn source.chars ∧
      (tokenAt ts i).span.start.offset < (source.lineEnd (tokenAt ts i).line).offset := by
  obtain ⟨front, c, tail, lexeme, hsp, htok⟩ := h.spelled_tokenAt hi
  rw [htok]
  obtain ⟨after, htext, _⟩ := hsp.text_eq
  have hnewline : c ≠ '\n' := by
    rintro rfl
    exact absurd hsp.not_blank (by simp)
  have hreturn : c ≠ '\r' := by
    rintro rfl
    exact absurd hsp.not_blank (by simp)
  obtain ⟨before, x, line, hline, hat, rfl, hx, hcount, hbytes⟩ :=
    @Text.exists_lineAt front (tail ++ after) c hnewline
  rw [← htext] at hline hat hbytes
  rw [← hcount] at hline hbytes
  have hnum : (Lexer.Scanned.spelling source.name (before ++ x) lexeme (c :: tail)).token.line =
      before.count '\n' + 1 := by
    show 1 + (before ++ x).count '\n' = _
    rw [← hcount, Nat.add_comm]
  have hstrip := Text.prefix_stripReturn hx hreturn
  obtain ⟨behind, hbehind, _⟩ := hat.text_eq
  have hbefore : before <+: source.chars := ⟨line ++ behind, hbehind.symm⟩
  refine ⟨before, hbefore, ?_, ?_, ?_, ?_⟩
  · simp [Lexer.Scanned.spelling]
  · rw [hnum, Source.position?_eq_ofFront hline hat hbytes]
    simp
  · rw [hnum, Source.lineEnd_eq_ofFront hline hat hbytes]
    refine Position.trueIn_ofFront ?_
    rw [hbehind]
    exact List.prefix_append_right_inj .. |>.mpr
      ((Text.stripReturn_prefix line).trans (List.prefix_append ..))
  · rw [hnum, Source.lineEnd_eq_ofFront hline hat hbytes]
    have hle := Text.byteSize_le_of_prefix hstrip
    have := c.utf8Size_pos
    simp only [Lexer.Scanned.spelling, Position.ofFront_offset, Text.byteSize_append,
      Text.byteSize_cons, Text.byteSize_nil] at hle ⊢
    omega

/-- From a token to the end of its line. -/
theorem TokenStream.toLineEnd_real (h : TokenStream source.name source.chars ts) {i : Nat}
    (hi : i + 1 < ts.length) :
    (source.toLineEnd (tokenAt ts i).span.start).Real source.name source.chars := by
  obtain ⟨_, _, _, _, hstop, hlt⟩ := h.line_spec hi
  exact Span.real_of_true rfl hlt (h.real hi).start_true hstop

/-- The whole line of a token. -/
theorem TokenStream.lineSpan_real (h : TokenStream source.name source.chars ts) {i : Nat}
    (hi : i + 1 < ts.length) :
    (source.lineSpan (tokenAt ts i).line).Real source.name source.chars := by
  obtain ⟨before, hbefore, hle, hpos, hstop, hlt⟩ := h.line_spec hi
  have hline : (Position.ofFront before).line = (tokenAt ts i).line := by
    obtain ⟨_, _, heq⟩ := Option.map_eq_some_iff.mp hpos
    rw [← heq]
  rw [Source.lineSpan, hpos, Option.getD_some, Source.toLineEnd, hline]
  refine Span.real_of_true rfl ?_ (Position.trueIn_ofFront hbefore) hstop
  exact Nat.lt_of_le_of_lt hle hlt

end Lines

/-! ## Documents -/

/-- The tokens of the document are those of its source. -/
abbrev Document.Streamed (doc : Document) : Prop :=
  TokenStream doc.source.name doc.source.chars doc.tokens

theorem Document.streamed_ofText (uri text : String) : (Document.ofText uri text).Streamed :=
  tokenStream_tokenize uri text

end AuroraLint
