import AuroraLint.Proofs.LineByLine
import AuroraLint.Proofs.Line

/-!
# Tokens by line and column

The ends of a token are counted while the text is read. A source finds places by line and column,
on lines that have lost their carriage return. Both give the same place, except behind a carriage
return that a string literal has taken in.

* `Token.EndsInReturn` : the last character of a token is a carriage return.
* `Position.back`      : the place one character of one byte before.

Main statements: `Source.position?_ofFront` — a place on a line is found by its line and column;
`Lexer.Spells.cut_off_of_return` — only a string literal that its line cuts off ends in a carriage
return; `Lexer.position?_token` — the ends of a token are found by line and column exactly if it
does not.
-/

set_option autoImplicit false

namespace AuroraLint

/-- The place before a character of one byte that ends no line. -/
def Position.back (p : Position) : Position :=
  ⟨p.line, p.column - 1, p.offset - 1⟩

theorem Position.back_ofFront_return (front : List Char) :
    (ofFront (front ++ ['\r'])).back = ofFront front := by
  rw [← advance_ofFront]
  rfl

/-- The last character of the token is a carriage return. -/
def Token.EndsInReturn (t : Token) : Prop :=
  t.lexeme.toList.getLast? = some '\r'

instance (t : Token) : Decidable t.EndsInReturn :=
  inferInstanceAs (Decidable (_ = _))

/-! ## Places on a line -/

namespace Source

section Line

variable {s : Source} {before line x : List Char}
  (hline : s.rawLines[before.count '\n']? = some line) (hat : Text.LineAt s.chars before line)
  (hbytes : bytesOfLines (before.count '\n') s.rawLines = Text.byteSize before)

include hline hat hbytes

/-- **A place on a line is found by its line and column.** -/
theorem position?_ofFront (hx : x <+: Text.stripReturn line) :
    s.position? (Position.ofFront (before ++ x)).line (Position.ofFront (before ++ x)).column =
      some (.ofFront (before ++ x)) := by
  have hpos := Position.ofFront_lineAt hat (hx.trans (Text.stripReturn_prefix line))
  have hfound := position?_eq_ofFront hline hat hbytes (x.length + 1)
  rw [Nat.add_sub_cancel, ← List.prefix_iff_eq_take.mp hx] at hfound
  rw [← hfound, hpos]

/-- The place behind a carriage return is taken for the end of its line. -/
theorem position?_ofFront_return (hx : line = x ++ ['\r']) :
    s.position? (Position.ofFront (before ++ line)).line
      (Position.ofFront (before ++ line)).column = some (.ofFront (before ++ x)) := by
  have hpos := Position.ofFront_lineAt hat (List.prefix_refl line)
  have hstrip : Text.stripReturn line = x := by simp [Text.stripReturn, hx]
  have hfound := position?_eq_ofFront hline hat hbytes (line.length + 1)
  rw [Nat.add_sub_cancel, hstrip, List.take_of_length_le (by simp [hx])] at hfound
  rw [← hfound, hpos]

end Line

end Source

/-! ## Carriage returns in lexemes -/

/-- No lexeme but a string literal has a separator in it. -/
theorem Lexeme.separator_not_mem_read {prev : Option Char} {c q : Char} {cs : List Char}
    (hq : Separates q) (hk : (read prev c cs).kind ≠ .stringLiteral) :
    q ∉ cs.take (read prev c cs).more := by
  intro hmem
  obtain ⟨u, v, htake⟩ := List.append_of_mem hmem
  obtain ⟨rest, hcs⟩ : ∃ rest, cs = u ++ q :: rest :=
    ⟨v ++ cs.drop (read prev c cs).more, by
      rw [← List.cons_append, ← List.append_assoc, ← htake, List.take_append_drop]⟩
  have hread : read prev c cs = read prev c u := by
    rw [hcs]
    refine read_append_separator hq c u rest fun hc hprev => ?_
    exact absurd ((kind_read_eq_string_iff prev c cs).mpr ⟨hc, hprev⟩) hk
  have hlen := congrArg List.length htake
  have hmore := more_read_le prev c u
  rw [List.length_take, List.length_append, List.length_cons, hread] at hlen
  omega

namespace Lexer

namespace Spells

variable {text before tail : List Char} {c : Char} {lexeme : Lexeme}

/-- **Only a string literal that its line cuts off ends in a carriage return**: a closed one ends in
its quote, and any other lexeme ends before a blank. -/
theorem cut_off_of_return (h : Spells text before c tail lexeme)
    (hlast : (c :: tail).getLast? = some '\r') :
    lexeme.kind = .stringLiteral ∧ lexeme.terminated = false ∧
      ∃ after, text = before ++ (c :: tail ++ after) ∧ (after = [] ∨ after.head? = some '\n') := by
  obtain ⟨after, htext, hread⟩ := h.text_eq
  have htake : (tail ++ after).take lexeme.more = tail := List.take_left' h.more_eq.symm
  have htail : tail.getLast? = some '\r' := by
    cases hl : tail.getLast? with
    | none =>
      have hc : c = '\r' := by simpa [List.getLast?_eq_none_iff.mp hl] using hlast
      have := h.not_blank
      simp [hc] at this
    | some d => rwa [List.getLast?_cons, hl] at hlast
  have hkind : lexeme.kind = .stringLiteral := by
    apply Classical.byContradiction
    intro hk
    refine Lexeme.separator_not_mem_read (q := '\r') (by decide) (by rw [hread]; exact hk) ?_
    rw [hread, htake]
    exact List.mem_of_getLast? htail
  obtain ⟨_, hlexeme⟩ := Lexeme.string_of_read hread hkind
  have hmore : (Lexeme.stringTail c (tail ++ after)).1 = tail.length := by
    rw [← h.more_eq, hlexeme]
  have hterminated : (Lexeme.stringTail c (tail ++ after)).2 = false := by
    cases hclosed : (Lexeme.stringTail c (tail ++ after)).2 with
    | false => rfl
    | true =>
      have hquote := Lexeme.getLast?_stringTail hclosed
      rw [hmore, List.take_left' rfl, htail] at hquote
      simp at hquote
  refine ⟨hkind, by rw [hlexeme]; exact hterminated, after, htext, ?_⟩
  have hcut := Lexeme.drop_stringTail_of_not_closed hterminated
  rwa [hmore, List.drop_left' rfl] at hcut

/-- A lexeme stands on one line of the text. -/
theorem exists_line (h : Spells text before c tail lexeme) :
    ∃ above x line, (Text.rawLines text)[above.count '\n']? = some line ∧
      Text.LineAt text above line ∧
      Source.bytesOfLines (above.count '\n') (Text.rawLines text) = Text.byteSize above ∧
      before = above ++ x ∧ x ++ c :: tail <+: line := by
  obtain ⟨after, htext, _⟩ := h.text_eq
  have hnewline := h.newline_not_mem
  have hc : c ≠ '\n' := fun hc => hnewline (by simp [hc])
  obtain ⟨above, x, line, hline, hat, hbefore, hx, hcount, hbytes⟩ :=
    @Text.exists_lineAt before (tail ++ after) c hc
  rw [← htext] at hline hat hbytes
  rw [← hcount] at hline hbytes
  refine ⟨above, x, line, hline, hat, hbytes, hbefore, ?_⟩
  obtain ⟨behind, hbehind, hend⟩ := hat.text_eq
  have hsame : (x ++ c :: tail) ++ after = line ++ behind := by
    rw [hbehind, hbefore, List.append_assoc] at htext
    simpa using (List.append_cancel_left htext).symm
  refine Text.prefix_of_append_eq hsame ?_ hend
  have hxline : '\n' ∉ x := fun hmem => hat.newline_not_mem (hx.subset (by simp [hmem]))
  simp only [List.mem_append, not_or]
  exact ⟨hxline, hnewline⟩

/-! ## The ends of a token -/

variable {source : Source}

/-- The start of a lexeme is found by its line and column. -/
theorem start_found (h : Spells source.chars before c tail lexeme) :
    source.position? (Position.ofFront before).line (Position.ofFront before).column =
      some (.ofFront before) := by
  obtain ⟨above, x, line, hline, hat, hbytes, rfl, hx⟩ := h.exists_line
  have hreturn : c ≠ '\r' := by
    rintro rfl
    exact absurd h.not_blank (by simp)
  have hc : x ++ [c] <+: line := List.IsPrefix.trans ⟨tail, by simp⟩ hx
  have hstrip := Text.prefix_stripReturn hc hreturn
  exact Source.position?_ofFront hline hat hbytes ((List.prefix_append x [c]).trans hstrip)

/-- So is its end, if that is no carriage return, and it is within its line. -/
theorem stop_found (h : Spells source.chars before c tail lexeme)
    (hlast : (c :: tail).getLast? ≠ some '\r') :
    let stop := Position.ofFront (before ++ c :: tail)
    source.position? stop.line stop.column = some stop ∧
      stop.offset ≤ (source.lineEnd stop.line).offset := by
  intro stop
  obtain ⟨above, x, line, hline, hat, hbytes, rfl, hx⟩ := h.exists_line
  have hstrip : x ++ c :: tail <+: Text.stripReturn line := by
    obtain ⟨init, last, hsplit⟩ := (List.eq_nil_or_concat (c :: tail)).resolve_left (by simp)
    rw [List.concat_eq_append] at hsplit
    rw [hsplit, ← List.append_assoc] at hx ⊢
    refine Text.prefix_stripReturn hx fun hreturn => hlast ?_
    rw [hsplit, hreturn, List.getLast?_concat]
  have hplace : stop = .ofFront (above ++ (x ++ c :: tail)) := by
    simp only [stop, List.append_assoc]
  rw [hplace]
  refine ⟨Source.position?_ofFront hline hat hbytes hstrip, ?_⟩
  rw [Position.ofFront_lineAt hat hx, Source.lineEnd_eq_ofFront hline hat hbytes,
    Position.ofFront_offset, Text.byteSize_append above]
  exact Nat.add_le_add_left (Text.byteSize_le_of_prefix hstrip) _

/-- Behind a carriage return the place in front of it is found, which ends the line. -/
theorem stop_found_before (h : Spells source.chars before c tail lexeme)
    (hlast : (c :: tail).getLast? = some '\r') :
    let stop := Position.ofFront (before ++ c :: tail)
    source.position? stop.line stop.column = some stop.back ∧
      (source.lineEnd stop.line).offset < stop.offset := by
  intro stop
  obtain ⟨above, x, line, hline, hat, hbytes, rfl, hx⟩ := h.exists_line
  obtain ⟨_, _, after, htext, hafter⟩ := h.cut_off_of_return hlast
  obtain ⟨init, hinit⟩ := List.getLast?_eq_some_iff.mp hlast
  -- the literal reaches to the end of its line
  have hrow : line = x ++ init ++ ['\r'] := by
    obtain ⟨behind, hbehind, _⟩ := hat.text_eq
    have hsame : line ++ behind = (x ++ c :: tail) ++ after := by
      rw [hbehind, List.append_assoc] at htext
      simpa using List.append_cancel_left htext
    have hle := Text.prefix_of_append_eq hsame hat.newline_not_mem hafter
    rw [hle.eq_of_length_le hx.length_le, hinit, List.append_assoc]
  have hplace : stop = .ofFront (above ++ line) := by
    simp only [stop, hrow, hinit, List.append_assoc]
  have hback : stop.back = .ofFront (above ++ (x ++ init)) := by
    rw [hplace, hrow, ← List.append_assoc above, Position.back_ofFront_return]
  have hstrip : Text.stripReturn line = x ++ init := by simp [Text.stripReturn, hrow]
  rw [hback, hplace]
  refine ⟨Source.position?_ofFront_return hline hat hbytes hrow, ?_⟩
  have hreturn : 0 < Text.byteSize ['\r'] := Text.byteSize_pos (by simp)
  rw [Position.ofFront_lineAt hat (List.prefix_refl line),
    Source.lineEnd_eq_ofFront hline hat hbytes, hstrip, hrow]
  simp only [Position.ofFront_offset, Text.byteSize_append]
  omega

end Spells

/-- **Both ways to count give the same places, but for a carriage return.** Every token starts
where its line and column are found. It ends there too, and within its line, exactly if its last
character is no carriage return. Otherwise the place in front of the return is found, and the token
is a string literal that was reported as cut off by its line. -/
theorem position?_token (uri text : String) {t : Token} (ht : t ∈ (tokenize uri text).1)
    (hk : t.kind ≠ .eof) :
    let source : Source := ⟨uri, text⟩
    let found := fun p : Position => source.position? p.line p.column
    found t.span.start = some t.span.start ∧
      (found t.span.stop = some t.span.stop ↔ ¬ t.EndsInReturn) ∧
      (t.span.stop.offset ≤ (source.lineEnd t.span.stop.line).offset ↔ ¬ t.EndsInReturn) ∧
      (t.EndsInReturn → found t.span.stop = some t.span.stop.back ∧ t.kind = .stringLiteral ∧
        Diagnostic.error "unterminated string literal" t.span ∈ (tokenize uri text).2) := by
  intro source found
  obtain ⟨scanned, htiling, heq⟩ := tiling_tokenize uri text
  rw [heq] at ht ⊢
  obtain ⟨s, hs, rfl⟩ := List.mem_map.mp ht
  rcases htiling.mem_cases hs with rfl | ⟨before, c, tail, lexeme, _, hsp, rfl⟩
  · exact absurd rfl hk
  have hsp' : Spells source.chars before c tail lexeme := hsp
  have hends : (Scanned.spelling uri before lexeme (c :: tail)).token.EndsInReturn ↔
      (c :: tail).getLast? = some '\r' := by
    simp [Token.EndsInReturn, Scanned.spelling]
  rw [hends]
  refine ⟨hsp'.start_found, ?_⟩
  by_cases hlast : (c :: tail).getLast? = some '\r'
  · obtain ⟨hfound, hpast⟩ := hsp'.stop_found_before hlast
    obtain ⟨hkind, hterminated, _⟩ := hsp.cut_off_of_return hlast
    have hcolumn : 0 < (Position.ofFront (before ++ c :: tail)).column :=
      Nat.lt_add_right _ Nat.one_pos
    have hnot : ¬ (c :: tail).getLast? ≠ some '\r' := fun hne => hne hlast
    refine ⟨iff_of_false (fun hsame => ?_) hnot, iff_of_false (Nat.not_le_of_lt hpast) hnot,
      fun _ => ⟨hfound, hkind, ?_⟩⟩
    · have hback := congrArg Position.column (Option.some.inj (hfound.symm.trans hsame))
      simp only [Position.back, Scanned.spelling] at hback
      omega
    · refine List.mem_filterMap.mpr ⟨_, hs, ?_⟩
      have hopen : (Scanned.spelling uri before lexeme (c :: tail)).terminated = false :=
        hterminated
      simp [Scanned.diagnostic?, hopen]
  · obtain ⟨hfound, hwithin⟩ := hsp'.stop_found hlast
    exact ⟨iff_of_true hfound hlast, iff_of_true hwithin hlast, fun h => absurd h hlast⟩

/-- A name, and a string literal that a line feed cuts off behind a carriage return: all that is
wrong is the end of the literal. -/
theorem position?_token_return :
    let text := "é = \"a\r\n"
    let name : Token := ⟨.unknown, "é", ⟨"m", ⟨1, 1, 0⟩, ⟨1, 2, 2⟩⟩⟩
    let literal : Token := ⟨.stringLiteral, "\"a\r", ⟨"m", ⟨1, 5, 5⟩, ⟨1, 8, 8⟩⟩⟩
    let source : Source := ⟨"m", text⟩
    (name ∈ (tokenize "m" text).1 ∧ source.position? 1 2 = some name.span.stop) ∧
      literal ∈ (tokenize "m" text).1 ∧ source.position? 1 5 = some literal.span.start ∧
        source.position? 1 8 = some ⟨1, 7, 7⟩ := by
  intro text name literal source
  have hname : name ∈ (tokenize "m" text).1 := by decide +kernel
  have hliteral : literal ∈ (tokenize "m" text).1 := by decide +kernel
  obtain ⟨_, hstop, _⟩ := position?_token "m" text hname nofun
  obtain ⟨hstart, _, _, hreturn⟩ := position?_token "m" text hliteral nofun
  exact ⟨⟨hname, hstop.mpr (by decide +kernel)⟩, hliteral, hstart, (hreturn (by decide +kernel)).1⟩

/-- The string literal of a line that ends in a carriage return and a line feed reaches past the
end of its line. -/
theorem position?_ne_stop_of_return :
    let text := "\"a\r\n"
    let source : Source := ⟨"m", text⟩
    ¬ ∀ t ∈ (tokenize "m" text).1, t.kind ≠ .eof →
      source.position? t.span.start.line t.span.start.column = some t.span.start ∧
        source.position? t.span.stop.line t.span.stop.column = some t.span.stop := by
  decide +kernel

end Lexer

end AuroraLint
