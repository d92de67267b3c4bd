import AuroraLint.Proofs.LineByLine
import AuroraLint.Proofs.Moved
import AuroraLint.Proofs.Respelled.Offsets
import Mathlib.Data.List.Induction

/-!
# Line endings do not matter

A line may end in a line feed, or in a carriage return and a line feed.

* `Text.withReturns`  : a text with a carriage return before every line feed.
* `OffsetMap.returns` : where its characters are found.
* `Scanned.Returned`  : a token of a text, and the same token of the text with returns.

The carriage return is a blank between tokens, is passed over in a comment and is stripped from its
line; inside an expression it stands before a line feed, and a text with a line feed in it is typed
by its two ends. It could only be told by a string literal that is not closed on its line. Main
statement: `analyze_withReturns` — a text without carriage returns and without such literals has the
same diagnostics with returns, at the same lines and columns.
-/

set_option autoImplicit false

namespace AuroraLint

/-! ## Texts with returns -/

namespace Text

/-- The text with a carriage return before every line feed. -/
def withReturns (cs : List Char) : List Char :=
  cs.flatMap fun c => if c = '\n' then ['\r', '\n'] else [c]

@[simp] theorem withReturns_nil : withReturns [] = [] := rfl

@[simp] theorem withReturns_append (xs ys : List Char) :
    withReturns (xs ++ ys) = withReturns xs ++ withReturns ys :=
  List.flatMap_append

@[simp] theorem withReturns_newline (cs : List Char) :
    withReturns ('\n' :: cs) = '\r' :: '\n' :: withReturns cs := rfl

theorem withReturns_cons_of_ne {c : Char} (hc : c ≠ '\n') (cs : List Char) :
    withReturns (c :: cs) = c :: withReturns cs := by
  rw [withReturns, List.flatMap_cons, if_neg hc]
  rfl

theorem withReturns_eq_self {cs : List Char} (h : '\n' ∉ cs) : withReturns cs = cs := by
  induction cs with
  | nil => rfl
  | cons c cs ih =>
    simp only [List.mem_cons, not_or] at h
    rw [withReturns_cons_of_ne (Ne.symm h.1), ih h.2]

theorem count_newline_withReturns (cs : List Char) :
    (withReturns cs).count '\n' = cs.count '\n' := by
  induction cs with
  | nil => rfl
  | cons c cs ih =>
    by_cases hc : c = '\n'
    · subst hc
      simp [ih]
    · rw [withReturns_cons_of_ne hc, List.count_cons_of_ne hc, List.count_cons_of_ne hc, ih]

theorem newline_mem_withReturns {cs : List Char} (h : '\n' ∈ cs) : '\n' ∈ withReturns cs := by
  rw [← List.count_pos_iff, count_newline_withReturns]
  exact List.count_pos_iff.mpr h

theorem getLast?_withReturns (cs : List Char) : (withReturns cs).getLast? = cs.getLast? := by
  rcases List.eq_nil_or_concat cs with rfl | ⟨xs, c, rfl⟩
  · rfl
  · rw [List.concat_eq_append, withReturns_append]
    by_cases hc : c = '\n'
    · subst hc
      simp
    · rw [withReturns_cons_of_ne hc]
      simp

/-- The characters since the last line feed. -/
theorem lineFront_withReturns (cs : List Char) :
    (withReturns cs).reverse.takeWhile (· != '\n') = cs.reverse.takeWhile (· != '\n') := by
  induction cs using List.reverseRecOn with
  | nil => rfl
  | append_singleton xs c ih =>
    rw [withReturns_append]
    by_cases hc : c = '\n'
    · subst hc
      simp
    · rw [withReturns_cons_of_ne hc]
      simp [hc, ih]

end Text

open Text (withReturns)

/-! ## Offsets -/

/-- The text with a character of two bytes for every line feed. Its characters stand where those of
the text with returns do. -/
def Text.widened (cs : List Char) : List Char :=
  cs.map fun c => if c = '\n' then '\u0085' else c

theorem Text.byteSize_widened (cs : List Char) :
    byteSize (widened cs) = byteSize (withReturns cs) := by
  induction cs with
  | nil => rfl
  | cons c cs ih =>
    by_cases hc : c = '\n'
    · subst hc
      simp only [widened, List.map_cons, byteSize_cons, withReturns_newline, if_true] at ih ⊢
      rw [ih, ← Nat.add_assoc]
      rfl
    · rw [withReturns_cons_of_ne hc, byteSize_cons, ← ih, widened, List.map_cons, if_neg hc,
        byteSize_cons]
      rfl

theorem Text.wider_widened (cs : List Char) :
    List.Forall₂ (fun c c' => c.utf8Size ≤ c'.utf8Size) cs (widened cs) := by
  induction cs with
  | nil => exact .nil
  | cons c cs ih =>
    refine .cons ?_ ih
    show c.utf8Size ≤ (if c = '\n' then '\u0085' else c).utf8Size
    split
    · rename_i hc
      subst hc
      decide
    · exact Nat.le_refl _

/-- Where the characters of a text stand in the text with returns. -/
def OffsetMap.returns (text : List Char) : OffsetMap :=
  .stretching (Text.wider_widened text)

theorem OffsetMap.returns_byteSize {text front : List Char} (h : front <+: text) :
    returns text (Text.byteSize front) = Text.byteSize (withReturns front) := by
  obtain ⟨rest, rfl⟩ := h
  rw [← Text.byteSize_widened]
  show stretch (front ++ rest) (Text.widened (front ++ rest)) _ = _
  rw [Text.widened, List.map_append]
  exact stretch_byteSize (List.length_map ..)

/-- A place keeps its line and column. -/
theorem Position.ofFront_withReturns {text front : List Char} (h : front <+: text) :
    ofFront (withReturns front) = (ofFront front).mapOffset (OffsetMap.returns text) := by
  simp only [ofFront, mapOffset, Text.count_newline_withReturns, Text.lineFront_withReturns,
    OffsetMap.returns_byteSize h]

theorem lastOnLine_withReturns (front : List Char) :
    lastOnLine (withReturns front) = lastOnLine front := by
  rw [lastOnLine, lastOnLine, Text.getLast?_withReturns]

/-! ## Gaps and lexemes -/

/-- A gap stays a gap: a return is a blank, and leaves a comment open. -/
theorem trivia_withReturns {inComment : Bool} {gap rest : List Char}
    (h : trivia inComment (gap ++ rest) = gap.length) :
    trivia inComment (withReturns gap ++ withReturns rest) = (withReturns gap).length := by
  induction gap generalizing inComment with
  | nil =>
    cases rest with
    | nil => rfl
    | cons c rest =>
      have hc : c ≠ '\n' := by
        rintro rfl
        exact trivia_cons_eq_zero h (.inr (.inl Text.isBlank_newline))
      rw [Text.withReturns_cons_of_ne hc]
      exact @trivia_of_cons inComment [] rest c h _
  | cons g gap ih =>
    obtain ⟨hg, hgap⟩ := trivia_cons_eq_succ_iff.mp h
    by_cases hn : g = '\n'
    · subst hn
      have hafter : commentAfter (commentAfter inComment '\r') '\n' =
          commentAfter inComment '\n' := by
        cases inComment <;> rfl
      refine trivia_cons_eq_succ_iff.mpr ⟨.inr (.inl Text.isBlank_return), ?_⟩
      refine trivia_cons_eq_succ_iff.mpr ⟨.inr (.inl Text.isBlank_newline), ?_⟩
      rw [hafter]
      exact ih hgap
    · rw [Text.withReturns_cons_of_ne hn]
      exact trivia_cons_eq_succ_iff.mpr ⟨hg, ih hgap⟩

namespace Lexeme

theorem stringTail_append_of_closed {prev : Char} {cs : List Char}
    (h : (stringTail prev cs).2 = true) (rest : List Char) :
    stringTail prev (cs ++ rest) = stringTail prev cs := by
  induction cs generalizing prev with
  | nil => cases h
  | cons c cs ih =>
    rw [stringTail] at h
    rw [List.cons_append, stringTail, stringTail]
    split
    · rfl
    · rename_i hquote
      rw [if_neg hquote] at h
      split
      · rfl
      · rename_i hnewline
        rw [if_neg hnewline] at h
        rw [ih h]

/-- **A lexeme that ends on its line is read alike.** What follows it up to the end of the line is
the same, and the return goes on no lexeme. -/
theorem read_withReturns {prev : Option Char} {c : Char} {cs : List Char}
    (h : (read prev c cs).terminated = true) :
    read prev c (withReturns cs) = read prev c cs := by
  by_cases hn : '\n' ∈ cs
  · obtain ⟨line, rest, rfl, hline⟩ := List.eq_append_cons_of_mem hn
    have hsplit : withReturns (line ++ '\n' :: rest) =
        (line ++ ['\r']) ++ '\n' :: withReturns rest := by
      rw [Text.withReturns_append, Text.withReturns_eq_self hline, Text.withReturns_newline]
      simp
    rw [hsplit, read_append_newline, read_append_newline]
    rw [read_append_newline] at h
    refine read_append_separator (by decide) c line [] fun hc hprev => ?_
    rw [read_of_string ⟨hc, hprev⟩] at h
    exact stringTail_append_of_closed h _
  · rw [Text.withReturns_eq_self hn]

end Lexeme

/-! ## Tokens -/

namespace Lexer

/-- The tokens of a text and of the text with returns, in the same place. -/
inductive Scanned.Returned (file : String) (text : List Char) : Scanned → Scanned → Prop
  | ending : Returned file text (.ending file text) (.ending file (withReturns text))
  | spelling {before cs rest : List Char} {lexeme : Lexeme} (htext : text = before ++ (cs ++ rest))
      (hcs : '\n' ∉ cs) :
      Returned file text (.spelling file before lexeme cs)
        (.spelling file (withReturns before) lexeme cs)

/-- **A tiled text is tiled alike with returns**, if all its literals are closed. The induction is
over the tiling: a gap grows by its returns, and a lexeme has none in it. -/
theorem Tiling.returned {file : String} {text front rest : List Char} {scanned : List Scanned}
    (h : Tiling file front rest scanned) (htext : text = front ++ rest)
    (hclosed : ∀ s ∈ scanned, s.terminated = true) :
    List.Forall₂ (Scanned.Returned file text) scanned
      (scan (.between file (withReturns front) (withReturns rest))) := by
  induction h with
  | @ending front gap hgap =>
    have hgap' : trivia false (withReturns gap) = (withReturns gap).length := by
      simpa using trivia_withReturns hgap
    rw [scan_gap file hgap', ← Text.withReturns_append, ← htext]
    exact .cons .ending .nil
  | @token front gap tail rest c scanned lexeme hgap hread hmore next ih =>
    have hc := not_blank_of_trivia hgap
    have hspells : Spells (front ++ gap ++ c :: (tail ++ rest)) (front ++ gap) c tail lexeme :=
      ⟨⟨rest, rfl, hread⟩, hmore, hc.1, hc.2⟩
    have hline : '\n' ∉ c :: tail := hspells.newline_not_mem
    have htail : '\n' ∉ tail := fun hmem => hline (List.mem_cons_of_mem c hmem)
    have hbehind : withReturns (c :: (tail ++ rest)) = c :: (tail ++ withReturns rest) := by
      rw [← List.cons_append, Text.withReturns_append, Text.withReturns_eq_self hline,
        List.cons_append]
    have hgap' := trivia_withReturns hgap
    rw [hbehind] at hgap'
    have hread' : Lexeme.read (lastOnLine (withReturns front ++ withReturns gap)) c
        (tail ++ withReturns rest) = lexeme := by
      have hterminated : lexeme.terminated = true := hclosed _ List.mem_cons_self
      rw [← hread] at hterminated
      rw [← Text.withReturns_append, lastOnLine_withReturns, ← Text.withReturns_eq_self htail,
        ← Text.withReturns_append, Lexeme.read_withReturns hterminated]
      exact hread
    have hplace : text = (front ++ gap) ++ (c :: tail ++ rest) := by
      rw [htext]
      simp
    have hnext := ih (by rw [hplace]; simp) fun s hs =>
      hclosed s (List.mem_cons_of_mem _ hs)
    rw [Text.withReturns_append (front ++ gap), Text.withReturns_eq_self hline] at hnext
    rw [Text.withReturns_append, hbehind, scan_token file hgap' hread' hmore,
      ← Text.withReturns_append]
    exact .cons (.spelling hplace hline) hnext

end Lexer

/-- A token of the text with returns is the one of the text at its new offsets. -/
theorem Lexer.Scanned.Returned.moved {file : String} {text : List Char} {s s' : Scanned}
    (h : Returned file text s s') : s.Moved (.returns text) s' := by
  cases h with
  | ending =>
    refine ⟨⟨rfl, fun _ => rfl, ?_⟩, rfl⟩
    simp only [Scanned.ending, Span.mapOffset, Position.ofFront_withReturns List.prefix_rfl]
  | @spelling before cs rest lexeme htext hcs =>
    have hstart : before <+: text := ⟨_, htext.symm⟩
    have hstop : before ++ cs <+: text := ⟨rest, by rw [htext, List.append_assoc]⟩
    have hthrough : withReturns before ++ cs = withReturns (before ++ cs) := by
      rw [Text.withReturns_append, Text.withReturns_eq_self hcs]
    refine ⟨⟨rfl, fun _ => rfl, ?_⟩, rfl⟩
    simp only [Scanned.spelling, Span.mapOffset, hthrough, Position.ofFront_withReturns hstart,
      Position.ofFront_withReturns hstop]

/-! ## Types -/

namespace Text

theorem trimStart_withReturns (cs : List Char) :
    trimStart (withReturns cs) = withReturns (trimStart cs) := by
  induction cs with
  | nil => rfl
  | cons c cs ih =>
    unfold trimStart at ih ⊢
    by_cases hc : c = '\n'
    · subst hc
      simp [ih]
    · rw [withReturns_cons_of_ne hc, List.dropWhile_cons, List.dropWhile_cons, ih]
      split
      · rfl
      · rw [withReturns_cons_of_ne hc]

theorem trimEnd_append_blank {c : Char} (hc : isBlank c = true) (cs : List Char) :
    trimEnd (cs ++ [c]) = trimEnd cs := by
  simp [trimEnd, hc]

theorem trimEnd_withReturns (cs : List Char) :
    trimEnd (withReturns cs) = withReturns (trimEnd cs) := by
  induction cs using List.reverseRecOn with
  | nil => rfl
  | append_singleton xs c ih =>
    by_cases hc : c = '\n'
    · subst hc
      have hsplit : withReturns (xs ++ ['\n']) = withReturns xs ++ ['\r'] ++ ['\n'] := by simp
      rw [hsplit, trimEnd_append_blank isBlank_newline, trimEnd_append_blank isBlank_return,
        trimEnd_append_blank isBlank_newline, ih]
    · have hsplit : withReturns (xs ++ [c]) = withReturns xs ++ [c] := by
        rw [withReturns_append, withReturns_cons_of_ne hc]
        rfl
      by_cases hb : isBlank c = true
      · rw [hsplit, trimEnd_append_blank hb, trimEnd_append_blank hb, ih]
      · have hlast : ∀ ys : List Char, trimEnd (ys ++ [c]) = ys ++ [c] := fun ys =>
          trimEnd_of_last List.getLast?_concat (by simpa using hb)
        rw [hsplit, hlast, hlast, hsplit]

end Text

/-- **Returns do not change the type of an expression.** One that has a line feed in it is a string
literal or none of the literals, and a string literal is told by its ends. -/
theorem Ty.infer_withReturns (cs : List Char) : infer (withReturns cs) = infer cs := by
  rw [infer, infer, Text.trim, Text.trim, Text.trimStart_withReturns, Text.trimEnd_withReturns]
  generalize Text.trimEnd (Text.trimStart cs) = ts
  by_cases hn : '\n' ∈ ts
  · rw [inferTrimmed_of_foreign hn (by decide) (by decide),
      inferTrimmed_of_foreign (Text.newline_mem_withReturns hn) (by decide) (by decide)]
    have hstring : isStringText (withReturns ts) = isStringText ts := by
      cases ts with
      | nil => cases hn
      | cons c ts =>
        by_cases hc : c = '\n'
        · subst hc
          simp [isStringText]
        · -- the line feed is behind the first character
          have hrest : '\n' ∈ ts := by simpa [Ne.symm hc] using hn
          have hlen : 1 ≤ ts.length := List.length_pos_of_mem hrest
          have hlen' : 1 ≤ (withReturns ts).length :=
            List.length_pos_of_mem (Text.newline_mem_withReturns hrest)
          have hlast := Text.getLast?_withReturns (c :: ts)
          rw [Text.withReturns_cons_of_ne hc] at hlast ⊢
          simp [isStringText, hlast, hlen, hlen']
    rw [hstring]
  · rw [Text.withReturns_eq_self hn]

/-! ## Lines -/

namespace Text

/-- A line of a text is found in the text with returns, with a return at its end unless it is the
last. -/
theorem LineAt.exists_withReturns {text before row : List Char} (h : LineAt text before row) :
    ∃ row', LineAt (withReturns text) (withReturns before) row' ∧
      (row' = row ∨ row' = row ++ ['\r']) := by
  obtain ⟨after, htext, hafter⟩ := h.text_eq
  have hrow := withReturns_eq_self h.newline_not_mem
  have hend : withReturns before = [] ∨ (withReturns before).getLast? = some '\n' := by
    rw [getLast?_withReturns]
    exact h.before_end.imp_left fun hnil => by rw [hnil, withReturns_nil]
  cases after with
  | nil =>
    refine ⟨row, ⟨⟨[], ?_, .inl rfl⟩, h.newline_not_mem, hend⟩, .inl rfl⟩
    rw [htext, withReturns_append, withReturns_append, hrow, withReturns_nil]
  | cons c after =>
    obtain rfl : c = '\n' := by simpa using hafter
    refine ⟨row ++ ['\r'], ⟨⟨'\n' :: withReturns after, ?_, .inr rfl⟩, ?_, hend⟩, .inr rfl⟩
    · rw [htext, withReturns_append, withReturns_append, hrow, withReturns_newline]
      simp
    · simp [h.newline_not_mem]

theorem stripReturn_of_not_mem {row : List Char} (h : '\r' ∉ row) : stripReturn row = row :=
  if_neg fun hlast => h (List.mem_of_getLast? hlast)

theorem stripReturn_append_return (row : List Char) : stripReturn (row ++ ['\r']) = row := by
  simp [stripReturn]

end Text

section Returns

variable {uri text text' : String} (h : text'.toList = withReturns text.toList)

include h

/-- **Lines and columns are those of the text without returns.** -/
theorem Source.moved_withReturns (hreturn : '\r' ∉ text.toList) :
    Source.Moved (.returns text.toList) ⟨uri, text⟩ ⟨uri, text'⟩ := by
  have hbytes : Text.byteSize text'.toList =
      OffsetMap.returns text.toList (Text.byteSize text.toList) := by
    rw [h, OffsetMap.returns_byteSize List.prefix_rfl]
  have hlen : (Text.rawLines text'.toList).length = (Text.rawLines text.toList).length := by
    rw [h, Text.length_rawLines, Text.length_rawLines, Text.count_newline_withReturns]
  refine .of_lines rfl hbytes hlen ?_
  intro n before row before' row' _ _ hat hat' hcount
  change Text.LineAt text.toList before row at hat
  change Text.LineAt text'.toList before' row' at hat'
  obtain ⟨after, htext, _⟩ := hat.text_eq
  have hrow : '\r' ∉ row := fun hmem => hreturn (by rw [htext]; simp [hmem])
  obtain ⟨ended, hended, hreturned⟩ := hat.exists_withReturns
  rw [h] at hat'
  obtain ⟨rfl, rfl⟩ := hended.unique hat' <|
    hcount.trans (Text.count_newline_withReturns before).symm
  have hstrip : Text.stripReturn row' = row := by
    rcases hreturned with rfl | rfl
    · exact Text.stripReturn_of_not_mem hrow
    · exact Text.stripReturn_append_return row
  rw [← Text.stripReturn_of_not_mem hrow] at hstrip
  refine ⟨congrArg List.length hstrip, fun k => ?_⟩
  have hfront : '\n' ∉ (Text.stripReturn row).take k := fun hmem =>
    hat.newline_not_mem ((Text.stripReturn_prefix row).subset (List.mem_of_mem_take hmem))
  rw [hstrip, ← Position.ofFront_withReturns (hat.take_stripReturn_prefix k),
    Text.withReturns_append, Text.withReturns_eq_self hfront]

/-! ## Documents -/

/-- If nothing is wrong with its literals, the text is scanned alike with returns. -/
theorem Lexer.returned_scan (hlexical : (Lexer.tokenize uri text).2 = []) :
    List.Forall₂ (Scanned.Returned uri text.toList) (scan (.ofText uri text.toList))
      (scan (.ofText uri text'.toList)) := by
  rw [h]
  refine (tiling_scan uri [] text.toList).returned rfl fun s hs => ?_
  have hnone := List.filterMap_eq_nil_iff.mp hlexical s hs
  unfold Scanned.diagnostic? at hnone
  split at hnone
  · assumption
  · cases hnone

variable (hscan : List.Forall₂ (Lexer.Scanned.Returned uri text.toList)
  (Lexer.scan (.ofText uri text.toList)) (Lexer.scan (.ofText uri text'.toList)))

include hscan

/-- **An expression has the type it had.** -/
theorem Document.inferExtent_withReturns {e : Extent} (hlt : e.start < e.stop)
    (hstop : e.stop < (ofText uri text).tokens.length) :
    ((ofText uri text').inferExtent e).1 = ((ofText uri text).inferExtent e).1 := by
  have hends := (streamed_ofText uri text).endsInEof
  have hlen : (ofText uri text').tokens.length = (ofText uri text).tokens.length := by
    simpa [ofText, Lexer.tokenize] using hscan.length_eq.symm
  obtain ⟨a, a', ha, hfirst, hfirst'⟩ :=
    Lexer.related_at hscan (show e.start < _ from Nat.lt_trans hlt hstop)
  obtain ⟨b, b', hb, hlast, hlast'⟩ :=
    Lexer.related_at hscan (show e.stop - 1 < _ from Nat.lt_of_le_of_lt (Nat.sub_le ..) hstop)
  -- a lexeme of the text stands behind the same text with returns
  have hplace : ∀ {before cs rest : List Char}, text.toList = before ++ (cs ++ rest) →
      '\n' ∉ cs → text'.toList = withReturns before ++ (cs ++ withReturns rest) := by
    intro before cs rest htext hcs
    rw [h, htext, Text.withReturns_append, Text.withReturns_append, Text.withReturns_eq_self hcs]
  cases ha with
  | ending => exact absurd (congrArg Token.kind hfirst) (hends.kindAt_ne_eof (by omega))
  | spelling htext hcs =>
    cases hb with
    | ending => exact absurd (congrArg Token.kind hlast) (hends.kindAt_ne_eof (by omega))
    | @spelling _ cs₂ _ _ htext₂ hcs₂ =>
      obtain ⟨front, rfl, htype⟩ := inferExtent_fst hlt hstop htext hfirst htext₂ hlast
      obtain ⟨front', hfront', htype'⟩ := inferExtent_fst hlt (hlen ▸ hstop) (hplace htext hcs)
        hfirst' (hplace htext₂ hcs₂) hlast'
      rw [Text.withReturns_append] at hfront'
      obtain rfl := List.append_cancel_left hfront'
      rw [htype, htype', ← Ty.infer_withReturns (front ++ cs₂), Text.withReturns_append,
        Text.withReturns_eq_self hcs₂]

/-- **The document with returns is the one without, moved.** -/
theorem Document.moved_withReturns (hreturn : '\r' ∉ text.toList) :
    (ofText uri text).Moved (.returns text.toList) (ofText uri text') := by
  have hmoved : Lexer.ScanMoved (.returns text.toList) uri text text' :=
    hscan.imp fun _ _ hs => hs.moved
  have hsource : Source.Moved (.returns text.toList) ⟨uri, text⟩ ⟨uri, text'⟩ :=
    Source.moved_withReturns h hreturn
  exact ⟨hmoved.tokens, (streamed_ofText uri text).endsInEof,
    fun _ hlt hstop => inferExtent_withReturns h hscan hlt hstop, rfl, hsource.lineEnd,
    hsource.lineSpan⟩

end Returns

/-- **Line endings do not matter.** A text without carriage returns, and with every string literal
closed, has the same diagnostics when each line feed gets a carriage return before it; only byte
offsets differ. -/
theorem analyze_withReturns (uri text : String) (hints : Bool) (hreturn : '\r' ∉ text.toList)
    (hlexical : (Lexer.tokenize uri text).2 = []) :
    (analyze uri (String.ofList (withReturns text.toList)) hints).diagnostics.map
        Diagnostic.forgetOffsets =
      (analyze uri text hints).diagnostics.map Diagnostic.forgetOffsets := by
  have h : (String.ofList (withReturns text.toList)).toList = withReturns text.toList :=
    String.toList_ofList
  have hscan := Lexer.returned_scan h hlexical
  have hdoc := Document.moved_withReturns h hscan hreturn
  rw [hdoc.diagnostics (hscan.imp fun _ _ hs => hs.moved) hints, Diagnostic.map_forgetOffsets]

/-- A value left out and a call over two lines: the same diagnostics, each at its line and column,
some of them at other offsets. -/
theorem analyze_withReturns_lines :
    let text := "fn f() -> int \x7b\n  return\n\x7d\nf(1,\n  2)\n"
    let text' := String.ofList (withReturns text.toList)
    (analyze "m.aur" text' true).diagnostics ≠ (analyze "m.aur" text true).diagnostics ∧
      (analyze "m.aur" text' true).diagnostics.map Diagnostic.forgetOffsets =
        (analyze "m.aur" text true).diagnostics.map Diagnostic.forgetOffsets := by
  intro text text'
  refine ⟨by decide +kernel, analyze_withReturns "m.aur" text true ?_ ?_⟩
  · decide
  · decide +kernel

end AuroraLint
