import AuroraLint.Proofs.Moved
import AuroraLint.Proofs.Respelled.Offsets

/-!
# Comments and string contents do not matter

What stands in a comment or between the quotes of a closed string literal has no part in the report.

* `InLiteral`, `InComment` : a character stands between the quotes of a closed string literal, or
  in a comment behind its `#`.
* `Respelling`             : a text with such characters replaced, one for one.
* `thin`                   : two texts are compared through a third, of characters no larger.

Main statement: `analyze_respelled` — a respelled text has the same diagnostics at the same lines
and columns. A replaced character may take more bytes or fewer, so that neither text moves to the
other by a map of offsets; both are moved from a third, in which every replaced character takes one
byte.
-/

set_option autoImplicit false

namespace AuroraLint

open CharClass (LineState)
open Text (Free Framed)

/-! ## Respelling back -/

namespace CharClass.LineState

/-- Two states of a line that go on alike. -/
structure Like (s s' : LineState) : Prop where
  mode_eq : s'.mode = s.mode
  prev_iff : s'.prev = some '\\' ↔ s.prev = some '\\'

variable {s s' : LineState}

theorem Like.step (h : s.Like s') (c : Char) : (s.step c).Like (s'.step c) := by
  by_cases hc : c = '\n'
  · rw [hc]
    exact ⟨rfl, Iff.rfl⟩
  · rw [step_of_ne hc, step_of_ne hc]
    refine ⟨?_, Iff.rfl⟩
    simp only [modeAfter, h.mode_eq, ne_eq, h.prev_iff]

/-- Outside code one free character is like another. -/
theorem Like.step_free (h : s.Like s') (hs : s.mode ≠ .code) {c c' : Char} (hc : Free c)
    (hc' : Free c') : (s.step c).Like (s'.step c') := by
  rw [step_of_ne hc.2.2.2, step_of_ne hc'.2.2.2]
  refine ⟨?_, by simp [hc.2.1, hc'.2.1]⟩
  simp only [modeAfter, h.mode_eq]
  cases hmode : s.mode with
  | code => exact absurd hmode hs
  | string => simp [hc.1, hc'.1]
  | comment => rfl

end CharClass.LineState

namespace Respells

variable {s s' : LineState} {cs cs' : List Char}

/-- What was replaced can be put back. -/
theorem symm (h : Respells s cs cs') (hlike : s.Like s') : Respells s' cs' cs := by
  induction h generalizing s' with
  | nil => exact .nil
  | @keep s c _ _ _ ih => exact .keep (ih (hlike.step c))
  | @change s c c' cs cs' hc hc' hplace h ih =>
    rcases hplace with hs | ⟨hs, hclosed⟩
    · exact .change hc' hc (.inl (hlike.mode_eq.trans hs))
        (ih (hlike.step_free (by rw [hs]; decide) hc hc'))
    · have hstep : s.step c = ⟨.string, some c⟩ := LineState.step_string_free hs hc
      have htail : Lexeme.stringTail c' cs' = Lexeme.stringTail c cs :=
        h.stringTail_eq (by rw [hstep]) (by rw [hstep]) (by simp [hc.2.1, hc'.2.1])
      exact .change hc' hc (.inr ⟨hlike.mode_eq.trans hs, by rw [htail]; exact hclosed⟩)
        (ih (hlike.step_free (by rw [hs]; decide) hc hc'))

/-- A text is respelled if it is where it changes. -/
theorem of_places (hlen : cs'.length = cs.length)
    (h : ∀ u c v u' c' v', cs = u ++ c :: v → cs' = u' ++ c' :: v' → u'.length = u.length →
      c ≠ c' → Free c ∧ Free c' ∧
        ((s.run u).mode = .comment ∨ (s.run u).mode = .string ∧ (Lexeme.stringTail c v).2 = true)) :
    Respells s cs cs' := by
  induction cs generalizing s cs' with
  | nil =>
    obtain rfl := List.eq_nil_of_length_eq_zero hlen
    exact .nil
  | cons c cs ih =>
    cases cs' with
    | nil => cases hlen
    | cons c' cs' =>
      have hnext : Respells (s.step c) cs cs' := by
        refine ih (Nat.succ.inj hlen) fun u d v u' d' v' hcs hcs' hu => ?_
        exact h (c :: u) d v (c' :: u') d' v' (by rw [hcs]; rfl) (by rw [hcs']; rfl)
          (congrArg Nat.succ hu)
      by_cases hc : c = c'
      · subst hc
        exact .keep hnext
      · obtain ⟨hfree, hfree', hplace⟩ := h [] c cs [] c' cs' rfl rfl rfl hc
        exact .change hfree hfree' hplace hnext

end Respells

/-! ## The text between -/

/-- The character if it is the same, or else one that takes a single byte. -/
def thin (c c' : Char) : Char :=
  if c = c' then c else 'x'

theorem thin_comm (c c' : Char) : thin c c' = thin c' c := by
  unfold thin
  split
  · rename_i h
    rw [if_pos h.symm, h]
  · rename_i h
    rw [if_neg (Ne.symm h)]

theorem utf8Size_thin_le (c c' : Char) : (thin c c').utf8Size ≤ c.utf8Size := by
  unfold thin
  split
  · exact Nat.le_refl _
  · exact c.utf8Size_pos

namespace Respells

variable {s : LineState} {cs cs' : List Char}

theorem thinned (h : Respells s cs cs') : Respells s cs (List.zipWith thin cs cs') := by
  induction h with
  | nil => exact .nil
  | @keep s c cs cs' _ ih =>
    rw [List.zipWith_cons_cons, thin, if_pos rfl]
    exact .keep ih
  | @change s c c' cs cs' hc _ hplace _ ih =>
    rw [List.zipWith_cons_cons, thin]
    split
    · exact .keep ih
    · exact .change hc (by decide) hplace ih

theorem thinner (h : Respells s cs cs') :
    List.Forall₂ (fun c c' => c.utf8Size ≤ c'.utf8Size) (List.zipWith thin cs cs') cs := by
  induction h with
  | nil => exact .nil
  | keep _ ih => exact .cons (utf8Size_thin_le ..) ih
  | change _ _ _ _ ih => exact .cons (utf8Size_thin_le ..) ih

end Respells

/-! ## One text moved to the other -/

section Stretched

variable {text text' : String} (h : Respells {} text'.toList text.toList)
  (hsize : List.Forall₂ (fun c c' => c.utf8Size ≤ c'.utf8Size) text.toList text'.toList)

include h

theorem Respells.stretches : Stretches (.stretching hsize) text.toList text'.toList where
  framed := (h.symm ⟨rfl, Iff.rfl⟩).framed
  offset := by
    intro front rest front' rest' htext htext' hlen
    show stretch text.toList text'.toList (Text.byteSize front) = Text.byteSize front'
    rw [htext, htext']
    exact stretch_byteSize hlen

theorem Respells.scan_moved (uri : String) :
    Lexer.ScanMoved (.stretching hsize) uri text text' :=
  (Lexer.scan_respelled uri h).flip.imp fun _ _ hs => (h.stretches hsize).token hs

/-- The document of the text with the larger characters is the other one, moved. -/
theorem Respells.document (uri : String) :
    (Document.ofText uri text).Moved (.stretching hsize) (.ofText uri text') := by
  have htokens : TokensMoved (.stretching hsize) (Document.ofText uri text).tokens
      (Document.ofText uri text').tokens := (h.scan_moved hsize uri).tokens
  have hsource : Source.Moved (.stretching hsize) ⟨uri, text⟩ ⟨uri, text'⟩ :=
    (h.stretches hsize).source rfl
  refine ⟨htokens, (Document.streamed_ofText uri text).endsInEof, fun e hlt hstop => ?_, rfl,
    hsource.lineEnd, hsource.lineSpan⟩
  exact (h.type_eq hlt (htokens.length_eq ▸ hstop)).symm

/-- **The diagnostics of the text with the larger characters are those of the other, moved.** -/
theorem Respells.diagnostics (uri : String) (hints : Bool) :
    (analyze uri text' hints).diagnostics = (analyze uri text hints).diagnostics.map
      (Diagnostic.mapOffset (OffsetMap.stretching hsize)) :=
  (h.document hsize uri).diagnostics (h.scan_moved hsize uri) hints

end Stretched

/-- **Respelled texts have the same diagnostics but for byte offsets.** -/
theorem Respells.forgotten {text text' : String} (h : Respells {} text.toList text'.toList)
    (uri : String) (hints : Bool) :
    (analyze uri text' hints).diagnostics.map Diagnostic.forgetOffsets =
      (analyze uri text hints).diagnostics.map Diagnostic.forgetOffsets := by
  have hback : Respells {} text'.toList text.toList := h.symm ⟨rfl, Iff.rfl⟩
  obtain ⟨between, hbetween⟩ : ∃ between : String,
      between.toList = List.zipWith thin text.toList text'.toList := ⟨_, String.toList_ofList⟩
  have hbetween' : between.toList = List.zipWith thin text'.toList text.toList := by
    rw [hbetween, List.zipWith_comm_of_comm thin_comm]
  have hmoved := Respells.diagnostics (hbetween ▸ h.thinned) (hbetween ▸ h.thinner) uri hints
  have hmoved' := Respells.diagnostics (hbetween' ▸ hback.thinned) (hbetween' ▸ hback.thinner) uri
    hints
  rw [hmoved, hmoved', Diagnostic.map_forgetOffsets, Diagnostic.map_forgetOffsets]

/-! ## Comments and string literals -/

/-- The byte offset of character `k`. -/
def Text.offsetAt (text : List Char) (k : Nat) : Nat :=
  byteSize (text.take k)

/-- Character `k` stands strictly between the quotes of a closed string literal. -/
def InLiteral (uri text : String) (k : Nat) : Prop :=
  ∃ s ∈ Lexer.scan (.ofText uri text.toList), s.token.kind = .stringLiteral ∧ s.terminated = true ∧
    s.token.span.start.offset < Text.offsetAt text.toList k ∧
      Text.offsetAt text.toList k + 1 < s.token.span.stop.offset

/-- Character `k` stands in a comment, behind its `#`: that is on the same line with no token
between. -/
def InComment (uri text : String) (k : Nat) : Prop :=
  ∃ j < k, text.toList[j]? = some '#' ∧ '\n' ∉ (text.toList.take (k + 1)).drop j ∧
    SameGap (Lexer.tokenize uri text).1 (Text.offsetAt text.toList j) (Text.offsetAt text.toList k)

/-- The character `c'` may replace `c`, which is character `k`: that stands in a comment or in a
closed string literal, neither is a quote, backslash or carriage return, and `c'` is no line
feed. -/
def Replaces (uri text : String) (k : Nat) (c c' : Char) : Prop :=
  (c ≠ '"' ∧ c ≠ '\\' ∧ c ≠ '\r') ∧ (c' ≠ '"' ∧ c' ≠ '\\' ∧ c' ≠ '\r' ∧ c' ≠ '\n') ∧
    (InLiteral uri text k ∨ InComment uri text k)

/-- The text `text'` is `text` with characters of comments and of closed string literals replaced,
one for one. -/
structure Respelling (uri text text' : String) : Prop where
  length_eq : text'.toList.length = text.toList.length
  replaces : ∀ (k : Nat) (c c' : Char), text.toList[k]? = some c → text'.toList[k]? = some c' →
    c ≠ c' → Replaces uri text k c c'

section

variable (uri text text' : String)

instance (k : Nat) : Decidable (InLiteral uri text k) :=
  inferInstanceAs (Decidable (∃ s ∈ _, _))

instance (ts : List Token) (first second : Nat) : Decidable (SameGap ts first second) :=
  inferInstanceAs (Decidable (∀ t ∈ ts, _))

instance (k : Nat) : Decidable (InComment uri text k) :=
  inferInstanceAs (Decidable (∃ j < k, _))

instance (k : Nat) (c c' : Char) : Decidable (Replaces uri text k c c') :=
  inferInstanceAs (Decidable (_ ∧ _))

theorem respelling_iff :
    Respelling uri text text' ↔ text'.toList.length = text.toList.length ∧
      ∀ p ∈ (text.toList.zip text'.toList).zipIdx, p.1.1 ≠ p.1.2 →
        Replaces uri text p.2 p.1.1 p.1.2 := by
  have hmem : ∀ (c c' : Char) (k : Nat), ((c, c'), k) ∈ (text.toList.zip text'.toList).zipIdx ↔
      text.toList[k]? = some c ∧ text'.toList[k]? = some c' := by
    intro c c' k
    rw [List.mem_zipIdx_iff_getElem?, List.getElem?_zip_eq_some]
  constructor
  · intro h
    refine ⟨h.length_eq, fun ⟨⟨c, c'⟩, k⟩ hp => ?_⟩
    obtain ⟨hc, hc'⟩ := (hmem c c' k).mp hp
    exact h.replaces k c c' hc hc'
  · rintro ⟨hlen, h⟩
    exact ⟨hlen, fun k c c' hc hc' => h ((c, c'), k) ((hmem c c' k).mpr ⟨hc, hc'⟩)⟩

instance : Decidable (Respelling uri text text') :=
  decidable_of_iff' _ (respelling_iff uri text text')

end

/-- A closed string literal is closed behind any of its characters. -/
theorem Lexeme.closed_behind {p c : Char} {u v : List Char} (hc : c ≠ '"')
    (hlen : u.length < (stringTail p (u ++ c :: v)).1)
    (hclosed : (stringTail p (u ++ c :: v)).2 = true) : c ≠ '\n' ∧ (stringTail c v).2 = true := by
  induction u generalizing p with
  | nil =>
    rw [List.nil_append, stringTail, if_neg fun h => hc h.1] at hclosed
    split at hclosed
    · cases hclosed
    · rename_i hn
      exact ⟨hn, hclosed⟩
  | cons d u ih =>
    rw [List.cons_append, stringTail] at hlen hclosed
    split at hclosed
    · rename_i hq
      rw [if_pos hq] at hlen
      simp at hlen
    · rename_i hq
      split at hclosed
      · cases hclosed
      · rename_i hn
        rw [if_neg hq, if_neg hn] at hlen
        exact ih (by simpa using hlen) hclosed

/-- Behind a character of a closed string literal, other than its first quote, the literal is still
to be closed. -/
theorem Lexer.Spells.closed_behind {text before tail u v : List Char} {q c : Char} {lexeme : Lexeme}
    (h : Spells text before q tail lexeme) (hkind : lexeme.kind = .stringLiteral)
    (hterminated : lexeme.terminated = true) (htext : text = u ++ c :: v) (hc : c ≠ '"')
    (hstart : Text.byteSize before < Text.byteSize u)
    (hstop : Text.byteSize u < Text.byteSize (before ++ q :: tail)) :
    c ≠ '\n' ∧ (Lexeme.stringTail c v).2 = true := by
  obtain ⟨after, hsplit, hread⟩ := h.text_eq
  obtain ⟨_, rfl⟩ := Lexeme.string_of_read hread hkind
  -- the character is behind the first quote
  obtain ⟨w, rfl⟩ : before <+: u :=
    Text.prefix_of_byteSize_le ⟨_, hsplit.symm⟩ ⟨_, htext.symm⟩ (Nat.le_of_lt hstart)
  cases w with
  | nil => simp at hstart
  | cons d w =>
    obtain ⟨rfl, htail⟩ : q = d ∧ tail ++ after = w ++ c :: v := by
      rw [hsplit] at htext
      simpa using htext
    refine @Lexeme.closed_behind q c w v hc ?_ ?_
    · have hmore : (Lexeme.stringTail q (tail ++ after)).1 = tail.length := h.more_eq
      rw [← htail, hmore]
      -- it is in the tail, not behind the literal
      refine Nat.lt_of_not_le fun hle => ?_
      obtain ⟨w', rfl⟩ : tail <+: w :=
        List.prefix_of_prefix_length_le ⟨after, rfl⟩ ⟨c :: v, htail.symm⟩ hle
      simp only [Text.byteSize_append, Text.byteSize_cons] at hstop
      omega
    · rw [← htail]
      exact hterminated

namespace CharClass.LineState

variable {s : LineState} {c : Char}

/-- Only a quote can open a string. -/
theorem mode_of_classOf_string (h : s.classOf c = .string) (hc : c ≠ '"') : s.mode = .string := by
  cases hmode : s.mode with
  | string => rfl
  | comment => simp [classOf, modeAfter, hmode] at h
  | code =>
    simp only [classOf, modeAfter, hmode, hc, false_and, if_false] at h
    split at h <;> cases h

/-- What comes behind a comment character is of the comment. -/
theorem mode_step_of_classOf_comment (h : s.classOf c = .comment) (hc : c ≠ '\n') :
    (s.step c).mode = .comment := by
  rw [step_of_ne hc]
  unfold classOf at h
  split at h
  · cases h
  · exact h

end CharClass.LineState

section Places

variable {uri text : String} {u v : List Char} {c : Char}

/-- Inside a closed string literal the line is in a string that will be closed. -/
theorem InLiteral.place (h : InLiteral uri text u.length) (htext : text.toList = u ++ c :: v)
    (hc : c ≠ '"') :
    c ≠ '\n' ∧ (LineState.run {} u).mode = .string ∧ (Lexeme.stringTail c v).2 = true := by
  obtain ⟨s, hs, hkind, hterminated, hstart, hstop⟩ := h
  have htiling := Lexer.tiling_scan uri [] text.toList
  rw [Text.offsetAt, htext, List.take_left' rfl] at hstart hstop
  obtain ⟨hn, hclosed⟩ : c ≠ '\n' ∧ (Lexeme.stringTail c v).2 = true := by
    rcases htiling.mem_cases hs with rfl | ⟨before, q, tail, lexeme, _, hspells, rfl⟩
    · cases hkind
    · exact hspells.closed_behind hkind hterminated htext hc hstart (Nat.lt_of_succ_lt hstop)
  refine ⟨hn, ?_, hclosed⟩
  have hcovers : s.token.Covers (Text.byteSize u) :=
    ⟨Nat.le_of_lt hstart, Nat.lt_of_succ_lt hstop⟩
  have hmem : s.token ∈ (Lexer.scan (.between uri [] text.toList)).map (·.token) :=
    List.mem_map_of_mem hs
  have hclass : ((LineState.run {} u).classOf c) = .string := by
    rcases htiling.agrees (.inl rfl) htext hn with ⟨t, ht, hcovers', hclass⟩ | ⟨hnone, _⟩
    · have hord := (Lexer.Tiling.tokenStream htiling).ordered
      obtain rfl : t = s.token := covers_unique hord ht hmem hcovers' hcovers
      exact hclass.trans (if_pos hkind)
    · exact absurd hcovers (hnone _ hmem)
  exact LineState.mode_of_classOf_string hclass hc

/-- A `#` that no token covers is of a comment. -/
theorem classOf_hash {w x : List Char} (htext : text.toList = w ++ '#' :: x)
    (hgap : SameGap (Lexer.tokenize uri text).1 (Text.byteSize w) (Text.byteSize w)) :
    (LineState.run {} w).classOf '#' = .comment := by
  have htiling := Lexer.tiling_scan uri [] text.toList
  rcases htiling.agrees (.inl rfl) htext (by decide) with ⟨t, ht, hcovers, _⟩ | ⟨_, hcases⟩
  · have hstart := hcovers.1
    have hstop := hcovers.2
    rw [List.nil_append] at hstart hstop
    rcases hgap t ht with hle | hlt <;> omega
  · rcases hcases with ⟨_, hcomment⟩ | ⟨hnone, _⟩
    · exact hcomment
    · exact absurd ⟨w, [], rfl, List.not_mem_nil, hgap⟩ hnone

/-- Behind the `#` of a comment the line is in a comment. -/
theorem InComment.place (h : InComment uri text u.length) (htext : text.toList = u ++ c :: v) :
    c ≠ '\n' ∧ (LineState.run {} u).mode = .comment := by
  obtain ⟨j, hj, hget, hline, hgap⟩ := h
  have htext' : text.toList = (u ++ [c]) ++ v := by simpa using htext
  rw [htext', List.take_left' (by simp)] at hline
  have hget' : u[j]? = some '#' := by
    rw [← hget, htext, List.getElem?_append_left hj]
  -- the `#` and what stands between it and the character
  obtain ⟨w, m, rfl, rfl⟩ : ∃ w m, u = w ++ '#' :: m ∧ j = w.length :=
    ⟨_, _, eq_take_append_cons hget', by simp [Nat.le_of_lt hj]⟩
  rw [List.append_assoc, List.drop_left' rfl] at hline
  simp only [List.cons_append, List.mem_cons, List.mem_append, List.not_mem_nil, or_false,
    not_or] at hline
  have hhash : text.toList = w ++ '#' :: (m ++ c :: v) := by simpa using htext
  rw [Text.offsetAt, Text.offsetAt, htext, List.take_left' rfl, ← htext, hhash, List.take_left' rfl]
    at hgap
  have hlt : Text.byteSize w < Text.byteSize (w ++ '#' :: m) := by
    have := Char.utf8Size_pos '#'
    rw [Text.byteSize_append, Text.byteSize_cons]
    omega
  have hclass : (LineState.run {} w).classOf '#' = .comment :=
    classOf_hash hhash fun t ht => (hgap t ht).imp_right (Nat.lt_trans hlt)
  refine ⟨fun hc => hline.2.2 hc.symm, ?_⟩
  rw [LineState.run_append, LineState.run_cons]
  exact LineState.mode_run_comment (LineState.mode_step_of_classOf_comment hclass (by decide))
    hline.2.1

end Places

/-- A respelling changes comments and closed string literals only. -/
theorem Respelling.respells {uri text text' : String} (h : Respelling uri text text') :
    Respells {} text.toList text'.toList := by
  refine Respells.of_places h.length_eq fun u c v u' c' v' htext htext' hlen hne => ?_
  have hget : text.toList[u.length]? = some c := by
    rw [htext]
    simp
  have hget' : text'.toList[u.length]? = some c' := by
    rw [htext', ← hlen]
    simp
  obtain ⟨⟨hquote, hslash, hreturn⟩, hfree', hplace⟩ := h.replaces _ c c' hget hget' hne
  rcases hplace with hliteral | hcomment
  · obtain ⟨hn, hmode, hclosed⟩ := hliteral.place htext hquote
    exact ⟨⟨hquote, hslash, hreturn, hn⟩, hfree', .inr ⟨hmode, hclosed⟩⟩
  · obtain ⟨hn, hmode⟩ := hcomment.place htext
    exact ⟨⟨hquote, hslash, hreturn, hn⟩, hfree', .inl hmode⟩

/-- **What comments and closed string literals hold has no part in the report.** A respelled text
has the same diagnostics, in severity, message, tags, suggestion and the lines and columns of all
places; byte offsets alone may differ. -/
theorem analyze_respelled (uri text text' : String) (h : Respelling uri text text')
    (styleHints : Bool) :
    (analyze uri text' styleHints).diagnostics.map Diagnostic.forgetOffsets =
      (analyze uri text styleHints).diagnostics.map Diagnostic.forgetOffsets :=
  h.respells.forgotten uri styleHints

/-- A bracket in a string and a word of a comment are replaced, by characters that take more bytes
too. The error on the second line stays where it is, and only its offset moves. -/
theorem analyze_respelled_bracket :
    let text := "let x = \"(a\" # old\nx = 1"
    let text' := "let x = \")é\" # nëw\nx = 1"
    Respelling "m.aur" text text' ∧
      (analyze "m.aur" text' true).diagnostics ≠ (analyze "m.aur" text true).diagnostics ∧
      (analyze "m.aur" text' true).diagnostics.map Diagnostic.forgetOffsets =
        (analyze "m.aur" text true).diagnostics.map Diagnostic.forgetOffsets := by
  intro text text'
  have h : Respelling "m.aur" text text' := by decide +kernel
  exact ⟨h, by decide +kernel, analyze_respelled _ _ _ h true⟩

end AuroraLint
