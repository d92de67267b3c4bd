import AuroraLint.Proofs.Respelled.Lexing
import AuroraLint.Proofs.Stream
import Mathlib.Data.List.TakeWhile

/-!
# Types in a respelled text

The type of an expression is read off its text in the source, comments and string literals
included.

Main statements: `Ty.infer_sameToMark` — two texts that are the same up to a quote or `#` and end
alike are of one type, since no number, truth value or `null` has a quote or `#` in it — and
`Respells.type_eq` — so every expression of a respelled document has the type it had.
-/

set_option autoImplicit false

namespace AuroraLint

/-! ## Trimmed texts -/

theorem SameToMark.eq_or_mark {cs cs' : List Char} (h : SameToMark cs cs') :
    cs' = cs ∨ (∃ q ∈ cs, q = '"' ∨ q = '#') ∧ ∃ q ∈ cs', q = '"' ∨ q = '#' := by
  induction h with
  | refl cs => exact .inl rfl
  | mark hq cs cs' => exact .inr ⟨⟨_, List.mem_cons_self, hq⟩, ⟨_, List.mem_cons_self, hq⟩⟩
  | cons c _ ih =>
    rcases ih with rfl | ⟨⟨q, hmem, hq⟩, ⟨q', hmem', hq'⟩⟩
    · exact .inl rfl
    · exact .inr ⟨⟨q, List.mem_cons_of_mem _ hmem, hq⟩, ⟨q', List.mem_cons_of_mem _ hmem', hq'⟩⟩

namespace Text

theorem dropWhile_blank_ne_nil {tail : List Char} {c : Char} (hc : isBlank c = false) :
    (c :: tail).reverse.dropWhile isBlank ≠ [] := by
  intro hnil
  have := List.dropWhile_eq_nil_iff.mp hnil c (by simp)
  rw [hc] at this
  cases this

/-- Nothing is trimmed in front of the last character that is not blank. -/
theorem trimEnd_append_cons {front tail : List Char} {c : Char} (hc : isBlank c = false) :
    trimEnd (front ++ c :: tail) = front ++ trimEnd (c :: tail) := by
  rw [trimEnd, trimEnd, List.reverse_append, List.dropWhile_append,
    if_neg (by simpa using dropWhile_blank_ne_nil hc)]
  simp

theorem trimEnd_of_last {cs : List Char} {c : Char} (hlast : cs.getLast? = some c)
    (hc : isBlank c = false) : trimEnd cs = cs := by
  obtain ⟨front, rfl⟩ := List.getLast?_eq_some_iff.mp hlast
  rw [trimEnd_append_cons hc]
  simp [trimEnd, hc]

theorem trimStart_of_head {cs : List Char} {c : Char} (hhead : cs.head? = some c)
    (hc : isBlank c = false) : trimStart cs = cs := by
  cases cs with
  | nil => rfl
  | cons d cs =>
    obtain rfl := Option.some.inj hhead
    simp [trimStart, hc]

theorem trimEnd_prefix (cs : List Char) : trimEnd cs <+: cs := by
  have hsuffix := List.dropWhile_suffix isBlank (l := cs.reverse)
  rw [trimEnd, ← List.reverse_suffix, List.reverse_reverse]
  exact hsuffix

end Text

namespace Ty

variable {cs cs' : List Char}

/-! ## Literals are letters, digits and points -/

section Foreign

variable {q : Char} (hmem : q ∈ cs) (hq : q.isAlphanum = false)

include hmem hq

theorem isIntText_of_foreign : isIntText cs = false := by
  have hdigit : q.isDigit = false := ((Bool.or_eq_false_iff ..).mp hq).2
  have hall : cs.all Char.isDigit = false := by
    rw [List.all_eq_false]
    exact ⟨q, hmem, by rw [hdigit]; decide⟩
  rw [isIntText, hall, Bool.and_false]

theorem isDoubleText_of_foreign (hdot : q ≠ '.') : isDoubleText cs = false := by
  have hsplit := @List.takeWhile_append_dropWhile _ (· != '.') cs
  unfold isDoubleText
  generalize cs.takeWhile (· != '.') = whole at hsplit
  cases hrest : cs.dropWhile (· != '.') with
  | nil => rfl
  | cons d fraction =>
    -- the character is before the point or behind it
    have hd : d = '.' := by
      have := List.head?_dropWhile_not (· != '.') cs
      simpa [hrest] using this
    rw [hrest, hd] at hsplit
    have hmem' : q ∈ whole ∨ q ∈ fraction := by
      rw [← hsplit] at hmem
      simpa [hdot] using hmem
    rcases hmem' with hwhole | hfraction
    · have hne : whole.isEmpty = false := by
        cases whole with
        | nil => cases hwhole
        | cons _ _ => rfl
      simp [hne, isIntText_of_foreign hwhole hq]
    · have hint := isIntText_of_foreign hfraction hq
      have hall : fraction.all Char.isDigit = false := by
        cases fraction with
        | nil => cases hfraction
        | cons _ _ => simpa [isIntText] using hint
      simp [hint, hall]

/-- A text with anything but letters, digits and points in it is a string literal, or `double` as
any other expression. -/
theorem inferTrimmed_of_foreign (hdot : q ≠ '.') :
    inferTrimmed cs = if isStringText cs then .string else .double := by
  have hword : ∀ word : List Char, word.all Char.isAlphanum = true → cs ≠ word := by
    rintro word hall rfl
    rw [List.all_eq_true.mp hall q hmem] at hq
    cases hq
  have htrue := hword ['t', 'r', 'u', 'e'] (by decide)
  have hfalse := hword ['f', 'a', 'l', 's', 'e'] (by decide)
  have hnull := hword ['n', 'u', 'l', 'l'] (by decide)
  simp [inferTrimmed, isIntText_of_foreign hmem hq, isDoubleText_of_foreign hmem hq hdot, htrue,
    hfalse, hnull]

end Foreign

theorem inferTrimmed_sameToMark (h : SameToMark cs cs') (hlen : cs'.length = cs.length)
    (hlast : cs'.getLast? = cs.getLast?) : inferTrimmed cs' = inferTrimmed cs := by
  rcases h.eq_or_mark with rfl | ⟨⟨q, hmem, hq⟩, ⟨q', hmem', hq'⟩⟩
  · rfl
  · have hforeign : ∀ {q : Char}, q = '"' ∨ q = '#' → q.isAlphanum = false ∧ q ≠ '.' := by
      rintro _ (rfl | rfl) <;> decide
    rw [inferTrimmed_of_foreign hmem (hforeign hq).1 (hforeign hq).2,
      inferTrimmed_of_foreign hmem' (hforeign hq').1 (hforeign hq').2, isStringText, isStringText,
      hlen, h.head?_eq, hlast]

/-- An expression whose last lexeme is `c` and a rest. -/
theorem infer_sameToMark {lexeme : Lexeme} {front front' tail tail' : List Char} {b c : Char}
    (h : SameToMark (front ++ c :: tail) (front' ++ c :: tail'))
    (hfront : front'.length = front.length) (htail : tail'.length = tail.length)
    (hhead : (front ++ c :: tail).head? = some b) (hb : Text.isBlank b = false)
    (hc : Text.isBlank c = false) (hcontent : SameContent lexeme tail tail') :
    infer (front' ++ c :: tail') = infer (front ++ c :: tail) := by
  have hend : (Text.trimEnd (c :: tail')).length = (Text.trimEnd (c :: tail)).length ∧
      (Text.trimEnd (c :: tail')).getLast? = (Text.trimEnd (c :: tail)).getLast? := by
    rcases hcontent with rfl | ⟨_, hquote, hquote'⟩
    · exact ⟨rfl, rfl⟩
    · have hlast : (c :: tail).getLast? = some '"' := by simp [List.getLast?_cons, hquote]
      have hlast' : (c :: tail').getLast? = some '"' := by simp [List.getLast?_cons, hquote']
      rw [Text.trimEnd_of_last hlast (by decide), Text.trimEnd_of_last hlast' (by decide), hlast,
        hlast']
      exact ⟨by simp [htail], rfl⟩
  have hhead' : (front' ++ c :: tail').head? = some b := h.head?_eq.trans hhead
  rw [infer, infer, Text.trim, Text.trim, Text.trimStart_of_head hhead hb,
    Text.trimStart_of_head hhead' hb, Text.trimEnd_append_cons hc, Text.trimEnd_append_cons hc]
  have htake : ∀ (xs ys : List Char), xs ++ Text.trimEnd ys =
      (xs ++ ys).take (xs.length + (Text.trimEnd ys).length) := by
    intro xs ys
    rw [List.take_append, List.take_of_length_le (Nat.le_add_right ..), Nat.add_sub_cancel_left,
      ← List.prefix_iff_eq_take.mp (Text.trimEnd_prefix ys)]
  refine inferTrimmed_sameToMark ?_ (by simp [hfront, hend.1]) ?_
  · rw [htake, htake front', hfront, hend.1]
    exact h.take _
  · have hne : (Text.trimEnd (c :: tail)) ≠ [] := by
      simpa [Text.trimEnd] using Text.dropWhile_blank_ne_nil hc
    obtain ⟨d, hd⟩ := Option.isSome_iff_exists.mp (List.getLast?_isSome.mpr hne)
    rw [List.getLast?_append, List.getLast?_append, hend.2, hd]
    rfl

end Ty

/-! ## The text of an expression -/

/-- The text between two places of the document. -/
theorem Source.slice_eq {s : Source} {front mid back : List Char} {start stop : Position}
    (htext : s.chars = front ++ (mid ++ back)) (hstart : start.offset = Text.byteSize front)
    (hstop : stop.offset = Text.byteSize (front ++ mid)) : s.slice start stop = mid := by
  rw [slice, slice?_between htext hstart hstop, Option.getD_some]

/-- The span of an extent reaches from the start of its first token to the stop of its last. -/
theorem TokenStream.extent_offsets {file : String} {text : List Char} {ts : List Token}
    (h : TokenStream file text ts) {e : Extent} (hlt : e.start < e.stop)
    (hstop : e.stop < ts.length) :
    (e.span ts).start.offset = (tokenAt ts e.start).span.start.offset ∧
      (e.span ts).stop.offset = (tokenAt ts (e.stop - 1)).span.stop.offset := by
  have hij : e.start ≤ e.stop - 1 := by omega
  have hstopLe : (tokenAt ts e.start).span.stop.offset ≤
      (tokenAt ts (e.stop - 1)).span.stop.offset := by
    rcases Nat.lt_or_eq_of_le hij with hlt' | heq
    · have hreal := (h.real (i := e.stop - 1) (by omega)).start_lt_stop
      have hord := List.pairwise_iff_getElem.mp h.ordered e.start (e.stop - 1) (by omega) (by omega)
        hlt'
      rw [← tokenAt_eq_getElem, ← tokenAt_eq_getElem] at hord
      omega
    · rw [← heq]
  refine ⟨h.merge_start hij (by omega), ?_⟩
  rw [Extent.span, Span.merge_stop_offset, Nat.max_eq_right hstopLe]

/-- The text of an expression, from the first character of its first token to the last one of its
last token. -/
theorem Document.inferExtent_fst {uri text : String} {e : Extent} (hlt : e.start < e.stop)
    (hstop : e.stop < (ofText uri text).tokens.length)
    {before cs before₂ cs₂ rest rest₂ : List Char} {lexeme lexeme₂ : Lexeme}
    (htext : text.toList = before ++ (cs ++ rest))
    (hfirst : tokenAt (ofText uri text).tokens e.start =
      (Lexer.Scanned.spelling uri before lexeme cs).token)
    (htext₂ : text.toList = before₂ ++ (cs₂ ++ rest₂))
    (hlast : tokenAt (ofText uri text).tokens (e.stop - 1) =
      (Lexer.Scanned.spelling uri before₂ lexeme₂ cs₂).token) :
    ∃ front, before₂ = before ++ front ∧
      ((ofText uri text).inferExtent e).1 = Ty.infer (front ++ cs₂) := by
  have hstream := streamed_ofText uri text
  have hle := hstream.start_le (show e.start ≤ e.stop - 1 by omega) (by omega)
  obtain ⟨hstartOffset, hstopOffset⟩ := hstream.extent_offsets hlt hstop
  rw [hfirst] at hle hstartOffset
  rw [hlast] at hle hstopOffset
  obtain ⟨front, rfl⟩ : before <+: before₂ :=
    Text.prefix_of_byteSize_le ⟨_, htext.symm⟩ ⟨_, htext₂.symm⟩ hle
  refine ⟨front, rfl, congrArg Ty.infer ?_⟩
  have hchars : (ofText uri text).source.chars = before ++ ((front ++ cs₂) ++ rest₂) := by
    rw [← List.append_assoc, ← List.append_assoc, List.append_assoc]
    exact htext₂
  refine Source.slice_eq hchars hstartOffset (hstopOffset.trans ?_)
  simp [Lexer.Scanned.spelling]

namespace Lexer

variable {R : Scanned → Scanned → Prop} {scanned scanned' : List Scanned}

/-- Two tokens in the same place of their lists. -/
theorem related_at (h : List.Forall₂ R scanned scanned') {i : Nat}
    (hi : i < (scanned.map (·.token)).length) :
    ∃ s s', R s s' ∧ tokenAt (scanned.map (·.token)) i = s.token ∧
      tokenAt (scanned'.map (·.token)) i = s'.token := by
  have hlen := h.length_eq
  rw [List.length_map] at hi
  refine ⟨scanned[i], scanned'[i], h.get hi (by omega), ?_, ?_⟩
  · rw [tokenAt_eq_getElem (by simpa using hi), List.getElem_map]
  · rw [tokenAt_eq_getElem (by simp; omega), List.getElem_map]

end Lexer

/-- **An expression of a respelled document has the type it had.** -/
theorem Respells.type_eq {uri text text' : String} (h : Respells {} text.toList text'.toList)
    {e : Extent} (hlt : e.start < e.stop)
    (hstop : e.stop < (Document.ofText uri text).tokens.length) :
    ((Document.ofText uri text').inferExtent e).1 =
      ((Document.ofText uri text).inferExtent e).1 := by
  have halike := Lexer.scan_respelled uri h
  have hends := (Document.streamed_ofText uri text).endsInEof
  have hlen : (Document.ofText uri text').tokens.length =
      (Document.ofText uri text).tokens.length := by
    simpa [Document.ofText, Lexer.tokenize] using halike.length_eq.symm
  obtain ⟨a, a', ha, hfirst, hfirst'⟩ :=
    Lexer.related_at halike (show e.start < _ from Nat.lt_trans hlt hstop)
  obtain ⟨b, b', hb, hlast, hlast'⟩ :=
    Lexer.related_at halike (show e.stop - 1 < _ from Nat.lt_of_le_of_lt (Nat.sub_le ..) hstop)
  cases ha with
  | ending =>
    exact absurd (congrArg Token.kind hfirst) (hends.kindAt_ne_eof (by omega))
  | @spelling before before' tail tail' rest rest' c _ htext htext' hbefore _ hblank hsame _ =>
    cases hb with
    | ending =>
      exact absurd (congrArg Token.kind hlast) (hends.kindAt_ne_eof (by omega))
    | @spelling before₂ before₂' tail₂ tail₂' rest₂ rest₂' c₂ _ htext₂ htext₂' hbefore₂ htail₂
        hblank₂ _ hcontent₂ =>
      obtain ⟨front, hfront, htype⟩ :=
        Document.inferExtent_fst hlt hstop htext hfirst htext₂ hlast
      obtain ⟨front', hfront', htype'⟩ :=
        Document.inferExtent_fst hlt (hlen ▸ hstop) htext' hfirst' htext₂' hlast'
      subst hfront hfront'
      have hlenFront : front'.length = front.length := by
        simpa [hbefore] using hbefore₂
      -- behind the first token's start, both texts go on with the expression
      have hsplit : c :: (tail ++ rest) = (front ++ c₂ :: tail₂) ++ rest₂ := by
        rw [htext] at htext₂
        simpa using htext₂
      have hsplit' : c :: (tail' ++ rest') = (front' ++ c₂ :: tail₂') ++ rest₂' := by
        rw [htext'] at htext₂'
        simpa using htext₂'
      have hhead : (front ++ c₂ :: tail₂).head? = some c := by
        have := congrArg List.head? hsplit
        cases front <;> simpa using this.symm
      have hlenText : (front' ++ c₂ :: tail₂').length = (front ++ c₂ :: tail₂).length := by
        simp [hlenFront, htail₂]
      rw [hsplit, hsplit'] at hsame
      rw [htype, htype']
      exact Ty.infer_sameToMark (hsame.front hlenText) hlenFront htail₂ hhead hblank hblank₂ hcontent₂

end AuroraLint
