import AuroraLint.Proofs.Moved.Lines
import AuroraLint.Proofs.Moved.Resolve
import AuroraLint.Proofs.Respelled.Types

/-!
# Offsets in a respelled text

Characters that take more bytes move what stands behind them.

* `stretch`   : where a byte offset of one text stands in another whose characters are no smaller.
* `Stretches` : an offset map that takes the places of one text to those of another, which differs
  in free characters.

Main statements: `Stretches.ofFront` — positions keep line and column — `Stretches.source` — so do
lines — and `Stretches.token` — alike tokens are moved.
-/

set_option autoImplicit false

namespace AuroraLint

open Text (Free Framed)

/-! ## Larger characters -/

/-- The offset in the second text that `offset` stands for in the first. -/
def stretch : List Char → List Char → Nat → Nat
  | c :: cs, c' :: cs', offset =>
    if offset < c.utf8Size then offset else c'.utf8Size + stretch cs cs' (offset - c.utf8Size)
  | _, _, offset => offset

section Stretch

variable {cs cs' : List Char}

theorem stretch_lt (h : List.Forall₂ (fun c c' => c.utf8Size ≤ c'.utf8Size) cs cs') {a b : Nat}
    (hab : a < b) : stretch cs cs' a < stretch cs cs' b := by
  induction h generalizing a b with
  | nil => exact hab
  | @cons c c' cs cs' hc _ ih =>
    unfold stretch
    by_cases hb : b < c.utf8Size
    · rw [if_pos hb, if_pos (Nat.lt_trans hab hb)]
      exact hab
    · rw [if_neg hb]
      split
      · omega
      · have := @ih (a - c.utf8Size) (b - c.utf8Size) (by omega)
        omega

/-- Between characters the offset is that of as many characters. -/
theorem stretch_byteSize {front front' rest rest' : List Char}
    (hlen : front'.length = front.length) :
    stretch (front ++ rest) (front' ++ rest') (Text.byteSize front) = Text.byteSize front' := by
  induction front generalizing front' with
  | nil =>
    obtain rfl := List.eq_nil_of_length_eq_zero hlen
    cases rest with
    | nil => rfl
    | cons c rest =>
      cases rest' with
      | nil => rfl
      | cons c' rest' => exact if_pos c.utf8Size_pos
  | cons c front ih =>
    cases front' with
    | nil => cases hlen
    | cons c' front' =>
      simp only [List.cons_append, stretch, Text.byteSize_cons, Nat.add_sub_cancel_left,
        ih (Nat.succ.inj hlen)]
      rw [if_neg (by omega)]

/-- The map of offsets to those of a text whose characters are no smaller. -/
def OffsetMap.stretching (h : List.Forall₂ (fun c c' => c.utf8Size ≤ c'.utf8Size) cs cs') :
    OffsetMap where
  toFun := stretch cs cs'
  le_iff a b := by
    constructor
    · intro hle
      exact Nat.le_of_not_lt fun hlt => Nat.not_lt_of_le hle (stretch_lt h hlt)
    · intro hle
      rcases Nat.lt_or_eq_of_le hle with hlt | rfl
      · exact Nat.le_of_lt (stretch_lt h hlt)
      · exact Nat.le_refl _
  map_zero := @stretch_byteSize [] [] cs cs' rfl

end Stretch

/-! ## Places -/

/-- The map `g` takes the places of `text` to those of `text'`, which differs in free characters. -/
structure Stretches (g : OffsetMap) (text text' : List Char) : Prop where
  framed : List.Forall₂ Framed text text'
  offset : ∀ {front rest front' rest' : List Char}, text = front ++ rest →
    text' = front' ++ rest' → front'.length = front.length →
      g (Text.byteSize front) = Text.byteSize front'

theorem count_newline_framed {cs cs' : List Char} (h : List.Forall₂ Framed cs cs') :
    cs'.count '\n' = cs.count '\n' := by
  induction h with
  | nil => rfl
  | @cons c c' _ _ hc _ ih =>
    have hnewline := hc.eq_iff (d := '\n') (by decide)
    simp only [List.count_cons, ih, beq_iff_eq, hnewline]

theorem lineFront_framed {cs cs' : List Char} (h : List.Forall₂ Framed cs cs') :
    (cs'.takeWhile (· != '\n')).length = (cs.takeWhile (· != '\n')).length := by
  induction h with
  | nil => rfl
  | @cons c c' _ _ hc _ ih =>
    have hnewline := hc.eq_iff (d := '\n') (by decide)
    by_cases hn : c = '\n'
    · simp [hn, hnewline.mpr hn]
    · have hn' : c' ≠ '\n' := fun he => hn (hnewline.mp he)
      simp [hn, hn', ih]

namespace Stretches

variable {g : OffsetMap} {text text' : List Char}

theorem framed_front (h : Stretches g text text') {front rest front' rest' : List Char}
    (htext : text = front ++ rest) (htext' : text' = front' ++ rest')
    (hlen : front'.length = front.length) : List.Forall₂ Framed front front' := by
  have htake := List.forall₂_take front.length h.framed
  rwa [htext, htext', List.take_left' rfl, List.take_left' hlen] at htake

/-- A place keeps its line and column. -/
theorem ofFront (h : Stretches g text text') {front rest front' rest' : List Char}
    (htext : text = front ++ rest) (htext' : text' = front' ++ rest')
    (hlen : front'.length = front.length) :
    Position.ofFront front' = (Position.ofFront front).mapOffset g := by
  have hframed := h.framed_front htext htext' hlen
  simp only [Position.ofFront, Position.mapOffset, h.offset htext htext' hlen,
    count_newline_framed hframed, lineFront_framed (List.forall₂_reverse_iff.mpr hframed)]

/-! ## Tokens -/

/-- Alike tokens are moved, and end alike. -/
theorem token (h : Stretches g text text') {file : String} {s s' : Lexer.Scanned}
    (hs : Lexer.Scanned.Alike file text' text s' s) : s.Moved g s' := by
  cases hs with
  | ending =>
    have hplace := h.ofFront (List.append_nil text).symm (List.append_nil text').symm
      h.framed.length_eq.symm
    refine ⟨⟨rfl, fun _ => rfl, ?_⟩, rfl⟩
    simp only [Lexer.Scanned.ending, Span.mapOffset, hplace]
  | @spelling before' before tail' tail rest' rest c lexeme htext' htext hbefore htail _ _
      hcontent =>
    have hstart := h.ofFront htext htext' hbefore.symm
    have hthrough : text = (before ++ c :: tail) ++ rest := by simpa using htext
    have hthrough' : text' = (before' ++ c :: tail') ++ rest' := by simpa using htext'
    have hstop := h.ofFront hthrough hthrough' (by simp [hbefore, htail])
    refine ⟨⟨rfl, fun hk => ?_, ?_⟩, rfl⟩
    · rcases hcontent with rfl | ⟨hstring, _⟩
      · rfl
      · exact absurd hstring hk
    · simp only [Lexer.Scanned.spelling, Span.mapOffset, hstart, hstop]

end Stretches

/-! ## Lines -/

namespace Text

theorem rawLines_framed {cs cs' : List Char} (h : List.Forall₂ Framed cs cs') :
    List.Forall₂ (List.Forall₂ Framed) (rawLines cs) (rawLines cs') := by
  induction h with
  | nil => exact .cons .nil .nil
  | @cons c c' cs cs' hc _ ih =>
    have hnewline := hc.eq_iff (d := '\n') (by decide)
    simp only [rawLines, hnewline]
    split
    · exact .cons .nil ih
    · generalize rawLines cs = rows at ih
      generalize rawLines cs' = rows' at ih
      cases ih with
      | nil => exact .cons (.cons hc .nil) .nil
      | cons hrow hrows => exact .cons (.cons hc hrow) hrows

theorem stripReturn_framed {row row' : List Char} (h : List.Forall₂ Framed row row') :
    List.Forall₂ Framed (stripReturn row) (stripReturn row') := by
  have hreturn := getLast?_framed h (d := '\r') (by decide)
  simp only [stripReturn, hreturn]
  split
  · rw [List.dropLast_eq_take, List.dropLast_eq_take, h.length_eq]
    exact List.forall₂_take _ h
  · exact h

end Text

namespace Stretches

variable {g : OffsetMap} {s s' : Source}

/-- A line starts behind as many characters. -/
theorem length_before (h : Stretches g s.chars s'.chars) {before before' row row' : List Char}
    (hat : Text.LineAt s.chars before row) (hat' : Text.LineAt s'.chars before' row')
    (hcount : before'.count '\n' = before.count '\n') : before'.length = before.length := by
  obtain ⟨after, htext, _⟩ := hat.text_eq
  obtain ⟨after', htext', _⟩ := hat'.text_eq
  have hframed := List.forall₂_take before.length h.framed
  rw [htext, List.take_left' rfl] at hframed
  have hend : s'.chars.take before.length = [] ∨
      (s'.chars.take before.length).getLast? = some '\n' := by
    rcases hat.before_end with rfl | hlast
    · exact .inl rfl
    · exact .inr ((getLast?_framed hframed (by decide)).mpr hlast)
  have heq := Text.front_unique ⟨_, htext'.symm⟩ (List.take_prefix ..) hat'.before_end hend
    (hcount.trans (count_newline_framed hframed).symm)
  rw [heq]
  exact hframed.length_eq.symm

/-- **Lines and columns are those of the other text.** -/
theorem source (h : Stretches g s.chars s'.chars) (hname : s'.name = s.name) : s.Moved g s' := by
  have hrows : List.Forall₂ (List.Forall₂ Framed) s.rawLines s'.rawLines :=
    Text.rawLines_framed h.framed
  have hbytes : s'.byteSize = g s.byteSize :=
    (h.offset (List.append_nil _).symm (List.append_nil _).symm h.framed.length_eq.symm).symm
  refine .of_lines hname hbytes hrows.length_eq.symm ?_
  intro n before row before' row' hrow hrow' hat hat' hcount
  have hframed : List.Forall₂ Framed row row' := by
    obtain ⟨hn, rfl⟩ := List.getElem?_eq_some_iff.mp hrow
    obtain ⟨hn', rfl⟩ := List.getElem?_eq_some_iff.mp hrow'
    exact hrows.get hn hn'
  have hstrip := (Text.stripReturn_framed hframed).length_eq
  have hlen := h.length_before hat hat' hcount
  refine ⟨hstrip.symm, fun k => ?_⟩
  obtain ⟨rest, htext⟩ := hat.take_stripReturn_prefix k
  obtain ⟨rest', htext'⟩ := hat'.take_stripReturn_prefix k
  exact h.ofFront htext.symm htext'.symm (by simp [hlen, hstrip])

end Stretches

end AuroraLint
