import AuroraLint.Proofs.Classification
import Mathlib.Data.List.Forall2

/-!
# Lexing a respelled text

Two texts that differ inside comments and closed string literals only are cut into the same tokens.

* `Respells`      : the characters of a text replaced one for one where its lines are in a comment
  or in a string literal that is closed.
* `SameToMark`    : two texts that are the same, at least up to a quote or `#`.
* `Scanned.Alike` : two tokens at the same place that are spelled the same, but for what a closed
  string literal holds.

Main statement: `Lexer.scan_respelled` — token by token, the scans of the two texts are alike. The
induction is over the tiling of one text; the state of its line tells where the other may differ.
-/

set_option autoImplicit false

namespace AuroraLint

open CharClass (LineState)

/-! ## Texts that differ in free characters -/

namespace Text

/-- A character with no part in quoting or in ending lines. -/
def Free (c : Char) : Prop :=
  c ≠ '"' ∧ c ≠ '\\' ∧ c ≠ '\r' ∧ c ≠ '\n'

instance (c : Char) : Decidable (Free c) :=
  inferInstanceAs (Decidable (_ ∧ _))

/-- The same character, or one free character for another. -/
def Framed (c c' : Char) : Prop :=
  c' = c ∨ Free c ∧ Free c'

theorem Framed.eq_iff {c c' d : Char} (h : Framed c c') (hd : ¬ Free d) : c' = d ↔ c = d := by
  rcases h with rfl | ⟨hc, hc'⟩
  · rfl
  · exact ⟨fun he => absurd (he ▸ hc') hd, fun he => absurd (he ▸ hc) hd⟩

end Text

open Text (Free Framed)

theorem getLast?_framed {cs cs' : List Char} (h : List.Forall₂ Framed cs cs') {d : Char}
    (hd : ¬ Free d) : cs'.getLast? = some d ↔ cs.getLast? = some d := by
  induction h with
  | nil => rfl
  | cons hc hcs ih =>
    cases hcs with
    | nil => simpa using hc.eq_iff hd
    | cons _ _ => simpa only [List.getLast?_cons_cons] using ih

theorem lastOnLine_framed {cs cs' : List Char} (h : List.Forall₂ Framed cs cs') :
    lastOnLine cs' = some '\\' ↔ lastOnLine cs = some '\\' := by
  have hlast : cs'.getLast? = some '\\' ↔ cs.getLast? = some '\\' := getLast?_framed h (by decide)
  simp only [lastOnLine, Option.filter_eq_some_iff, hlast]

/-! ## Into and inside a string -/

namespace CharClass.LineState

variable {s : LineState} {c : Char}

theorem step_string (hs : s.mode = .string) (hq : ¬ (c = '"' ∧ s.prev ≠ some '\\'))
    (hn : c ≠ '\n') : s.step c = ⟨.string, some c⟩ := by
  rw [step_of_ne hn, modeAfter, hs]
  exact congrArg (LineState.mk · (some c)) (if_neg hq)

theorem step_string_free (hs : s.mode = .string) (hc : Free c) : s.step c = ⟨.string, some c⟩ :=
  step_string hs (fun hq => hc.1 hq.1) hc.2.2.2

end CharClass.LineState

/-! ## Respelling -/

/-- `Respells s cs cs'`: where `s` is the state of the line in front of `cs`, the text `cs'` is `cs`
with some free characters of comments and of closed string literals replaced by free ones. -/
inductive Respells : LineState → List Char → List Char → Prop
  | nil {s : LineState} : Respells s [] []
  | keep {s : LineState} {c : Char} {cs cs' : List Char} (h : Respells (s.step c) cs cs') :
      Respells s (c :: cs) (c :: cs')
  | change {s : LineState} {c c' : Char} {cs cs' : List Char} (hc : Free c) (hc' : Free c')
      (hplace : s.mode = .comment ∨ s.mode = .string ∧ (Lexeme.stringTail c cs).2 = true)
      (h : Respells (s.step c) cs cs') : Respells s (c :: cs) (c' :: cs')

namespace Respells

variable {s : LineState} {cs cs' : List Char}

theorem framed (h : Respells s cs cs') : List.Forall₂ Framed cs cs' := by
  induction h with
  | nil => exact .nil
  | keep _ ih => exact .cons (.inl rfl) ih
  | change hc hc' _ _ ih => exact .cons (.inr ⟨hc, hc'⟩) ih

/-- What has been read and what is left, in step. -/
theorem split {xs ys zs : List Char} (h : Respells s (xs ++ ys) zs) :
    ∃ xs' ys', zs = xs' ++ ys' ∧ List.Forall₂ Framed xs xs' ∧ Respells (s.run xs) ys ys' := by
  induction xs generalizing s zs with
  | nil => exact ⟨[], zs, rfl, .nil, h⟩
  | cons x xs ih =>
    cases h with
    | keep h =>
      obtain ⟨xs', ys', rfl, hxs, hys⟩ := ih h
      exact ⟨x :: xs', ys', rfl, .cons (.inl rfl) hxs, hys⟩
    | change hc hc' _ h =>
      obtain ⟨xs', ys', rfl, hxs, hys⟩ := ih h
      exact ⟨_ :: xs', ys', rfl, .cons (.inr ⟨hc, hc'⟩) hxs, hys⟩

/-- In code nothing is replaced. -/
theorem head_of_code {c : Char} {zs : List Char} (h : Respells s (c :: cs) zs)
    (hs : s.mode = .code) : ∃ cs', zs = c :: cs' ∧ Respells (s.step c) cs cs' := by
  cases h with
  | keep h => exact ⟨_, rfl, h⟩
  | change _ _ hplace _ => simp [hs] at hplace

/-- A settled line may be taken to be in code: its rest is empty, or ends it at once. -/
theorem settle (h : Respells s cs cs') (hset : s.Settled cs) :
    ∃ s' : LineState, s'.mode = .code ∧ Respells s' cs cs' := by
  rcases hset with hs | rfl | hhead
  · exact ⟨s, hs, h⟩
  · cases h
    exact ⟨{}, rfl, .nil⟩
  · cases h with
    | nil => simp at hhead
    | keep h =>
      obtain rfl := Option.some.inj hhead
      exact ⟨{}, rfl, .keep h⟩
    | change hc _ _ _ => exact absurd (Option.some.inj hhead) hc.2.2.2

/-! ## Gaps and string literals -/

/-- Gaps have the same length. -/
theorem trivia_eq {inComment : Bool} (h : Respells s cs cs')
    (hs : s.mode = CharClass.gapMode inComment) : trivia inComment cs' = trivia inComment cs := by
  induction h generalizing inComment with
  | nil => rfl
  | @keep s c cs cs' h ih =>
    by_cases hc : inComment = true ∨ Text.isBlank c = true ∨ c = '#'
    · have hrec := ih (LineState.step_gap hs hc)
      rw [trivia_cons_eq_succ_iff.mpr ⟨hc, hrec⟩, trivia_cons_eq_succ_iff.mpr ⟨hc, rfl⟩]
    · simp only [not_or, Bool.not_eq_true] at hc
      simp [trivia, hc]
  | @change s c c' cs cs' hc hc' hplace h ih =>
    cases inComment with
    | false => simp [hs, CharClass.gapMode] at hplace
    | true =>
      have hopen : commentAfter true c = true := by simpa [commentAfter] using hc.2.2.2
      have hrec := @ih true (by rw [LineState.step_gap hs (.inl rfl), hopen])
      simp [trivia, hc.2.2.2, hc'.2.2.2, hrec]

/-- String literals have the same length and are closed alike. -/
theorem stringTail_eq (h : Respells s cs cs') (hs : s.mode = .string) {p p' : Char}
    (hp : s.prev = some p) (hp' : p' = '\\' ↔ p = '\\') :
    Lexeme.stringTail p' cs' = Lexeme.stringTail p cs := by
  induction h generalizing p p' with
  | nil => rfl
  | @keep s c cs cs' h ih =>
    by_cases hq : c = '"' ∧ p ≠ '\\'
    · simp [Lexeme.stringTail, hq, hp']
    · by_cases hn : c = '\n'
      · simp [Lexeme.stringTail, hn]
      · have hstep : s.step c = ⟨.string, some c⟩ :=
          LineState.step_string hs (by simpa [hp] using hq) hn
        have hrec := @ih (by rw [hstep]) c c (by rw [hstep]) Iff.rfl
        rw [Lexeme.stringTail, Lexeme.stringTail, if_neg hq, if_neg hn, hrec,
          if_neg (by rw [Ne, hp']; exact hq), if_neg hn]
  | @change s c c' cs cs' hc hc' hplace h ih =>
    have hstep : s.step c = ⟨.string, some c⟩ := LineState.step_string_free hs hc
    have hrec := @ih (by rw [hstep]) c c' (by rw [hstep]) (by simp [hc.2.1, hc'.2.1])
    simp [Lexeme.stringTail, hc.1, hc'.1, hc.2.2.2, hc'.2.2.2, hrec]

/-- A string literal that its line cuts off is kept as it is. -/
theorem take_of_not_closed (h : Respells s cs cs') (hs : s.mode = .string) {p : Char}
    (hp : s.prev = some p) (hclosed : (Lexeme.stringTail p cs).2 = false) :
    cs'.take (Lexeme.stringTail p cs).1 = cs.take (Lexeme.stringTail p cs).1 := by
  induction h generalizing p with
  | nil => rfl
  | @keep s c cs cs' h ih =>
    rw [Lexeme.stringTail] at hclosed ⊢
    split at hclosed
    · cases hclosed
    · rename_i hq
      split at hclosed
      · rename_i hn
        rw [if_neg hq, if_pos hn]
        rfl
      · rename_i hn
        have hstep : s.step c = ⟨.string, some c⟩ :=
          LineState.step_string hs (by simpa [hp] using hq) hn
        rw [if_neg hq, if_neg hn]
        simp only [List.take_succ_cons]
        rw [@ih (by rw [hstep]) c (by rw [hstep]) hclosed]
  | @change s c c' cs cs' hc hc' hplace h ih =>
    rw [Lexeme.stringTail, if_neg (by simp [hc.1]), if_neg hc.2.2.2] at hclosed
    simp only [hs, reduceCtorEq, true_and, false_or] at hplace
    rw [hplace] at hclosed
    cases hclosed

end Respells

/-! ## Other lexemes -/

/-- The two texts are the same, or the same up to a quote or `#` and that character itself. -/
inductive SameToMark : List Char → List Char → Prop
  | refl (cs : List Char) : SameToMark cs cs
  | mark {q : Char} (hq : q = '"' ∨ q = '#') (cs cs' : List Char) :
      SameToMark (q :: cs) (q :: cs')
  | cons (c : Char) {cs cs' : List Char} (h : SameToMark cs cs') :
      SameToMark (c :: cs) (c :: cs')

namespace SameToMark

variable {cs cs' : List Char}

theorem head?_eq (h : SameToMark cs cs') : cs'.head? = cs.head? := by
  cases h <;> rfl

theorem take (h : SameToMark cs cs') (n : Nat) : SameToMark (cs.take n) (cs'.take n) := by
  induction h generalizing n with
  | refl cs => exact .refl _
  | mark hq cs cs' =>
    cases n with
    | zero => exact .refl _
    | succ n => exact .mark hq ..
  | cons c _ ih =>
    cases n with
    | zero => exact .refl _
    | succ n => exact .cons c (ih n)

/-- Fronts of one length. -/
theorem front {xs ys xs' ys' : List Char} (h : SameToMark (xs ++ ys) (xs' ++ ys'))
    (hlen : xs'.length = xs.length) : SameToMark xs xs' := by
  have htake := h.take xs.length
  rwa [List.take_left' rfl, List.take_left' hlen] at htake

variable {p : Char → Bool}

theorem takeWhile_eq (h : SameToMark cs cs') (hp : ∀ q, q = '"' ∨ q = '#' → p q = false) :
    cs'.takeWhile p = cs.takeWhile p := by
  induction h with
  | refl cs => rfl
  | mark hq cs cs' => simp [hp _ hq]
  | cons c _ ih => simp only [List.takeWhile_cons, ih]

/-- Behind what a condition takes, which no mark meets, the texts go on to be the same. -/
theorem drop_takeWhile (h : SameToMark cs cs') (hp : ∀ q, q = '"' ∨ q = '#' → p q = false) :
    SameToMark (cs.drop (cs.takeWhile p).length) (cs'.drop (cs.takeWhile p).length) := by
  induction h with
  | refl cs => exact .refl _
  | mark hq cs cs' => simpa [hp _ hq] using mark hq cs cs'
  | cons c h ih =>
    rw [List.takeWhile_cons]
    split
    · exact ih
    · exact .cons c h

theorem isPrefixOf_eq (h : SameToMark cs cs') {word : List Char}
    (hw : ∀ c ∈ word, Lexeme.Plain c) : word.isPrefixOf cs' = word.isPrefixOf cs := by
  induction h generalizing word with
  | refl cs => rfl
  | @mark q hq cs cs' =>
    cases word with
    | nil => rfl
    | cons w word =>
      have hplain := hw w List.mem_cons_self
      have hne : (w == q) = false := by
        rw [beq_eq_false_iff_ne]
        rintro rfl
        exact hq.elim hplain.1 hplain.2.1
      simp [List.isPrefixOf, hne]
  | cons c _ ih =>
    cases word with
    | nil => rfl
    | cons w word =>
      simp only [List.isPrefixOf, ih fun d hd => hw d (List.mem_cons_of_mem _ hd)]

end SameToMark

theorem Respells.sameToMark {s : LineState} {cs cs' : List Char} (h : Respells s cs cs')
    (hs : s.mode = .code) : SameToMark cs cs' := by
  induction cs generalizing s cs' with
  | nil =>
    cases h
    exact .refl _
  | cons c cs ih =>
    obtain ⟨cs', rfl, hnext⟩ := h.head_of_code hs
    by_cases hc : c = '"' ∨ c = '#'
    · exact .mark hc ..
    · have hmode : (s.step c).mode = .code := by
        by_cases hn : c = '\n'
        · rw [hn]
          rfl
        · rw [LineState.step_of_ne hn]
          exact LineState.modeAfter_plain hs ⟨by tauto, by tauto, hn⟩
      exact .cons c (ih hnext hmode)

/-- A text of plain characters in code is kept. -/
theorem Respells.plain {s : LineState} {xs ys zs : List Char} (h : Respells s (xs ++ ys) zs)
    (hs : s.mode = .code) (hxs : ∀ c ∈ xs, Lexeme.Plain c) :
    ∃ ys', zs = xs ++ ys' ∧ Respells (s.run xs) ys ys' := by
  induction xs generalizing s zs with
  | nil => exact ⟨zs, rfl, h⟩
  | cons x xs ih =>
    obtain ⟨zs, rfl, hnext⟩ := h.head_of_code hs
    have hx := hxs x List.mem_cons_self
    have hmode : (s.step x).mode = .code := by
      rw [LineState.step_of_ne hx.2.2]
      exact LineState.modeAfter_plain hs hx
    obtain ⟨ys', rfl, hys⟩ := ih hnext hmode fun c hc => hxs c (List.mem_cons_of_mem _ hc)
    exact ⟨ys', rfl, hys⟩

namespace Lexeme

variable {cs cs' : List Char}

theorem not_isDigit_mark (q : Char) (hq : q = '"' ∨ q = '#') : q.isDigit = false := by
  rcases hq with rfl | rfl <;> rfl

theorem not_isNamePart_mark (q : Char) (hq : q = '"' ∨ q = '#') : isNamePart q = false := by
  rcases hq with rfl | rfl <;> rfl

theorem digits_sameToMark (h : SameToMark cs cs') : digits cs' = digits cs := by
  rw [digits, digits, h.takeWhile_eq not_isDigit_mark]

theorem number_sameToMark (h : SameToMark cs cs') : number cs' = number cs := by
  have hdrop : SameToMark (cs.drop (digits cs)) (cs'.drop (digits cs)) :=
    h.drop_takeWhile not_isDigit_mark
  simp only [number, digits_sameToMark h]
  generalize cs.drop (digits cs) = rest at hdrop
  generalize cs'.drop (digits cs) = rest' at hdrop
  cases hdrop with
  | refl => rfl
  | mark hq => rcases hq with rfl | rfl <;> rfl
  | cons c hafter =>
    by_cases hc : c = '.'
    · subst hc
      simp only [hafter.head?_eq, digits_sameToMark hafter]
    · simp [hc]

theorem name_sameToMark (c : Char) (h : SameToMark cs cs') : name c cs' = name c cs := by
  rw [name, name, h.takeWhile_eq not_isNamePart_mark]

theorem symbol_sameToMark (c : Char) (h : SameToMark cs cs') : symbol c cs' = symbol c cs := by
  unfold symbol
  congr 1
  -- the same symbol is found, since none has a quote or `#` in it
  rw [← List.head?_filter, ← List.head?_filter]
  refine congrArg List.head? (List.filter_congr fun p hp => ?_)
  exact (SameToMark.cons c h).isPrefixOf_eq (symbols_spec p hp).2.1

/-- Any lexeme but a string literal, and with it the next character. -/
theorem read_sameToMark {prev prev' : Option Char} {c : Char}
    (hprev : prev' = some '\\' ↔ prev = some '\\') (h : SameToMark cs cs')
    (hk : (read prev c cs).kind ≠ .stringLiteral) : read prev' c cs' = read prev c cs := by
  have hq : ¬ (c = '"' ∧ prev ≠ some '\\') := by rwa [← kind_read_eq_string_iff prev c cs]
  unfold read
  split
  · rename_i hc
    have hb : prev = some '\\' := by simpa [hc] using hq
    rw [if_pos hb, if_pos (hprev.mpr hb)]
  · rw [number_sameToMark h, name_sameToMark c h, symbol_sameToMark c h, digits_sameToMark h]

end Lexeme

/-! ## Lexeme by lexeme -/

/-- The rests of two alike lexemes: the same, or closed by a quote each. -/
def SameContent (lexeme : Lexeme) (tail tail' : List Char) : Prop :=
  tail' = tail ∨
    lexeme.kind = .stringLiteral ∧ tail.getLast? = some '"' ∧ tail'.getLast? = some '"'

namespace Respells

variable {s : LineState} {prev prev' : Option Char} {c : Char} {tail rest zs : List Char}
  {lexeme : Lexeme}

theorem string_literal (h : Respells (s.step c) (tail ++ rest) zs) (hs : s.mode = .code)
    (hp : s.prev = prev) (hprev : prev' = some '\\' ↔ prev = some '\\')
    (hread : Lexeme.read prev c (tail ++ rest) = lexeme) (hmore : lexeme.more = tail.length)
    (hk : lexeme.kind = .stringLiteral) :
    ∃ tail' rest', zs = tail' ++ rest' ∧ List.Forall₂ Framed tail tail' ∧
      Respells ((s.step c).run tail) rest rest' ∧ Lexeme.read prev' c zs = lexeme ∧
        SameContent lexeme tail tail' := by
  obtain ⟨hq, rfl⟩ := Lexeme.string_of_read hread hk
  have hstep : s.step c = ⟨.string, some c⟩ := LineState.step_quote hs (hp ▸ hq)
  have htail := h.stringTail_eq (by rw [hstep]) (by rw [hstep]) (Iff.refl (c = '\\'))
  have hlen : (Lexeme.stringTail c (tail ++ rest)).1 = tail.length := hmore
  have htake : (tail ++ rest).take (Lexeme.stringTail c (tail ++ rest)).1 = tail := by
    rw [hlen, List.take_left' rfl]
  have hkept := h.take_of_not_closed (by rw [hstep]) (p := c) (by rw [hstep])
  obtain ⟨tail', rest', rfl, hframed, hrest⟩ := h.split
  have htake' : (tail' ++ rest').take (Lexeme.stringTail c (tail ++ rest)).1 = tail' := by
    rw [hlen, hframed.length_eq, List.take_left' rfl]
  refine ⟨tail', rest', rfl, hframed, hrest, ?_, ?_⟩
  · rw [Lexeme.read_of_string ⟨hq.1, by rw [Ne, hprev]; exact hq.2⟩, htail]
  · cases hclosed : (Lexeme.stringTail c (tail ++ rest)).2 with
    | true =>
      refine .inr ⟨hk, ?_, ?_⟩
      · rw [← htake]
        exact Lexeme.getLast?_stringTail hclosed
      · rw [← htake', ← htail]
        exact Lexeme.getLast?_stringTail (by rw [htail]; exact hclosed)
    | false => exact .inl (by rw [← htake', hkept hclosed, htake])

theorem other_lexeme (h : Respells (s.step c) (tail ++ rest) zs) (hs : s.mode = .code)
    (hp : s.prev = prev) (hprev : prev' = some '\\' ↔ prev = some '\\')
    (hread : Lexeme.read prev c (tail ++ rest) = lexeme) (hmore : lexeme.more = tail.length)
    (hb : Text.isBlank c = false) (hh : c ≠ '#') (hk : lexeme.kind ≠ .stringLiteral) :
    ∃ tail' rest', zs = tail' ++ rest' ∧ List.Forall₂ Framed tail tail' ∧
      Respells ((s.step c).run tail) rest rest' ∧ Lexeme.read prev' c zs = lexeme ∧
        SameContent lexeme tail tail' := by
  have hq : ¬ (c = '"' ∧ prev ≠ some '\\') := by
    rw [← Lexeme.kind_read_eq_string_iff prev c (tail ++ rest), hread]
    exact hk
  have hn : c ≠ '\n' := by
    rintro rfl
    simp at hb
  have hcode : (s.step c).mode = .code := by
    rw [LineState.step_of_ne hn]
    simp only [LineState.modeAfter, hs, hp, if_neg hq, if_neg hh]
  have hplain : ∀ d ∈ tail, Lexeme.Plain d := by
    intro d hd
    refine @Lexeme.plain_of_mem_read prev c (tail ++ rest) d ?_ ?_
    · rw [hread]
      exact hk
    · rwa [hread, hmore, List.take_left' rfl]
  have hread' := Lexeme.read_sameToMark hprev (h.sameToMark hcode) (by rw [hread]; exact hk)
  obtain ⟨rest', rfl, hrest⟩ := h.plain hcode hplain
  have hsame : List.Forall₂ Framed tail tail := List.forall₂_same.mpr fun _ _ => .inl rfl
  exact ⟨tail, rest', rfl, hsame, hrest, hread'.trans hread, .inl rfl⟩

/-- The same lexeme is read, and what follows it is respelled. -/
theorem read_lexeme (h : Respells (s.step c) (tail ++ rest) zs) (hs : s.mode = .code)
    (hp : s.prev = prev) (hprev : prev' = some '\\' ↔ prev = some '\\')
    (hread : Lexeme.read prev c (tail ++ rest) = lexeme) (hmore : lexeme.more = tail.length)
    (hb : Text.isBlank c = false) (hh : c ≠ '#') :
    ∃ tail' rest', zs = tail' ++ rest' ∧ List.Forall₂ Framed tail tail' ∧
      Respells ((s.step c).run tail) rest rest' ∧ Lexeme.read prev' c zs = lexeme ∧
        SameContent lexeme tail tail' := by
  by_cases hk : lexeme.kind = .stringLiteral
  · exact h.string_literal hs hp hprev hread hmore hk
  · exact h.other_lexeme hs hp hprev hread hmore hb hh hk

end Respells

namespace Lexer

/-- Two tokens, of `text` and of `text'`, at the same place and of the same lexeme. The texts are
the same from there to the next mark, and only what a closed string literal holds may differ. -/
inductive Scanned.Alike (file : String) (text text' : List Char) : Scanned → Scanned → Prop
  | ending : Scanned.Alike file text text' (.ending file text) (.ending file text')
  | spelling {before before' tail tail' rest rest' : List Char} {c : Char} {lexeme : Lexeme}
      (htext : text = before ++ c :: (tail ++ rest))
      (htext' : text' = before' ++ c :: (tail' ++ rest'))
      (hbefore : before'.length = before.length) (htail : tail'.length = tail.length)
      (hblank : Text.isBlank c = false)
      (hsame : SameToMark (c :: (tail ++ rest)) (c :: (tail' ++ rest')))
      (hcontent : SameContent lexeme tail tail') :
      Scanned.Alike file text text' (.spelling file before lexeme (c :: tail))
        (.spelling file before' lexeme (c :: tail'))

open CharClass.LineState in
/-- **The tokens of a respelled text are alike.** The induction is over the tiling of the text; the
line is settled wherever a gap starts. -/
theorem Tiling.alike {file : String} {text text' front rest front' rest' : List Char}
    {scanned : List Scanned} (h : Tiling file front rest scanned) (htext : text = front ++ rest)
    (htext' : text' = front' ++ rest') (hfront : List.Forall₂ Framed front front')
    (hrest : Respells (run {} front) rest rest') (hset : (run {} front).Settled rest) :
    List.Forall₂ (Scanned.Alike file text text') scanned
      (scan (.between file front' rest')) := by
  induction h generalizing front' rest' with
  | @ending front gap hgap =>
    rw [List.append_nil] at hgap
    obtain ⟨s, hs, hgapped⟩ := hrest.settle hset
    have hgap' : trivia false rest' = rest'.length := by
      rw [hgapped.trivia_eq (show s.mode = CharClass.gapMode false from hs), hgap,
        hrest.framed.length_eq]
    rw [scan_gap file hgap', ← htext, ← htext']
    exact .cons .ending .nil
  | @token front gap tail rest c scanned lexeme hgap hread hmore next ih =>
    obtain ⟨hb, hh⟩ := not_blank_of_trivia hgap
    have hn : c ≠ '\n' := by
      rintro rfl
      simp at hb
    have hmode : (run {} (front ++ gap)).mode = .code := by
      obtain ⟨s, hs, hrun⟩ := hset.run_eq hn
      rw [run_append, hrun]
      exact mode_run_gap (show s.mode = CharClass.gapMode false from hs) hgap
    obtain ⟨s, hs, hgapped⟩ := hrest.settle hset
    have htrivia := hgapped.trivia_eq (show s.mode = CharClass.gapMode false from hs)
    -- the other text: the same gap, the same first character, and the rest of the lexeme
    obtain ⟨gap', zs, rfl, hframed, hnext⟩ := hrest.split
    rw [← run_append] at hnext
    obtain ⟨zs, rfl, hafter⟩ := hnext.head_of_code hmode
    have hfront' := List.rel_append hfront hframed
    obtain ⟨tail', rest', rfl, htail, hrest', hread', hcontent⟩ :=
      hafter.read_lexeme hmode (prev_run _) (lastOnLine_framed hfront') hread hmore hb hh
    have hlen := htail.length_eq
    rw [scan_token file (htrivia.trans (hgap.trans hframed.length_eq)) hread' (hmore.trans hlen)]
    refine .cons ?_ ?_
    · exact .spelling (by simpa using htext) (by simpa using htext') hfront'.length_eq.symm
        hlen.symm hb (hnext.sameToMark hmode) hcontent
    · refine ih (by simpa using htext) (by simpa using htext')
        (List.rel_append hfront' (.cons (.inl rfl) htail)) ?_ ?_
      · rw [run_append]
        exact hrest'
      · rw [run_append]
        exact (run_lexeme hmode (prev_run _) hread hmore hb hh).2

theorem scan_respelled (file : String) {text text' : List Char} (h : Respells {} text text') :
    List.Forall₂ (Scanned.Alike file text text') (scan (.ofText file text))
      (scan (.ofText file text')) :=
  (tiling_scan file [] text).alike rfl rfl .nil h (.inl rfl)

end Lexer

end AuroraLint
