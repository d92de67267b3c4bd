import AuroraLint.CharClass
import AuroraLint.Proofs.Line
import AuroraLint.Proofs.Tiling

/-!
# Tokens and line classification agree

The class of a character depends on its line alone; the token it belongs to depends on the whole
document. Both are followed by one state that is carried over the text.

* `CharClass.LineState`  : what is known of a line just before a character.
* `Token.Covers`         : a character, by its byte offset, lies inside a token.
* `SameGap`              : two characters with no token between them.

Main statement: `classify_agrees_with_tokens` — character by character, strings are string
literals, comments are what follows a `#` in a gap, and all else is code.
-/

set_option autoImplicit false

namespace AuroraLint

namespace CharClass

/-! ## The state of a line -/

/-- What is known of a line just before a character: the class that an ordinary character would
get, and the character before. -/
structure LineState where
  mode : CharClass := .code
  prev : Option Char := none
  deriving DecidableEq, Repr

namespace LineState

/-- The mode after one more character. -/
def modeAfter (s : LineState) (c : Char) : CharClass :=
  match s.mode with
  | .comment => .comment
  | .string => if c = '"' ∧ s.prev ≠ some '\\' then .code else .string
  | .code =>
    if c = '"' ∧ s.prev ≠ some '\\' then .string else if c = '#' then .comment else .code

/-- The state after one more character; every line starts afresh. -/
def step (s : LineState) (c : Char) : LineState :=
  if c = '\n' then {} else ⟨s.modeAfter c, some c⟩

/-- The state after more text. -/
def run (s : LineState) (cs : List Char) : LineState :=
  cs.foldl step s

/-- The class of the next character. The quote that closes a string still belongs to it. -/
def classOf (s : LineState) (c : Char) : CharClass :=
  match s.mode with
  | .string => .string
  | _ => s.modeAfter c

@[simp] theorem run_nil (s : LineState) : s.run [] = s := rfl

@[simp] theorem run_cons (s : LineState) (c : Char) (cs : List Char) :
    s.run (c :: cs) = (s.step c).run cs := rfl

@[simp] theorem run_append (s : LineState) (xs ys : List Char) :
    s.run (xs ++ ys) = (s.run xs).run ys := by
  simp [run]

@[simp] theorem step_newline (s : LineState) : s.step '\n' = {} := rfl

theorem step_of_ne {s : LineState} {c : Char} (h : c ≠ '\n') : s.step c = ⟨s.modeAfter c, some c⟩ :=
  if_neg h

/-- A line feed at the end of a text brings the state back to the start. -/
theorem run_of_getLast? {s : LineState} {cs : List Char} (h : cs.getLast? = some '\n') :
    s.run cs = {} := by
  obtain ⟨front, rfl⟩ := List.getLast?_eq_some_iff.mp h
  simp

/-- The character before is the last one of the line. -/
theorem prev_run (cs : List Char) : (run {} cs).prev = lastOnLine cs := by
  rcases List.eq_nil_or_concat cs with rfl | ⟨front, c, rfl⟩
  · rfl
  · rw [List.concat_eq_append, run_append, run_cons, run_nil]
    by_cases hc : c = '\n'
    · simp [hc, lastOnLine, Option.filter]
    · simp [step_of_ne hc, lastOnLine, Option.filter, hc]

theorem mode_run_comment {s : LineState} {cs : List Char} (hs : s.mode = .comment)
    (h : '\n' ∉ cs) : (s.run cs).mode = .comment := by
  induction cs generalizing s with
  | nil => exact hs
  | cons c cs ih =>
    simp only [List.mem_cons, not_or] at h
    rw [run_cons, step_of_ne (Ne.symm h.1)]
    exact ih (by simp [modeAfter, hs]) h.2

end LineState

/-- The mode inside or outside a string. -/
def modeOf (inString : Bool) : CharClass :=
  if inString then .string else .code

/-- Classification, read character by character off the state. -/
theorem getElem?_classifyFrom {inString : Bool} {prev : Option Char} {row : List Char}
    (hline : '\n' ∉ row) {k : Nat} {c : Char} (hk : row[k]? = some c) :
    (classifyFrom inString prev row)[k]? =
      some (((⟨modeOf inString, prev⟩ : LineState).run (row.take k)).classOf c) := by
  induction row generalizing inString prev k with
  | nil => simp at hk
  | cons d row ih =>
    simp only [List.mem_cons, not_or] at hline
    have hd : d ≠ '\n' := Ne.symm hline.1
    rw [classifyFrom]
    split
    · rename_i hq
      cases k with
      | zero =>
        obtain rfl : d = c := by simpa using hk
        cases inString <;> simp [modeOf, LineState.classOf, LineState.modeAfter, hq]
      | succ k =>
        have hmode : (⟨modeOf inString, prev⟩ : LineState).modeAfter d = modeOf (!inString) := by
          cases inString <;> simp [modeOf, LineState.modeAfter, hq]
        rw [List.getElem?_cons_succ, ih hline.2 (by simpa using hk), List.take_succ_cons,
          LineState.run_cons, LineState.step_of_ne hd, hmode]
    · rename_i hq
      split
      · -- from here on the line is a comment
        rename_i hh
        obtain ⟨rfl, rfl⟩ := hh
        have hlt : k < row.length + 1 := by
          simpa using List.getElem?_eq_some_iff.mp hk |>.1
        rw [List.getElem?_replicate, if_pos hlt]
        cases k with
        | zero =>
          obtain rfl : '#' = c := by simpa using hk
          rfl
        | succ k =>
          have hmode : ((⟨modeOf false, prev⟩ : LineState).run (('#' :: row).take (k + 1))).mode =
              .comment := by
            rw [List.take_succ_cons, LineState.run_cons]
            exact LineState.mode_run_comment rfl fun h => hline.2 (List.mem_of_mem_take h)
          rw [LineState.classOf, LineState.modeAfter, hmode]
      · rename_i hh
        have hmode : (⟨modeOf inString, prev⟩ : LineState).modeAfter d = modeOf inString := by
          cases inString <;> simp_all [modeOf, LineState.modeAfter]
        cases k with
        | zero =>
          obtain rfl : d = c := by simpa using hk
          cases inString
          · simpa [modeOf, LineState.classOf] using hmode.symm
          · rfl
        | succ k =>
          rw [List.getElem?_cons_succ, ih hline.2 (by simpa using hk), List.take_succ_cons,
            LineState.run_cons, LineState.step_of_ne hd, hmode]

/-- The class of a character of a line is decided by the text before it, from the start of the
document on. -/
theorem getElem?_classify {text before row : List Char} (h : Text.LineAt text before row)
    {k : Nat} {c : Char} (hk : row[k]? = some c) :
    (classify row)[k]? = some ((LineState.run {} (before ++ row.take k)).classOf c) := by
  have hb : LineState.run {} before = {} := by
    rcases h.before_end with rfl | hend
    · rfl
    · exact LineState.run_of_getLast? hend
  rw [classify, getElem?_classifyFrom h.newline_not_mem hk, LineState.run_append, hb]
  rfl

/-! ## The state over a gap -/

/-- The mode inside or outside a comment. -/
def gapMode (inComment : Bool) : CharClass :=
  if inComment then .comment else .code

namespace LineState

theorem step_gap {s : LineState} {inComment : Bool} {c : Char} (hs : s.mode = gapMode inComment)
    (hc : inComment = true ∨ Text.isBlank c = true ∨ c = '#') :
    (s.step c).mode = gapMode (commentAfter inComment c) := by
  by_cases hn : c = '\n'
  · cases inComment <;> simp [hn, gapMode, commentAfter]
  · rw [step_of_ne hn]
    cases inComment with
    | true => simp [modeAfter, hs, gapMode, commentAfter, hn]
    | false =>
      have hq : c ≠ '"' := by
        rintro rfl
        simp at hc
      by_cases hh : c = '#' <;> simp [modeAfter, hs, gapMode, commentAfter, hq, hh]

/-- Where a gap ends and a token follows, the line is in code. -/
theorem mode_run_gap {s : LineState} {inComment : Bool} {gap rest : List Char} {c : Char}
    (hs : s.mode = gapMode inComment)
    (hgap : trivia inComment (gap ++ c :: rest) = gap.length) : (s.run gap).mode = .code := by
  induction gap generalizing s inComment with
  | nil =>
    cases inComment with
    | true => exact absurd (.inl rfl) (trivia_cons_eq_zero hgap)
    | false => exact hs
  | cons g gap ih =>
    obtain ⟨hg, hnext⟩ := trivia_cons_eq_succ_iff.mp hgap
    exact ih (step_gap hs hg) hnext

end LineState

/-- The character `c` after the gap text `u` stands in a comment: one was open and the line goes
on, or a `#` on its line comes first. -/
def BehindHash (inComment : Bool) (u : List Char) (c : Char) : Prop :=
  (inComment = true ∧ '\n' ∉ u) ∨ ∃ w x, u ++ [c] = w ++ '#' :: x ∧ '\n' ∉ x

theorem behindHash_cons_iff {inComment : Bool} {g c : Char} {u : List Char} (hc : c ≠ '\n') :
    BehindHash inComment (g :: u) c ↔ BehindHash (commentAfter inComment g) u c := by
  constructor
  · rintro (⟨rfl, hn⟩ | ⟨w, x, hw, hx⟩)
    · simp only [List.mem_cons, not_or] at hn
      exact .inl ⟨by simp [commentAfter, Ne.symm hn.1], hn.2⟩
    · cases w with
      | nil =>
        obtain ⟨rfl, rfl⟩ : g = '#' ∧ u ++ [c] = x := by simpa using hw
        refine .inl ⟨by cases inComment <;> rfl, ?_⟩
        simp only [List.mem_append, not_or] at hx
        exact hx.1
      | cons d w => exact .inr ⟨w, x, by simpa using (List.cons.inj hw).2, hx⟩
  · rintro (⟨hopen, hn⟩ | ⟨w, x, hw, hx⟩)
    · cases inComment with
      | true =>
        have hg : g ≠ '\n' := by simpa [commentAfter] using hopen
        exact .inl ⟨rfl, by simp [hn, Ne.symm hg]⟩
      | false =>
        obtain rfl : g = '#' := by simpa [commentAfter] using hopen
        exact .inr ⟨[], u ++ [c], rfl, by simp [hn, Ne.symm hc]⟩
    · exact .inr ⟨g :: w, x, by simp [hw], hx⟩

/-- A character of a gap is a comment behind a `#`, and a blank of the code otherwise. -/
theorem classOf_run_gap {s : LineState} {inComment : Bool} {u v rest : List Char} {c : Char}
    (hs : s.mode = gapMode inComment) (hc : c ≠ '\n')
    (hgap : trivia inComment (u ++ c :: v ++ rest) = (u ++ c :: v).length) :
    (BehindHash inComment u c ∧ (s.run u).classOf c = .comment) ∨
      (¬ BehindHash inComment u c ∧ Text.isBlank c = true ∧ (s.run u).classOf c = .code) := by
  induction u generalizing s inComment with
  | nil =>
    obtain ⟨hg, _⟩ := trivia_cons_eq_succ_iff.mp hgap
    cases inComment with
    | true => exact .inl ⟨.inl ⟨rfl, by simp⟩, by simp [LineState.classOf, LineState.modeAfter, hs, gapMode]⟩
    | false =>
      by_cases hh : c = '#'
      · subst hh
        exact .inl ⟨.inr ⟨[], [], rfl, by simp⟩,
          by simp [LineState.classOf, LineState.modeAfter, hs, gapMode]⟩
      · have hb : Text.isBlank c = true := by simpa [hh] using hg
        have hq : c ≠ '"' := by
          rintro rfl
          simp at hb
        refine .inr ⟨?_, hb, by simp [LineState.classOf, LineState.modeAfter, hs, gapMode, hq, hh]⟩
        rintro (⟨h, _⟩ | ⟨w, x, hw, _⟩)
        · cases h
        · cases w with
          | nil => exact hh (List.cons.inj hw).1
          | cons d w => simp at hw
  | cons g u ih =>
    obtain ⟨hg, hnext⟩ := trivia_cons_eq_succ_iff.mp hgap
    rw [behindHash_cons_iff hc, LineState.run_cons]
    exact ih (LineState.step_gap hs hg) hnext

/-! ## The state over a lexeme -/

namespace LineState

theorem modeAfter_plain {s : LineState} {c : Char} (hs : s.mode = .code) (hc : Lexeme.Plain c) :
    s.modeAfter c = .code := by
  simp [modeAfter, hs, hc.1, hc.2.1]

/-- The quote that opens a string literal. -/
theorem step_quote {s : LineState} {c : Char} (hs : s.mode = .code)
    (hq : c = '"' ∧ s.prev ≠ some '\\') : s.step c = ⟨.string, some c⟩ := by
  rw [step_of_ne (by rw [hq.1]; decide), modeAfter, hs]
  simp [hq]

/-- Plain characters leave the line in code. -/
theorem mode_run_plain {s : LineState} {cs : List Char} (hs : s.mode = .code)
    (hcs : ∀ c ∈ cs, Lexeme.Plain c) : (s.run cs).mode = .code := by
  induction cs generalizing s with
  | nil => exact hs
  | cons c cs ih =>
    have hc := hcs c List.mem_cons_self
    rw [run_cons, step_of_ne hc.2.2]
    exact ih (modeAfter_plain hs hc) fun d hd => hcs d (List.mem_cons_of_mem _ hd)

/-- Inside a string literal the line is in a string. -/
theorem mode_run_string {s : LineState} {p : Char} {cs u v : List Char} {c : Char}
    (hs : s.mode = .string) (hp : s.prev = some p)
    (hcs : cs.take (Lexeme.stringTail p cs).1 = u ++ c :: v) : (s.run u).mode = .string := by
  induction cs generalizing s p u with
  | nil => simp at hcs
  | cons d cs ih =>
    cases u with
    | nil => exact hs
    | cons e u =>
      rw [Lexeme.stringTail] at hcs
      split at hcs
      · simp at hcs
      · rename_i hq
        split at hcs
        · simp at hcs
        · rename_i hn
          simp only [List.take_succ_cons, List.cons_append, List.cons.injEq] at hcs
          obtain ⟨rfl, hcs⟩ := hcs
          rw [run_cons, step_of_ne hn]
          exact ih (by simpa [modeAfter, hs, hp] using hq) rfl hcs

/-- The quote that closes a string literal brings the line back to code. -/
theorem mode_run_closed {s : LineState} {p : Char} {cs : List Char}
    (hs : s.mode = .string) (hp : s.prev = some p) (hclosed : (Lexeme.stringTail p cs).2 = true) :
    (s.run (cs.take (Lexeme.stringTail p cs).1)).mode = .code := by
  induction cs generalizing s p with
  | nil => simp [Lexeme.stringTail] at hclosed
  | cons d cs ih =>
    rw [Lexeme.stringTail] at hclosed ⊢
    split at hclosed
    · rename_i hq
      rw [if_pos hq]
      obtain ⟨rfl, hb⟩ := hq
      have hprev : s.prev ≠ some '\\' := by simpa [hp] using hb
      show (s.step '"').mode = .code
      rw [step_of_ne (by decide), modeAfter, hs]
      simp [hprev]
    · rename_i hq
      split at hclosed
      · cases hclosed
      · rename_i hn
        rw [if_neg hq, if_neg hn]
        simp only [List.take_succ_cons, run_cons, step_of_ne hn]
        exact ih (by simpa [modeAfter, hs, hp] using hq) rfl hclosed

/-- The line is in code, or nothing more comes on it. -/
def Settled (s : LineState) (rest : List Char) : Prop :=
  s.mode = .code ∨ rest = [] ∨ rest.head? = some '\n'

/-- Up to a character of the line the state may be taken to be in code. -/
theorem Settled.run_eq {s : LineState} {u v : List Char} {c : Char} (h : s.Settled (u ++ c :: v))
    (hc : c ≠ '\n') : ∃ s' : LineState, s'.mode = .code ∧ s.run u = s'.run u := by
  rcases h with h | h | h
  · exact ⟨s, h, rfl⟩
  · simp at h
  · cases u with
    | nil => exact absurd (Option.some.inj h) hc
    | cons d u =>
      obtain rfl : d = '\n' := Option.some.inj h
      exact ⟨{}, rfl, rfl⟩

section Lexeme

variable {s : LineState} {prev : Option Char} {c : Char} {tail rest : List Char} {lexeme : Lexeme}

/-- Over a string literal every character is of the string, and the line is settled after it. -/
theorem run_string_literal (hs : s.mode = .code) (hp : s.prev = prev)
    (hread : Lexeme.read prev c (tail ++ rest) = lexeme) (hmore : lexeme.more = tail.length)
    (hk : lexeme.kind = .stringLiteral) :
    (∀ u d v, c :: tail = u ++ d :: v → (s.run u).classOf d = .string) ∧
      (s.run (c :: tail)).Settled rest := by
  obtain ⟨hq, hread'⟩ := Lexeme.stringTail_of_read hread hmore hk
  have htail : (tail ++ rest).take (Lexeme.stringTail c (tail ++ rest)).1 = tail := by
    rw [hread', List.take_left' rfl]
  have hstep : s.step c = ⟨.string, some c⟩ := step_quote hs (hp ▸ hq)
  constructor
  · intro u d v huv
    cases u with
    | nil =>
      obtain rfl : c = d := (List.cons.inj huv).1
      simp [classOf, modeAfter, hs, hp, hq]
    | cons e u =>
      obtain ⟨rfl, htl⟩ := List.cons.inj huv
      have hmode : ((s.step c).run u).mode = .string := by
        rw [hstep]
        exact mode_run_string rfl rfl (htail.trans htl)
      rw [run_cons, classOf, hmode]
  · rw [run_cons, hstep]
    cases hclosed : lexeme.terminated with
    | true =>
      refine .inl ?_
      rw [← htail]
      exact mode_run_closed rfl rfl (by rw [hread', hclosed])
    | false =>
      refine .inr ?_
      have hcut := @Lexeme.drop_stringTail_of_not_closed c (tail ++ rest) (by rw [hread', hclosed])
      rwa [hread', List.drop_left' rfl] at hcut

/-- Over any other lexeme every character is code, and the line stays in code. -/
theorem run_other_lexeme (hs : s.mode = .code) (hp : s.prev = prev)
    (hread : Lexeme.read prev c (tail ++ rest) = lexeme) (hmore : lexeme.more = tail.length)
    (hb : Text.isBlank c = false) (hh : c ≠ '#') (hk : lexeme.kind ≠ .stringLiteral) :
    (∀ u d v, c :: tail = u ++ d :: v → (s.run u).classOf d = .code) ∧
      (s.run (c :: tail)).mode = .code := by
  have hq : ¬ (c = '"' ∧ prev ≠ some '\\') := by
    rw [← Lexeme.kind_read_eq_string_iff prev c (tail ++ rest), hread]
    exact hk
  have hplain : ∀ d ∈ tail, Lexeme.Plain d := by
    intro d hd
    refine @Lexeme.plain_of_mem_read prev c (tail ++ rest) d ?_ ?_
    · rw [hread]
      exact hk
    · rwa [hread, hmore, List.take_left' rfl]
  have hmode : s.modeAfter c = .code := by
    simp only [modeAfter, hs, hp, if_neg hq, if_neg hh]
  have hn : c ≠ '\n' := by
    rintro rfl
    simp at hb
  constructor
  · intro u d v huv
    cases u with
    | nil =>
      obtain rfl : c = d := (List.cons.inj huv).1
      simpa [classOf, hs] using hmode
    | cons e u =>
      obtain ⟨rfl, htl⟩ := List.cons.inj huv
      have hrun : ((s.step c).run u).mode = .code := by
        rw [step_of_ne hn]
        exact mode_run_plain hmode fun x hx => hplain x (by simp [htl, hx])
      rw [run_cons, classOf, hrun]
      exact modeAfter_plain hrun (hplain d (by simp [htl]))
  · rw [run_cons, step_of_ne hn]
    exact mode_run_plain hmode hplain

/-- Every character of a lexeme has the class of the lexeme, and the line is settled after it. -/
theorem run_lexeme (hs : s.mode = .code) (hp : s.prev = prev)
    (hread : Lexeme.read prev c (tail ++ rest) = lexeme) (hmore : lexeme.more = tail.length)
    (hb : Text.isBlank c = false) (hh : c ≠ '#') :
    (∀ u d v, c :: tail = u ++ d :: v →
      (s.run u).classOf d = if lexeme.kind = .stringLiteral then .string else .code) ∧
      (s.run (c :: tail)).Settled rest := by
  by_cases hk : lexeme.kind = .stringLiteral
  · rw [if_pos hk]
    exact run_string_literal hs hp hread hmore hk
  · rw [if_neg hk]
    obtain ⟨hclass, hcode⟩ := run_other_lexeme hs hp hread hmore hb hh hk
    exact ⟨hclass, .inl hcode⟩

end Lexeme

end LineState

end CharClass

/-! ## Tokens over characters -/

/-- The character at a byte offset lies inside the token. -/
def Token.Covers (t : Token) (offset : Nat) : Prop :=
  t.span.start.offset ≤ offset ∧ offset < t.span.stop.offset

/-- The characters at two byte offsets, the second not before the first, have no token at or
between them. -/
def SameGap (ts : List Token) (first second : Nat) : Prop :=
  ∀ t ∈ ts, t.span.stop.offset ≤ first ∨ second < t.span.start.offset

/-- Tokens that stand in order cover a character at most once. -/
theorem covers_unique {ts : List Token}
    (hord : ts.Pairwise fun a b => a.span.stop.offset ≤ b.span.start.offset) {a b : Token}
    (ha : a ∈ ts) (hb : b ∈ ts) {offset : Nat} (hca : a.Covers offset) (hcb : b.Covers offset) :
    a = b := by
  induction ts with
  | nil => cases ha
  | cons t ts ih =>
    obtain ⟨hfirst, hrest⟩ := List.pairwise_cons.mp hord
    have hca' := hca
    have hcb' := hcb
    unfold Token.Covers at hca' hcb'
    rcases List.mem_cons.mp ha with rfl | ha' <;> rcases List.mem_cons.mp hb with rfl | hb'
    · rfl
    · have := hfirst b hb'
      omega
    · have := hfirst a ha'
      omega
    · exact ih hrest ha' hb'

/-- A character of a text that has two parts lies in the first or in the second. -/
theorem append_eq_append_cons {xs ys u v : List Char} {c : Char} (h : xs ++ ys = u ++ c :: v) :
    (∃ b, xs = u ++ c :: b) ∨ ∃ a, u = xs ++ a ∧ ys = a ++ c :: v := by
  rcases List.append_eq_append_iff.mp h with ⟨a, hu, hy⟩ | ⟨b, hx, hb⟩
  · exact .inr ⟨a, hu, hy⟩
  · cases b with
    | nil => exact .inr ⟨[], by simpa using hx.symm, by simpa using hb.symm⟩
    | cons d b =>
      obtain ⟨rfl, _⟩ := List.cons.inj hb
      exact .inl ⟨b, hx⟩

/-- The character `c` after `front ++ u` is a `#` of `u ++ [c]` or stands behind one, on its line
and with no token between. -/
def HashBefore (ts : List Token) (front u : List Char) (c : Char) : Prop :=
  ∃ w x, u ++ [c] = w ++ '#' :: x ∧ '\n' ∉ x ∧
    SameGap ts (Text.byteSize (front ++ w)) (Text.byteSize (front ++ u))

/-- What the tokens say of the character `c` after `front ++ u`: it has the class of the token that
covers it, or of its place in a gap. -/
def Agrees (ts : List Token) (front u : List Char) (c : Char) (cls : CharClass) : Prop :=
  (∃ t ∈ ts, t.Covers (Text.byteSize (front ++ u)) ∧
    cls = if t.kind = .stringLiteral then .string else .code) ∨
  ((∀ t ∈ ts, ¬ t.Covers (Text.byteSize (front ++ u))) ∧
    ((HashBefore ts front u c ∧ cls = .comment) ∨
      (¬ HashBefore ts front u c ∧ Text.isBlank c = true ∧ cls = .code)))

open CharClass CharClass.LineState in
/-- A character of a gap, with every token after it. -/
theorem agrees_gap {ts : List Token} {front u v rest : List Char} {c : Char} (hc : c ≠ '\n')
    (hset : (run {} front).Settled (u ++ c :: v ++ rest))
    (hgap : trivia false (u ++ c :: v ++ rest) = (u ++ c :: v).length)
    (hts : ∀ t ∈ ts, Text.byteSize (front ++ (u ++ c :: v)) ≤ t.span.start.offset) :
    Agrees ts front u c ((run {} (front ++ u)).classOf c) := by
  have hlt : ∀ t ∈ ts, Text.byteSize (front ++ u) < t.span.start.offset := by
    intro t ht
    have := hts t ht
    have := c.utf8Size_pos
    simp only [Text.byteSize_append, Text.byteSize_cons] at *
    omega
  have hhash : HashBefore ts front u c ↔ BehindHash false u c := by
    constructor
    · rintro ⟨w, x, hw, hx, _⟩
      exact .inr ⟨w, x, hw, hx⟩
    · rintro (⟨h, _⟩ | ⟨w, x, hw, hx⟩)
      · cases h
      · exact ⟨w, x, hw, hx, fun t ht => .inr (hlt t ht)⟩
  obtain ⟨s, hs, hrun⟩ := Settled.run_eq (by simpa using hset) hc
  refine .inr ⟨fun t ht hcov => ?_, ?_⟩
  · have := hlt t ht
    have := hcov.1
    omega
  · rw [hhash, run_append, hrun]
    exact classOf_run_gap hs hc hgap

/-- A character of the lexeme of the first token. -/
theorem agrees_spelling {file : String} {ts : List Token} {lexeme : Lexeme}
    {front gap cs u v : List Char} {c : Char} (h : cs = u ++ c :: v) :
    Agrees ((Lexer.Scanned.spelling file (front ++ gap) lexeme cs).token :: ts) front (gap ++ u) c
      (if lexeme.kind = .stringLiteral then .string else .code) := by
  refine .inl ⟨_, List.mem_cons_self, ⟨?_, ?_⟩, rfl⟩
  · exact Text.byteSize_le_of_prefix ⟨u, by simp⟩
  · show Text.byteSize (front ++ (gap ++ u)) < Text.byteSize (front ++ gap ++ cs)
    have := c.utf8Size_pos
    rw [h]
    simp only [Text.byteSize_append, Text.byteSize_cons]
    omega

/-- What the tokens behind a token say of a character behind it, they say together with it. -/
theorem Agrees.cons {t : Token} {ts : List Token} {front mid u : List Char} {c : Char}
    {cls : CharClass} (h : Agrees ts (front ++ mid) u c cls)
    (hstop : t.span.stop.offset = Text.byteSize (front ++ mid)) (hpos : t.span.start.offset <
      t.span.stop.offset) : Agrees (t :: ts) front (mid ++ u) c cls := by
  have hle : Text.byteSize (front ++ mid) ≤ Text.byteSize (front ++ (mid ++ u)) :=
    Text.byteSize_le_of_prefix ⟨u, by simp⟩
  have hhash : HashBefore (t :: ts) front (mid ++ u) c ↔ HashBefore ts (front ++ mid) u c := by
    constructor
    · rintro ⟨w, x, hw, hx, hsame⟩
      have hwle : Text.byteSize (front ++ mid) ≤ Text.byteSize (front ++ w) := by
        rcases hsame t List.mem_cons_self with h | h <;> omega
      -- the `#` is not before the token, so it is behind it
      have hpre : front ++ mid <+: front ++ w := by
        refine @Text.prefix_of_byteSize_le _ _ (front ++ (mid ++ u ++ [c])) ?_ ?_ hwle
        · exact ⟨u ++ [c], by simp⟩
        · exact ⟨'#' :: x, by simp [hw]⟩
      obtain ⟨w', rfl⟩ := (List.prefix_append_right_inj front).mp hpre
      refine ⟨w', x, ?_, hx, ?_⟩
      · simpa using hw
      · intro t' ht'
        simpa using hsame t' (List.mem_cons_of_mem _ ht')
    · rintro ⟨w, x, hw, hx, hsame⟩
      refine ⟨mid ++ w, x, by simp [hw], hx, ?_⟩
      intro t' ht'
      rcases List.mem_cons.mp ht' with rfl | ht'
      · refine .inl ?_
        rw [hstop]
        exact Text.byteSize_le_of_prefix ⟨w, by simp⟩
      · simpa using hsame t' ht'
  rw [Agrees, hhash, ← List.append_assoc]
  rcases h with ⟨t', ht', hcov⟩ | ⟨hnone, hcls⟩
  · exact .inl ⟨t', List.mem_cons_of_mem _ ht', hcov⟩
  · refine .inr ⟨?_, hcls⟩
    intro t' ht'
    rcases List.mem_cons.mp ht' with rfl | ht'
    · intro hcov
      have := hcov.2
      rw [← List.append_assoc] at hle
      omega
    · exact hnone t' ht'

open CharClass CharClass.LineState in
/-- **The class of every character is what the tokens say.** The induction is over the tiling; the
line is settled wherever a gap starts. -/
theorem Lexer.Tiling.agrees {file : String} {front rest : List Char} {scanned : List Lexer.Scanned}
    (h : Lexer.Tiling file front rest scanned) (hset : (run {} front).Settled rest)
    {u v : List Char} {c : Char} (hrest : rest = u ++ c :: v) (hc : c ≠ '\n') :
    Agrees (scanned.map (·.token)) front u c ((run {} (front ++ u)).classOf c) := by
  induction h generalizing u with
  | @ending front gap hgap =>
    subst hrest
    refine agrees_gap hc (by simpa using hset) hgap ?_
    intro t ht
    obtain rfl : t = (Lexer.Scanned.ending file (front ++ (u ++ c :: v))).token := by simpa using ht
    exact Nat.le_refl _
  | @token front gap tail rest d scanned lexeme hgap hread hmore next ih =>
    obtain ⟨hb, hh⟩ := not_blank_of_trivia hgap
    have hd : d ≠ '\n' := by
      rintro rfl
      simp at hb
    have hmode : (run {} (front ++ gap)).mode = .code := by
      obtain ⟨s, hs, hrun⟩ := hset.run_eq hd
      rw [run_append, hrun]
      exact mode_run_gap (show s.mode = gapMode false from hs) hgap
    obtain ⟨hclass, hsettled⟩ := run_lexeme hmode (prev_run _) hread hmore hb hh
    rcases append_eq_append_cons hrest with ⟨b, rfl⟩ | ⟨a, rfl, hrest'⟩
    · -- the character is in the gap before the token
      refine agrees_gap hc hset hgap ?_
      intro t ht
      rcases List.mem_cons.mp ht with rfl | ht
      · exact Nat.le_refl _
      · obtain ⟨s, hs, rfl⟩ := List.mem_map.mp ht
        refine Nat.le_trans ?_ (next.le_start hs)
        exact Text.byteSize_le_of_prefix (List.prefix_append ..)
    · rw [← List.cons_append] at hrest'
      rcases append_eq_append_cons hrest' with ⟨b, hb'⟩ | ⟨a', rfl, hrest''⟩
      · -- the character is in the lexeme
        rw [← List.append_assoc, run_append, hclass a c b hb']
        exact agrees_spelling hb'
      · -- the character is behind the token
        have hset' : (run {} (front ++ gap ++ d :: tail)).Settled rest := by
          rw [run_append]
          exact hsettled
        have hrec := ih hset' hrest''
        have heq : front ++ (gap ++ (d :: tail ++ a')) = front ++ gap ++ d :: tail ++ a' := by simp
        rw [heq, show gap ++ (d :: tail ++ a') = (gap ++ d :: tail) ++ a' by simp]
        refine Agrees.cons (by simpa using hrec) (by simp [Lexer.Scanned.spelling]) ?_
        show Text.byteSize (front ++ gap) < Text.byteSize (front ++ gap ++ d :: tail)
        have := d.utf8Size_pos
        simp only [Text.byteSize_append, Text.byteSize_cons]
        omega

/-! ## Lines of a document -/

/-- The byte offset of character `k` of a line. -/
def Source.offsetAt (s : Source) (n : Nat) (line : List Char) (k : Nat) : Nat :=
  s.lineStart n + Text.byteSize (line.take k)

/-- A text is what stands before one of its characters, the character, and what stands behind. -/
theorem eq_take_append_cons {cs : List Char} {k : Nat} {c : Char} (h : cs[k]? = some c) :
    cs = cs.take k ++ c :: cs.drop (k + 1) := by
  obtain ⟨hlt, hget⟩ := List.getElem?_eq_some_iff.mp h
  rw [← hget, ← List.drop_eq_getElem_cons hlt, List.take_append_drop]

/-- A character that no line feed parts from a place of the line does not stand before the line. -/
theorem Text.LineAt.before_prefix {text before row : List Char} (h : Text.LineAt text before row)
    {cs w x : List Char} {c : Char} (heq : before ++ cs = w ++ c :: x) (hc : c ≠ '\n')
    (hx : '\n' ∉ x) : before <+: w := by
  rcases h.before_end with rfl | hend
  · exact List.nil_prefix
  · obtain ⟨front, rfl⟩ := List.getLast?_eq_some_iff.mp hend
    rw [List.append_assoc, List.singleton_append] at heq
    rcases append_eq_append_cons heq.symm with ⟨b, rfl⟩ | ⟨a, ha, hb⟩
    · exact ⟨b, by simp⟩
    · cases a with
      | nil => exact absurd (List.cons.inj hb).1 hc
      | cons e a =>
        have hx' := (List.cons.inj hb).2
        exact absurd (by simp [hx']) hx

/-- A `#` before a character of a line, told by its index in the line. -/
theorem hashBefore_iff {ts : List Token} {text before row : List Char} {k : Nat} {c : Char}
    (h : Text.LineAt text before row) (hk : row[k]? = some c) :
    HashBefore ts [] (before ++ row.take k) c ↔
      ∃ j ≤ k, row[j]? = some '#' ∧ SameGap ts (Text.byteSize before + Text.byteSize (row.take j))
        (Text.byteSize before + Text.byteSize (row.take k)) := by
  have hlt : k < row.length := (List.getElem?_eq_some_iff.mp hk).1
  have htake : row.take k ++ [c] = row.take (k + 1) := by
    rw [List.take_add_one, hk, Option.toList_some]
  simp only [HashBefore, List.nil_append, List.append_assoc, htake]
  constructor
  · rintro ⟨w, x, hw, hx, hsame⟩
    -- what follows the `#` has no line feed, so the `#` is on the line
    obtain ⟨w', rfl⟩ := h.before_prefix hw (by decide) hx
    have hw' : row.take (k + 1) = w' ++ '#' :: x := by simpa using hw
    have hlen := congrArg List.length hw'
    simp only [List.length_take, List.length_append, List.length_cons] at hlen
    have hj : w' = row.take w'.length := by
      refine List.prefix_iff_eq_take.mp (List.IsPrefix.trans ⟨'#' :: x, hw'.symm⟩ ?_)
      exact List.take_prefix ..
    refine ⟨w'.length, by omega, ?_, ?_⟩
    · have hget := congrArg (·[w'.length]?) hw'
      simp only [List.getElem?_take] at hget
      rw [if_pos (by omega)] at hget
      simpa using hget
    · rw [← hj, ← Text.byteSize_append, ← Text.byteSize_append]
      exact hsame
  · rintro ⟨j, hjk, hj, hsame⟩
    have hj' : (row.take (k + 1))[j]? = some '#' := by
      rw [List.getElem?_take, if_pos (by omega), hj]
    have hsplit : row.take (k + 1) = row.take j ++ '#' :: (row.take (k + 1)).drop (j + 1) := by
      have := eq_take_append_cons hj'
      rwa [List.take_take, Nat.min_eq_left (by omega)] at this
    refine ⟨before ++ row.take j, (row.take (k + 1)).drop (j + 1), ?_, ?_, ?_⟩
    · rw [List.append_assoc, ← hsplit]
    · intro hmem
      exact h.newline_not_mem (List.mem_of_mem_take (List.mem_of_mem_drop hmem))
    · simpa using hsame

/-- The text before a character of a line, and what follows it. -/
theorem Text.LineAt.char_split {text before row : List Char} (h : Text.LineAt text before row)
    {k : Nat} {c : Char} (hk : row[k]? = some c) :
    (∃ v, text = before ++ row.take k ++ c :: v) ∧ c ≠ '\n' := by
  obtain ⟨after, rfl, _⟩ := h.text_eq
  constructor
  · refine ⟨row.drop (k + 1) ++ after, ?_⟩
    conv => lhs; rw [eq_take_append_cons hk]
    simp
  · rintro rfl
    exact h.newline_not_mem (List.mem_of_getElem? hk)

/-- **Tokens and line classification agree character by character.** Character `k` of line `n` is
of a string exactly if a string literal covers it, of a comment exactly if no token covers it and a
`#` of its line stands at or before it in the same gap, and code exactly if another token covers it
or it is a blank with neither token nor such a `#`. -/
theorem classify_agrees_with_tokens (uri text : String) (n k : Nat) (row : List Char) (c : Char)
    (hline : (Source.mk uri text).rawLine? n = some row) (hk : row[k]? = some c) :
    let ts := (Lexer.tokenize uri text).1
    let offset := (Source.mk uri text).offsetAt n row
    let behindHash := ∃ j ≤ k, row[j]? = some '#' ∧ SameGap ts (offset j) (offset k)
    ((CharClass.classify row)[k]? = some .string ↔
      ∃ t ∈ ts, t.kind = .stringLiteral ∧ t.Covers (offset k)) ∧
    ((CharClass.classify row)[k]? = some .comment ↔
      (∀ t ∈ ts, ¬ t.Covers (offset k)) ∧ behindHash) ∧
    ((CharClass.classify row)[k]? = some .code ↔
      (∃ t ∈ ts, t.kind ≠ .stringLiteral ∧ t.Covers (offset k)) ∨
        ((∀ t ∈ ts, ¬ t.Covers (offset k)) ∧ Text.isBlank c = true ∧ ¬ behindHash)) := by
  intro ts offset behindHash
  cases n with
  | zero => cases hline
  | succ n =>
    obtain ⟨before, hat, _, hbytes⟩ := Text.lineAt_of_rawLines hline
    obtain ⟨⟨v, hv⟩, hc⟩ := hat.char_split hk
    obtain ⟨scanned, htiling, htok⟩ := Lexer.tiling_tokenize uri text
    have hts : ts = scanned.map (·.token) := congrArg Prod.fst htok
    have hoff : ∀ j, offset j = Text.byteSize before + Text.byteSize (row.take j) := fun j =>
      congrArg (· + Text.byteSize (row.take j)) hbytes
    have hord : ts.Pairwise fun a b => a.span.stop.offset ≤ b.span.start.offset := by
      rw [hts]
      exact List.pairwise_map.mpr htiling.ordered
    have hhash : HashBefore ts [] (before ++ row.take k) c ↔ behindHash := by
      rw [hashBefore_iff hat hk]
      simp only [behindHash, hoff]
    have hagrees := htiling.agrees (.inl rfl) hv hc
    rw [← hts, List.nil_append, Agrees, hhash, List.nil_append, Text.byteSize_append, ← hoff] at hagrees
    rw [CharClass.getElem?_classify hat hk]
    generalize (CharClass.LineState.run {} (before ++ row.take k)).classOf c = cls at hagrees
    rcases hagrees with ⟨t, ht, hcov, rfl⟩ | ⟨hnone, hcls⟩
    · -- one token covers the character, and no other does
      have huniq : ∀ t' ∈ ts, t'.Covers (offset k) → t' = t := fun t' ht' hcov' =>
        covers_unique hord ht' ht hcov' hcov
      by_cases hkind : t.kind = .stringLiteral <;> grind
    · grind

/-- The second line of this text has an escaped quote, a `#` in a string, and a quote in a comment;
that last quote is comment because of the `#` two characters before it. -/
theorem classify_agrees_at_quote_in_comment :
    let source := Source.mk "t.aur" "a\n\\\" \"#\" # \""
    let row := ['\\', '"', ' ', '"', '#', '"', ' ', '#', ' ', '"']
    let ts := (Lexer.tokenize "t.aur" "a\n\\\" \"#\" # \"").1
    source.rawLine? 2 = some row ∧ row[9]? = some '"' ∧
      ((CharClass.classify row)[9]? = some .comment ↔
        (∀ t ∈ ts, ¬ t.Covers (source.offsetAt 2 row 9)) ∧
          ∃ j ≤ 9, row[j]? = some '#' ∧
            SameGap ts (source.offsetAt 2 row j) (source.offsetAt 2 row 9)) :=
  ⟨by decide, by decide,
    (classify_agrees_with_tokens "t.aur" "a\n\\\" \"#\" # \"" 2 9 _ '"' (by decide) (by decide)).2.1⟩

end AuroraLint
