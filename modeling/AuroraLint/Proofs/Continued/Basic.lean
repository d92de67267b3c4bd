import AuroraLint.Proofs.Balance
import AuroraLint.Proofs.Extent

/-!
# A document that goes on

Where the brackets of a document are balanced, nothing is open at its end: no search for a closer
and no expression gets there before it is decided. So a declaration that is written below the
document changes nothing of what was read in it.

* `Continued` : a balanced document, and one that goes on with `extern` where the first one ends.

Main statements: `Brackets.lists_closed` and `Brackets.blocks_closed` — the rest of a balanced
document closes at least as often as it opens; `Continued.callClose`, `Continued.expressionEnd` and
`Continued.blockEnd` — lists, expressions and blocks of the document end where they did.
-/

set_option autoImplicit false

namespace AuroraLint

/-! ## The rest of a balanced document -/

namespace Brackets

section Count

variable {opens closes : Char → Bool} (hpair : ∀ s : BracketShape,
  opens s.openChar = closes s.closeChar ∧ opens s.closeChar = false ∧ closes s.openChar = false)

include hpair

theorem Balanced.countP_eq {w : List Char} (h : Balanced w) : w.countP opens = w.countP closes := by
  induction h with
  | nil => rfl
  | append _ _ ihu ihv => rw [List.countP_append, List.countP_append, ihu, ihv]
  | wrap shape _ ih =>
    obtain ⟨heq, hclose, hopen⟩ := hpair shape
    simp only [List.countP_cons, List.countP_append, List.countP_nil, ih, heq, hclose, hopen]
    simp

/-- **A suffix of a balanced word closes at least as often as it opens.** -/
theorem Balanced.countP_suffix_le {u v : List Char} (h : Balanced (u ++ v)) :
    v.countP opens ≤ v.countP closes := by
  generalize hw : u ++ v = w at h
  induction h generalizing u v with
  | nil =>
    obtain ⟨_, rfl⟩ := List.append_eq_nil_iff.mp hw
    exact Nat.le_refl _
  | @append a b ha hb iha ihb =>
    rcases List.append_eq_append_iff.mp hw with ⟨m, rfl, rfl⟩ | ⟨m, rfl, rfl⟩
    · -- the suffix starts in the first word
      have hm := iha rfl
      have hcount := hb.countP_eq hpair
      rw [List.countP_append, List.countP_append]
      omega
    · exact ihb rfl
  | @wrap shape w hbal ih =>
    cases u with
    | nil =>
      rw [List.nil_append] at hw
      rw [hw]
      exact Nat.le_of_eq ((Balanced.wrap shape hbal).countP_eq hpair)
    | cons c u =>
      have hrest : u ++ v = w ++ [shape.closeChar] := (List.cons.inj hw).2
      rcases List.eq_nil_or_concat v with rfl | ⟨v, d, rfl⟩
      · exact Nat.le_refl _
      · -- the suffix ends with the closer
        rw [List.concat_eq_append, ← List.append_assoc] at hrest
        obtain ⟨hw, hd⟩ := List.append_inj' hrest rfl
        have hle := ih hw
        obtain rfl := (List.cons.inj hd).1
        rw [List.concat_eq_append, List.countP_append, List.countP_append]
        simp only [List.countP_singleton, (hpair shape).2.1, Bool.false_eq_true, if_false]
        omega

end Count

section Suffix

variable {front rest : List Token}

/-- The rest of a balanced document closes at least as many lists as it opens. -/
theorem lists_closed (h : check (front ++ rest) = []) :
    rest.countP (fun t => t.kind.opensList) ≤ rest.countP (fun t => t.kind.closesList) := by
  have hbal := (check_eq_nil_iff _).mp h
  rw [tokenBrackets, List.filterMap_append] at hbal
  have hle := @Balanced.countP_suffix_le (fun c => c == '(' || c == '[')
    (fun c => c == ')' || c == ']') (by intro s; cases s <;> decide) _ _ hbal
  rw [List.countP_filterMap, List.countP_filterMap] at hle
  have hopens : ∀ k : Kind, (k.bracketChar?.map fun c => c == '(' || c == '[').getD false =
      k.opensList := by intro k; cases k <;> rfl
  have hcloses : ∀ k : Kind, (k.bracketChar?.map fun c => c == ')' || c == ']').getD false =
      k.closesList := by intro k; cases k <;> rfl
  simpa only [hopens, hcloses] using hle

/-- The rest of a balanced document closes at least as many blocks as it opens. -/
theorem blocks_closed (h : check (front ++ rest) = []) :
    rest.countP (fun t => t.kind == .leftBrace) ≤ rest.countP (fun t => t.kind == .rightBrace) := by
  have hbal := (check_eq_nil_iff _).mp h
  rw [tokenBrackets, List.filterMap_append] at hbal
  have hle := @Balanced.countP_suffix_le (fun c => c == '\x7b') (fun c => c == '\x7d')
    (by intro s; cases s <;> decide) _ _ hbal
  rw [List.countP_filterMap, List.countP_filterMap] at hle
  have hopens : ∀ k : Kind, (k.bracketChar?.map fun c => c == '\x7b').getD false =
      (k == .leftBrace) := by intro k; cases k <;> rfl
  have hcloses : ∀ k : Kind, (k.bracketChar?.map fun c => c == '\x7d').getD false =
      (k == .rightBrace) := by intro k; cases k <;> rfl
  simpa only [hopens, hcloses] using hle

end Suffix

end Brackets

/-! ## Searches that are decided before the end -/

section Append

variable {rest : List Token}

/-- A list that closes before the end of the tokens closes there, whatever follows. -/
theorem closeFrom_append {depth i : Nat} (hdepth : 1 ≤ depth) (tail : List Token)
    (hclosed : depth + rest.countP (fun t => t.kind.opensList) ≤
      rest.countP (fun t => t.kind.closesList)) :
    closeFrom depth i (rest ++ tail) = closeFrom depth i rest := by
  induction rest generalizing depth i with
  | nil =>
    simp only [List.countP_nil] at hclosed
    omega
  | cons t rest ih =>
    simp only [List.countP_cons] at hclosed
    rw [List.cons_append, closeFrom, closeFrom]
    by_cases hopens : t.kind.opensList = true
    · have hcloses := Kind.closesList_of_opensList hopens
      simp only [hopens, hcloses, if_true, Bool.false_eq_true, if_false] at hclosed ⊢
      exact ih (by omega) (by omega)
    · simp only [hopens, Bool.false_eq_true, if_false] at hclosed ⊢
      by_cases hcloses : t.kind.closesList = true
      · simp only [hcloses, if_true] at hclosed ⊢
        split
        · rfl
        · exact ih (by omega) (by omega)
      · simp only [hcloses, Bool.false_eq_true, if_false] at hclosed ⊢
        split
        · rfl
        · exact ih hdepth (by omega)

/-- A block closes where the tokens close more often than they open. -/
theorem exists_blockFrom {depth i : Nat} (hdepth : 1 ≤ depth)
    (hclosed : depth + rest.countP (fun t => t.kind == .leftBrace) ≤
      rest.countP (fun t => t.kind == .rightBrace)) : ∃ c, blockFrom depth i rest = some c := by
  induction rest generalizing depth i with
  | nil =>
    simp only [List.countP_nil] at hclosed
    omega
  | cons t rest ih =>
    simp only [List.countP_cons] at hclosed
    rw [blockFrom]
    split
    · rename_i hk
      simp only [hk] at hclosed
      exact ih (by omega) (by simp at hclosed; omega)
    · rename_i hk
      simp only [hk] at hclosed
      split
      · exact ⟨i, rfl⟩
      · exact ih (by omega) (by simp at hclosed; omega)
    · exact ⟨i, rfl⟩
    · rename_i hl hr _
      have hl' : (t.kind == .leftBrace) = false := by simpa using hl
      have hr' : (t.kind == .rightBrace) = false := by simpa using hr
      simp only [hl', hr'] at hclosed
      exact ih hdepth (by simpa using hclosed)

/-- A block of balanced tokens closes among them. -/
theorem Brackets.exists_blockFrom_of_check {ts : List Token} (h : check ts = []) {i : Nat}
    (hopen : kindAt ts i = .leftBrace) : ∃ c, blockFrom 0 i (ts.drop i) = some c := by
  have hi : i < ts.length := by
    refine Nat.lt_of_not_le fun hle => ?_
    rw [kindAt_of_length_le hle] at hopen
    cases hopen
  have hkind : (tokenAt ts i).kind = .leftBrace := hopen
  have hcons := drop_eq_tokenAt_cons hi
  rw [← List.take_append_drop i ts] at h
  have hclosed := blocks_closed h
  have hrest : 1 + (ts.drop (i + 1)).countP (fun t => t.kind == .leftBrace) ≤
      (ts.drop (i + 1)).countP (fun t => t.kind == .rightBrace) := by
    simp only [hcons, List.countP_cons, hkind] at hclosed
    simp at hclosed
    omega
  obtain ⟨c, hc⟩ := exists_blockFrom (i := i + 1) (Nat.le_refl 1) hrest
  refine ⟨c, ?_⟩
  rw [hcons, blockFrom, hkind]
  exact hc

/-- The end of a document has no bracket. -/
theorem Brackets.check_front {front : List Token} {last : Token}
    (h : check (front ++ [last]) = []) (hlast : last.kind = .eof) : check front = [] := by
  have hbal := (check_eq_nil_iff _).mp h
  have hnone : last.kind.bracketChar? = none := by rw [hlast]; rfl
  rw [check_eq_nil_iff]
  simpa [tokenBrackets, hnone] using hbal

/-- An expression whose lists close before the end of the tokens ends there at the latest, if what
follows can end an expression. -/
theorem expressionFrom_append {depth lastLine i : Nat} {next : Token}
    (hnext : next.kind.endsExpression = true) (tail : List Token)
    (hclosed : depth + rest.countP (fun t => t.kind.opensList) ≤
      rest.countP (fun t => t.kind.closesList)) :
    expressionFrom depth lastLine i (rest ++ next :: tail) =
      expressionFrom depth lastLine i rest := by
  induction rest generalizing depth lastLine i with
  | nil =>
    simp only [List.countP_nil] at hclosed
    have hdepth : depth = 0 := by omega
    simp [expressionFrom, hdepth, hnext]
  | cons t rest ih =>
    simp only [List.countP_cons] at hclosed
    rw [List.cons_append, expressionFrom, expressionFrom]
    by_cases hends : depth = 0 ∧ (t.kind.endsExpression ∨ t.line ≠ lastLine)
    · rw [if_pos hends, if_pos hends]
    · rw [if_neg hends, if_neg hends]
      split
      · rfl
      · refine ih ?_
        by_cases hopens : t.kind.opensList = true
        · have hcloses := Kind.closesList_of_opensList hopens
          simp only [hopens, hcloses, if_true, Bool.false_eq_true, if_false] at hclosed ⊢
          omega
        · simp only [hopens, Bool.false_eq_true, if_false] at hclosed ⊢
          by_cases hcloses : t.kind.closesList = true
          · -- outside of all lists a closer would have ended the expression
            have hdepth : depth ≠ 0 := by
              rintro rfl
              exact hends ⟨rfl, .inl (Kind.endsExpression_of_closesList hcloses)⟩
            simp only [hcloses, if_true] at hclosed ⊢
            omega
          · simp only [hcloses, Bool.false_eq_true, if_false] at hclosed ⊢
            exact hclosed

end Append

/-! ## Two documents -/

/-- The documents `ts` and `ts'` start with the tokens `front`. There `ts` ends, with its brackets
balanced, and `ts'` goes on with an external declaration. -/
structure Continued (front ts ts' : List Token) : Prop where
  endsInEof : EndsInEof ts
  endsInEof' : EndsInEof ts'
  balanced : Brackets.check ts = []
  ends : ∃ last, ts = front ++ [last]
  goesOn : ∃ word more, ts' = front ++ word :: more ∧ word.kind = .kwExtern

namespace Continued

variable {front ts ts' : List Token} {i : Nat}

theorem length_eq (h : Continued front ts ts') : ts.length = front.length + 1 := by
  obtain ⟨last, rfl⟩ := h.ends
  simp

theorem tokenAt (h : Continued front ts ts') (hi : i < front.length) :
    tokenAt ts' i = tokenAt ts i := by
  obtain ⟨last, rfl⟩ := h.ends
  obtain ⟨word, more, rfl, _⟩ := h.goesOn
  simp [AuroraLint.tokenAt, List.getD, List.getElem?_append_left hi]

theorem kindAt (h : Continued front ts ts') (hi : i < front.length) :
    kindAt ts' i = kindAt ts i :=
  congrArg Token.kind (h.tokenAt hi)

theorem kindAt_length (h : Continued front ts ts') :
    AuroraLint.kindAt ts front.length = .eof ∧ AuroraLint.kindAt ts' front.length = .kwExtern := by
  refine ⟨h.endsInEof.kindAt_eq_eof_iff.mpr (Nat.le_of_eq h.length_eq), ?_⟩
  obtain ⟨word, more, rfl, hword⟩ := h.goesOn
  rw [AuroraLint.kindAt, tokenAt_eq_getElem (by simp)]
  simpa using hword

/-- What is told alike of the end of a document and of `extern` is told alike up to there. -/
theorem kindAt_congr (h : Continued front ts ts') (hi : i ≤ front.length) {α : Type} (f : Kind → α)
    (hf : f .kwExtern = f .eof) : f (AuroraLint.kindAt ts' i) = f (AuroraLint.kindAt ts i) := by
  rcases Nat.lt_or_eq_of_le hi with hlt | rfl
  · rw [h.kindAt hlt]
  · rw [h.kindAt_length.1, h.kindAt_length.2, hf]

theorem kindAt_eq_iff (h : Continued front ts ts') (hi : i ≤ front.length) {k : Kind}
    (heof : k ≠ .eof) (hword : k ≠ .kwExtern) :
    AuroraLint.kindAt ts' i = k ↔ AuroraLint.kindAt ts i = k :=
  iff_of_eq (h.kindAt_congr hi (· = k) (by simp [heof.symm, hword.symm]))

theorem lt_length (h : Continued front ts ts') {k : Kind} (hk : AuroraLint.kindAt ts i = k)
    (hne : k ≠ .eof) : i < front.length := by
  have := h.endsInEof.succ_lt_of_eq hk hne
  rw [h.length_eq] at this
  omega

/-- The tokens before an index of the document. -/
theorem take_eq (h : Continued front ts ts') {stop : Nat} (hstop : stop ≤ front.length) :
    ts'.take stop = ts.take stop := by
  obtain ⟨last, rfl⟩ := h.ends
  obtain ⟨word, more, rfl, _⟩ := h.goesOn
  rw [List.take_append_of_le_length hstop, List.take_append_of_le_length hstop]

theorem slice_eq (h : Continued front ts ts') {start stop : Nat} (hstop : stop ≤ front.length) :
    (ts'.drop start).take (stop - start) = (ts.drop start).take (stop - start) := by
  rw [← List.drop_take, ← List.drop_take, h.take_eq hstop]

/-- What follows an index of the document, up to the end and beyond it. -/
theorem drop_eq (h : Continued front ts ts') (hi : i ≤ front.length) :
    ∃ last word more, ts.drop i = front.drop i ++ [last] ∧ last.kind = .eof ∧
      ts'.drop i = front.drop i ++ word :: more ∧ word.kind = .kwExtern := by
  have hend := h.kindAt_length.1
  obtain ⟨last, hts⟩ := h.ends
  obtain ⟨word, more, hts', hword⟩ := h.goesOn
  refine ⟨last, word, more, ?_, ?_, ?_, hword⟩
  · rw [hts, List.drop_append_of_le_length hi]
  · rw [AuroraLint.kindAt, hts, tokenAt_eq_getElem (by simp)] at hend
    simpa using hend
  · rw [hts', List.drop_append_of_le_length hi]

theorem drop_eq_cons (h : Continued front ts ts') {k : Kind} (hk : AuroraLint.kindAt ts i = k)
    (hne : k ≠ .eof) :
    ∃ t last word more, t.kind = k ∧ front.drop i = t :: front.drop (i + 1) ∧
      ts.drop i = t :: (front.drop (i + 1) ++ [last]) ∧
      ts'.drop i = t :: (front.drop (i + 1) ++ word :: more) := by
  have hi := h.lt_length hk hne
  obtain ⟨last, word, more, hdrop, _, hdrop', _⟩ := h.drop_eq (Nat.le_of_lt hi)
  have hcons := drop_eq_tokenAt_cons hi
  rw [hcons, List.cons_append] at hdrop hdrop'
  refine ⟨AuroraLint.tokenAt front i, last, word, more, ?_, hcons, hdrop, hdrop'⟩
  rw [drop_eq_tokenAt_cons (by rw [h.length_eq]; omega)] at hdrop
  rw [← hk, AuroraLint.kindAt, (List.cons.inj hdrop).1]

/-- The brackets in front of the end of the document. -/
theorem balanced_front (h : Continued front ts ts') : Brackets.check front = [] := by
  have hend := h.kindAt_length.1
  have hbal := h.balanced
  obtain ⟨last, hts⟩ := h.ends
  rw [AuroraLint.kindAt, hts, tokenAt_eq_getElem (by simp)] at hend
  rw [hts] at hbal
  exact Brackets.check_front hbal (by simpa using hend)

/-- The brackets from an index of the document on. -/
theorem balanced_drop (h : Continued front ts ts') (i : Nat) :
    Brackets.check (front.take i ++ front.drop i) = [] := by
  rw [List.take_append_drop]
  exact h.balanced_front

/-! ## Extents of the document -/

theorem extentTokens (h : Continued front ts ts') {e : Extent} (hstop : e.stop ≤ front.length) :
    e.tokens ts' = e.tokens ts :=
  h.slice_eq hstop

theorem extentSpan (h : Continued front ts ts') {e : Extent} (hlt : e.start < e.stop)
    (hstop : e.stop ≤ front.length) : e.span ts' = e.span ts := by
  rw [Extent.span, Extent.span, h.tokenAt (by omega), h.tokenAt (by omega)]

theorem callClose (h : Continued front ts ts') (hopen : AuroraLint.kindAt ts i = .leftParen) :
    callClose ts' i = callClose ts i := by
  obtain ⟨t, last, word, more, hkind, hfront, hdrop, hdrop'⟩ := h.drop_eq_cons hopen nofun
  have hclosed := Brackets.lists_closed (h.balanced_drop i)
  have hopens : t.kind.opensList = true := by rw [hkind]; rfl
  have hcloses : t.kind.closesList = false := by rw [hkind]; rfl
  have hrest : 1 + (front.drop (i + 1)).countP (fun t => t.kind.opensList) ≤
      (front.drop (i + 1)).countP (fun t => t.kind.closesList) := by
    simp only [hfront, List.countP_cons, hopens, hcloses, if_true, Bool.false_eq_true,
      if_false] at hclosed
    omega
  rw [AuroraLint.callClose, AuroraLint.callClose, hdrop, hdrop', closeFrom, closeFrom,
    if_pos hopens, if_pos hopens, closeFrom_append (Nat.le_refl 1) _ hrest,
    closeFrom_append (Nat.le_refl 1) _ hrest]

theorem splitArguments (h : Continued front ts ts') {opener closer : Nat}
    (hcloser : closer ≤ front.length) :
    splitArguments ts' opener closer = splitArguments ts opener closer := by
  rw [AuroraLint.splitArguments, AuroraLint.splitArguments, h.slice_eq hcloser]

theorem expressionEnd (h : Continued front ts ts') (hi : i ≤ front.length) :
    expressionEnd ts' i = expressionEnd ts i := by
  obtain ⟨last, word, more, hdrop, hlast, hdrop', hword⟩ := h.drop_eq hi
  have hclosed := Brackets.lists_closed (h.balanced_drop i)
  have hend : ∀ lastLine, expressionFrom 0 lastLine i (ts'.drop i) =
      expressionFrom 0 lastLine i (ts.drop i) := by
    intro lastLine
    rw [hdrop, hdrop', expressionFrom_append (by rw [hword]; rfl) _ (by omega),
      expressionFrom_append (by rw [hlast]; rfl) _ (by omega)]
  unfold AuroraLint.expressionEnd
  cases hfront : front.drop i with
  | nil =>
    rw [hdrop, hdrop', hfront]
    simp [expressionFrom, hlast, hword, Kind.endsExpression]
  | cons t rest =>
    have := hend t.line
    rw [hdrop, hdrop', hfront] at this ⊢
    exact this

theorem blockEnd (h : Continued front ts ts') (hopen : AuroraLint.kindAt ts i = .leftBrace) :
    blockEnd ts' i = blockEnd ts i ∧ i < blockEnd ts i ∧ blockEnd ts i < front.length := by
  have hi := h.lt_length hopen nofun
  obtain ⟨last, word, more, hdrop, _, hdrop', _⟩ := h.drop_eq (Nat.le_of_lt hi)
  have hkind : AuroraLint.kindAt front i = .leftBrace := by
    rw [drop_eq_tokenAt_cons hi, drop_eq_tokenAt_cons (by rw [h.length_eq]; omega)] at hdrop
    rw [← hopen, AuroraLint.kindAt, AuroraLint.kindAt, (List.cons.inj hdrop).1]
  obtain ⟨c, hc⟩ := Brackets.exists_blockFrom_of_check h.balanced_front hkind
  have hlt : i < c ∧ c < front.length := by
    have hfirst : (AuroraLint.tokenAt front i).kind = .leftBrace := hkind
    have hrest := hc
    rw [drop_eq_tokenAt_cons hi, blockFrom, hfirst] at hrest
    have hbounds := blockFrom_bounds hrest
    rw [List.length_drop] at hbounds
    omega
  rw [AuroraLint.blockEnd, AuroraLint.blockEnd, hdrop, hdrop', blockFrom_append_of_some hc,
    blockFrom_append_of_some hc, Option.getD_some, Option.getD_some]
  exact ⟨rfl, hlt⟩

theorem startsLine (h : Continued front ts ts') (hi : i < front.length) :
    startsLine ts' i = startsLine ts i := by
  rw [AuroraLint.startsLine, AuroraLint.startsLine, h.tokenAt hi, h.tokenAt (by omega)]

end Continued

end AuroraLint
