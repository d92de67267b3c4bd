import AuroraLint.Extent

/-!
# Extents stay within the tokens

* `EndsInEof` : the end of the document is the last token and occurs nowhere else.

Main statements: in such a list a call closes at a `)` behind its opener (`callClose_spec`),
arguments are non-empty and lie inside their parentheses (`mem_splitArguments`), and expressions and
blocks end before or at the end of the document (`expressionEnd_lt_length`, `blockEnd_spec`).
-/

set_option autoImplicit false

namespace AuroraLint

/-- The last token is the end of the document, and no other is of that kind. -/
def EndsInEof (ts : List Token) : Prop :=
  ∃ init last, ts = init ++ [last] ∧ last.kind = .eof ∧ ∀ t ∈ init, t.kind ≠ .eof

theorem tokenAt_eq_getElem {ts : List Token} {i : Nat} (h : i < ts.length) : tokenAt ts i = ts[i] := by
  simp [tokenAt, h]

theorem getElem?_eq_tokenAt {ts : List Token} {i : Nat} (h : i < ts.length) :
    ts[i]? = some (tokenAt ts i) := by
  rw [tokenAt_eq_getElem h, List.getElem?_eq_getElem h]

theorem tokenAt_mem {ts : List Token} {i : Nat} (h : i < ts.length) : tokenAt ts i ∈ ts := by
  rw [tokenAt_eq_getElem h]
  exact List.getElem_mem h

theorem Kind.endsExpression_of_closesList {k : Kind} (h : k.closesList = true) :
    k.endsExpression = true := by
  cases k <;> first | rfl | cases h

theorem Kind.closesList_of_opensList {k : Kind} (h : k.opensList = true) :
    k.closesList = false := by
  cases k <;> first | rfl | cases h

namespace EndsInEof

variable {ts : List Token} {i : Nat}

theorem length_pos (h : EndsInEof ts) : 0 < ts.length := by
  obtain ⟨init, last, rfl, _, _⟩ := h
  simp

/-- Only the last token is the end of the document. -/
theorem kindAt_eq_eof_iff (h : EndsInEof ts) : kindAt ts i = .eof ↔ ts.length ≤ i + 1 := by
  obtain ⟨init, last, rfl, hlast, hinit⟩ := h
  constructor
  · intro hk
    apply Classical.byContradiction
    intro hi
    simp only [List.length_append, List.length_singleton] at hi
    have hlt : i < init.length := by omega
    refine hinit init[i] (List.getElem_mem hlt) ?_
    rw [kindAt, tokenAt_eq_getElem (by simp; omega), List.getElem_append_left hlt] at hk
    exact hk
  · intro hi
    simp only [List.length_append, List.length_singleton] at hi
    by_cases he : i = init.length
    · subst he
      rw [kindAt, tokenAt_eq_getElem (by simp)]
      simpa using hlast
    · exact kindAt_of_length_le (by simp; omega)

theorem succ_lt (h : EndsInEof ts) (hk : kindAt ts i ≠ .eof) : i + 1 < ts.length := by
  apply Classical.byContradiction
  intro hi
  exact hk (h.kindAt_eq_eof_iff.mpr (by omega))

theorem succ_lt_of_eq (h : EndsInEof ts) {k : Kind} (hk : kindAt ts i = k) (hne : k ≠ .eof) :
    i + 1 < ts.length :=
  h.succ_lt (by rw [hk]; exact hne)

theorem kindAt_ne_eof (h : EndsInEof ts) (hi : i + 1 < ts.length) : kindAt ts i ≠ .eof := by
  rw [Ne, h.kindAt_eq_eof_iff]
  omega

end EndsInEof

/-- A suffix of a list starts with the token at its index. -/
theorem drop_eq_tokenAt_cons {ts : List Token} {i : Nat} (h : i < ts.length) :
    ts.drop i = tokenAt ts i :: ts.drop (i + 1) := by
  rw [tokenAt_eq_getElem h]
  exact List.drop_eq_getElem_cons h

/-- The first token of a suffix that is not empty, and the suffix behind it. -/
theorem tokenAt_of_drop {ts rest : List Token} {i : Nat} {t : Token} (h : ts.drop i = t :: rest) :
    tokenAt ts i = t ∧ ts.drop (i + 1) = rest := by
  have hlt : i < ts.length := by
    apply Classical.byContradiction
    intro hge
    rw [List.drop_eq_nil_of_le (by omega)] at h
    cases h
  rw [drop_eq_tokenAt_cons hlt] at h
  exact List.cons.inj h

/-- The tokens of an extent are those at its indices. -/
theorem Extent.mem_tokens {ts : List Token} {e : Extent} {t : Token} (h : t ∈ e.tokens ts) :
    ∃ k, e.start ≤ k ∧ k < e.stop ∧ k < ts.length ∧ t = tokenAt ts k := by
  obtain ⟨n, hn, rfl⟩ := List.mem_iff_getElem.mp h
  simp only [Extent.tokens, List.length_take, List.length_drop] at hn
  refine ⟨e.start + n, by omega, by omega, by omega, ?_⟩
  rw [tokenAt_eq_getElem (by omega)]
  simp [Extent.tokens]

/-- The token at an index of a non-empty extent within the list. -/
theorem Extent.tokenAt_tokens {ts : List Token} {e : Extent} {n : Nat} (h : e.start + n < e.stop)
    (hlen : e.stop ≤ ts.length) : tokenAt (e.tokens ts) n = tokenAt ts (e.start + n) := by
  have hn : n < (e.tokens ts).length := by
    simp only [Extent.tokens, List.length_take, List.length_drop]
    omega
  rw [tokenAt_eq_getElem hn, tokenAt_eq_getElem (by omega)]
  simp [Extent.tokens]

/-! ## Argument lists -/

/-- The closing parenthesis found is one, behind the place where the search starts. -/
theorem closeFrom_spec {ts : List Token} {depth i c : Nat}
    (h : closeFrom depth i (ts.drop i) = some c) : kindAt ts c = .rightParen := by
  generalize hrest : ts.drop i = rest at h
  fun_induction closeFrom depth i rest with
  | case1 => cases h
  | case2 depth i t rest hopen ih | case5 depth i t rest _ _ _ ih | case7 depth i t rest _ _ _ ih =>
    exact ih (tokenAt_of_drop hrest).2 h
  | case3 depth i t rest hopen hclose hdepth hparen =>
    obtain rfl := Option.some.inj h
    rw [kindAt, (tokenAt_of_drop hrest).1]
    exact hparen
  | case4 => cases h
  | case6 => cases h

/-- A call closes at a `)` behind its `(`. -/
theorem callClose_spec {ts : List Token} {opener c : Nat} (hopen : kindAt ts opener = .leftParen)
    (h : callClose ts opener = some c) : kindAt ts c = .rightParen ∧ opener < c := by
  have hkind := closeFrom_spec h
  have hle := (callClose_bounds h).1
  refine ⟨hkind, Nat.lt_of_le_of_ne hle ?_⟩
  rintro rfl
  rw [hopen] at hkind
  cases hkind

theorem mem_segment {start stop : Nat} {e : Extent} (h : e ∈ segment start stop) :
    e = ⟨start, stop⟩ ∧ start < stop := by
  unfold segment at h
  split at h
  · rename_i hlt
    exact ⟨by simpa using h, hlt⟩
  · cases h

theorem mem_splitFrom {depth start i : Nat} {ts : List Token} {e : Extent} (hstart : start ≤ i)
    (h : e ∈ splitFrom depth start i ts) :
    start ≤ e.start ∧ e.start < e.stop ∧ e.stop ≤ i + ts.length := by
  fun_induction splitFrom depth start i ts with
  | case1 depth start i =>
    obtain ⟨rfl, hlt⟩ := mem_segment h
    exact ⟨Nat.le_refl _, hlt, by simp⟩
  | case2 depth start i t ts _ ih | case3 depth start i t ts _ _ ih | case5 depth start i t ts _ _ _ ih =>
    have := ih (by omega) h
    simp only [List.length_cons]
    omega
  | case4 depth start i t ts _ _ _ ih =>
    simp only [List.length_cons]
    rcases List.mem_append.mp h with h | h
    · obtain ⟨rfl, hlt⟩ := mem_segment h
      exact ⟨Nat.le_refl _, hlt, by simp⟩
    · have := ih (Nat.le_refl _) h
      omega

/-- Arguments are non-empty and lie strictly between their parentheses. -/
theorem mem_splitArguments {ts : List Token} {opener closer : Nat} {e : Extent}
    (hlt : opener < closer) (h : e ∈ splitArguments ts opener closer) :
    opener < e.start ∧ e.start < e.stop ∧ e.stop ≤ closer := by
  have := mem_splitFrom (Nat.le_refl _) h
  simp only [List.length_take, List.length_drop] at this
  omega

/-! ## Expressions -/

theorem le_expressionFrom (depth lastLine i : Nat) (ts : List Token) :
    i ≤ expressionFrom depth lastLine i ts := by
  fun_induction expressionFrom depth lastLine i ts with
  | case1 => exact Nat.le_refl _
  | case2 => exact Nat.le_refl _
  | case3 => exact Nat.le_refl _
  | case4 depth lastLine i t ts _ _ _ ih => omega

/-- An expression never reaches over the end of the document. -/
theorem expressionFrom_lt {ts : List Token} (hts : EndsInEof ts) {depth lastLine i : Nat}
    (hi : i < ts.length) : expressionFrom depth lastLine i (ts.drop i) < ts.length := by
  generalize hrest : ts.drop i = rest
  fun_induction expressionFrom depth lastLine i rest with
  | case1 => exact hi
  | case2 => exact hi
  | case3 => exact hi
  | case4 depth lastLine i t rest _ hends _ ih =>
    rw [drop_eq_tokenAt_cons hi] at hrest
    have hk : kindAt ts i ≠ .eof := by
      intro hk
      rw [kindAt, (List.cons.inj hrest).1] at hk
      exact hends (by rw [hk]; rfl)
    exact ih (hts.succ_lt hk) (List.cons.inj hrest).2

theorem expressionEnd_eq {ts : List Token} {start : Nat} (h : start < ts.length) :
    expressionEnd ts start = expressionFrom 0 (tokenAt ts start).line start (ts.drop start) := by
  rw [expressionEnd, drop_eq_tokenAt_cons h]

theorem le_expressionEnd (ts : List Token) (start : Nat) : start ≤ expressionEnd ts start := by
  unfold expressionEnd
  split
  · exact Nat.le_refl _
  · exact le_expressionFrom ..

theorem expressionEnd_lt_length {ts : List Token} (hts : EndsInEof ts) {start : Nat}
    (h : start < ts.length) : expressionEnd ts start < ts.length := by
  rw [expressionEnd_eq h]
  exact expressionFrom_lt hts h

/-! ## Blocks -/

theorem blockFrom_bounds {depth i c : Nat} {ts : List Token} (h : blockFrom depth i ts = some c) :
    i ≤ c ∧ c < i + ts.length := by
  fun_induction blockFrom depth i ts with
  | case1 => cases h
  | case2 depth i t ts _ ih | case4 depth i t ts _ _ ih | case6 depth i t ts _ _ _ ih =>
    have := ih h
    simp only [List.length_cons]
    omega
  | case3 | case5 =>
    obtain rfl := Option.some.inj h
    simp

/-- What the search for the end of a block does at one token: it ends there, or goes on with the depth
that the token leaves. -/
theorem blockFrom_step {ts : List Token} {depth i e : Nat} (hi : i < ts.length)
    (h : blockFrom depth i (ts.drop i) = some e) :
    e = i ∧ (kindAt ts i = .eof ∨ kindAt ts i = .rightBrace ∧ depth ≤ 1) ∨
    ∃ depth', blockFrom depth' (i + 1) (ts.drop (i + 1)) = some e ∧
      (kindAt ts i = .leftBrace ∧ depth' = depth + 1 ∨
        kindAt ts i = .rightBrace ∧ 0 < depth' ∧ depth' + 1 = depth ∨
        (kindAt ts i ≠ .leftBrace ∧ kindAt ts i ≠ .rightBrace) ∧ depth' = depth) := by
  rw [drop_eq_tokenAt_cons hi, blockFrom] at h
  split at h
  · rename_i hk
    exact .inr ⟨depth + 1, h, .inl ⟨hk, rfl⟩⟩
  · rename_i hk
    split at h
    · rename_i hdepth
      exact .inl ⟨(Option.some.inj h).symm, .inr ⟨hk, hdepth⟩⟩
    · exact .inr ⟨depth - 1, h, .inr (.inl ⟨hk, by omega, by omega⟩)⟩
  · rename_i hk
    exact .inl ⟨(Option.some.inj h).symm, .inl hk⟩
  · rename_i hl hr _
    exact .inr ⟨depth, h, .inr (.inr ⟨⟨hl, hr⟩, rfl⟩)⟩

/-- A block that has closed stays closed. -/
theorem blockFrom_append_of_some {depth i c : Nat} {ts : List Token}
    (h : blockFrom depth i ts = some c) (tail : List Token) :
    blockFrom depth i (ts ++ tail) = some c := by
  induction ts generalizing depth i with
  | nil => cases h
  | cons t ts ih =>
    rw [List.cons_append, blockFrom]
    rw [blockFrom] at h
    split at h
    · exact ih h
    · split at h
      · rename_i hdepth
        rw [if_pos hdepth]
        exact h
      · rename_i hdepth
        rw [if_neg hdepth]
        exact ih h
    · exact h
    · exact ih h

/-- The end of the document closes every block. -/
theorem exists_blockFrom_of_eof {last : Token} (hlast : last.kind = .eof) (depth i : Nat)
    (front : List Token) : ∃ c, blockFrom depth i (front ++ [last]) = some c := by
  induction front generalizing depth i with
  | nil => exact ⟨i, by simp [blockFrom, hlast]⟩
  | cons t front ih =>
    rw [List.cons_append, blockFrom]
    split
    · exact ih ..
    · split
      · exact ⟨i, rfl⟩
      · exact ih ..
    · exact ⟨i, rfl⟩
    · exact ih ..

/-- A block ends at a token not before its `{`. -/
theorem blockEnd_spec {ts : List Token} {opener : Nat} (h : opener < ts.length) :
    opener ≤ blockEnd ts opener ∧ blockEnd ts opener < ts.length := by
  unfold blockEnd
  cases hb : blockFrom 0 opener (ts.drop opener) with
  | none =>
    simp only [Option.getD_none]
    omega
  | some c =>
    have := blockFrom_bounds hb
    simp only [List.length_drop] at this
    simp only [Option.getD_some]
    omega

end AuroraLint
