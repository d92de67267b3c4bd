import AuroraLint.Proofs.Stream

/-!
# Headers and their bodies

* `callableAt`      : the header of a function or constructor that starts at a token.
* `FirstBraceAfter` : the first `{` behind a token.
* `LeadsTo`         : what stands between the word of a header and its body.

Main statements: the body of a header is the first `{` behind its word (`firstBrace_of_body`), two
headers never share a body (`LeadsTo.unique`, `callableAt_body_inj`), and parameters are listed in
the order of the text (`TokenStream.header_params_ordered`).
-/

set_option autoImplicit false

namespace AuroraLint

/-! ## Nested lists -/

section Lists

variable {ts : List Token}

/-- Behind its first token, a list that closes goes on at some depth until it does. -/
theorem closeFrom_drop {opener closer j : Nat} (hopen : kindAt ts opener = .leftParen)
    (h : callClose ts opener = some closer) (hlt : opener < j) (hle : j ≤ closer) :
    ∃ depth, 0 < depth ∧ closeFrom depth j (ts.drop j) = some closer := by
  have hlen := (callClose_bounds h).2
  obtain ⟨n, rfl⟩ := Nat.exists_eq_add_of_lt hlt
  induction n with
  | zero =>
    unfold callClose at h
    rw [drop_eq_tokenAt_cons (by omega), closeFrom] at h
    have hkind : (tokenAt ts opener).kind = .leftParen := hopen
    rw [hkind] at h
    exact ⟨1, Nat.one_pos, h⟩
  | succ n ih =>
    obtain ⟨depth, hpos, hclose⟩ := ih (by omega) (by omega)
    rw [drop_eq_tokenAt_cons (by omega), closeFrom] at hclose
    split at hclose
    · exact ⟨depth + 1, by omega, hclose⟩
    · split at hclose
      · split at hclose
        · -- the list would close here, in front of its closer
          split at hclose
          · have := Option.some.inj hclose
            omega
          · cases hclose
        · exact ⟨depth - 1, by omega, hclose⟩
      · split at hclose
        · cases hclose
        · exact ⟨depth, hpos, hclose⟩

/-- No brace stands between the parentheses of a list that closes. -/
theorem ne_brace_of_callClose {opener closer j : Nat} (hopen : kindAt ts opener = .leftParen)
    (h : callClose ts opener = some closer) (hlt : opener < j) (hle : j ≤ closer) :
    kindAt ts j ≠ .leftBrace ∧ kindAt ts j ≠ .rightBrace := by
  have hlen := (callClose_bounds h).2
  obtain ⟨depth, _, hclose⟩ := closeFrom_drop hopen h hlt hle
  rw [drop_eq_tokenAt_cons (by omega), closeFrom] at hclose
  rw [kindAt]
  refine ⟨?_, ?_⟩
  · intro hkind
    rw [hkind] at hclose
    cases hclose
  · intro hkind
    rw [hkind] at hclose
    cases hclose

/-- A search from a smaller depth ends first. -/
theorem closeFrom_lt {rest : List Token} {depth more i c c' : Nat} (hmore : 0 < more)
    (h : closeFrom depth i rest = some c) (h' : closeFrom (depth + more) i rest = some c')
    (hpos : 0 < depth ∨ rest.head?.any (·.kind.opensList)) : c < c' := by
  induction rest generalizing depth i with
  | nil => cases h
  | cons t rest ih =>
    rw [closeFrom] at h h'
    split at h
    · rename_i hopens
      rw [if_pos hopens, Nat.add_right_comm] at h'
      exact ih h h' (.inl (Nat.succ_pos _))
    · rename_i hopens
      have hpos : 0 < depth := by simpa [hopens] using hpos
      rw [if_neg hopens] at h'
      split at h
      · rename_i hcloses
        rw [if_pos hcloses, if_neg (by omega)] at h'
        split at h
        · have hbound := (closeFrom_bounds h').1
          split at h
          · obtain rfl := Option.some.inj h
            omega
          · cases h
        · rw [show depth + more - 1 = depth - 1 + more by omega] at h'
          exact ih h h' (.inl (by omega))
      · rename_i hcloses
        rw [if_neg hcloses] at h'
        split at h
        · cases h
        · rename_i hbreaks
          rw [if_neg hbreaks] at h'
          exact ih h h' (.inl hpos)

/-- A list inside another one closes before it. -/
theorem callClose_lt {opener closer opener' closer' : Nat} (hopen : kindAt ts opener = .leftParen)
    (hclose : callClose ts opener = some closer) (hopen' : kindAt ts opener' = .leftParen)
    (hclose' : callClose ts opener' = some closer') (hlt : opener < opener')
    (hle : opener' ≤ closer) : closer' < closer := by
  obtain ⟨depth, hpos, hdeep⟩ := closeFrom_drop hopen hclose hlt hle
  have hlen := (callClose_bounds hclose').1
  have hlen' := (callClose_bounds hclose').2
  refine closeFrom_lt hpos hclose' (by rw [Nat.zero_add]; exact hdeep) (.inr ?_)
  have hkind : (tokenAt ts opener').kind = .leftParen := hopen'
  rw [drop_eq_tokenAt_cons (by omega), List.head?_cons, Option.any_some, hkind]
  rfl

theorem typeRefAt_passed {p j : Nat} (hle : p ≤ j) (hlt : j < (typeRefAt ts p).2) :
    kindAt ts j = .identifier ∨ kindAt ts j = .question := by
  unfold typeRefAt at hlt
  split at hlt
  · rename_i hid
    split at hlt
    · rename_i hq
      rcases Nat.eq_or_lt_of_le hle with rfl | hlt'
      · exact .inl hid
      · obtain rfl : j = p + 1 := by simp only at hlt; omega
        exact .inr hq
    · obtain rfl : j = p := by simp only at hlt; omega
      exact .inl hid
  · simp only at hlt
    omega

/-- The tokens that an annotation passes. -/
theorem annotationAt_passed {mark : Kind} {p j : Nat} (hle : p ≤ j)
    (hlt : j < (annotationAt mark ts p).2) :
    kindAt ts j ∈ [mark, .identifier, .question] := by
  unfold annotationAt at hlt
  split at hlt
  · rename_i hmark
    rcases Nat.eq_or_lt_of_le hle with rfl | hle
    · simp [hmark]
    · rcases typeRefAt_passed hle hlt with h | h <;> simp [h]
  · simp only at hlt
    omega

end Lists

/-! ## Bodies -/

/-- The header of a function or constructor that starts at token `k`. -/
def callableAt (ts : List Token) (k : Nat) : Option FnHeader :=
  (fnHeaderAt ts k).or (constructorHeaderAt ts k)

/-- Token `b` is the first `{` behind token `k`. -/
def FirstBraceAfter (ts : List Token) (k b : Nat) : Prop :=
  k < b ∧ kindAt ts b = .leftBrace ∧ ∀ j < b, k < j → kindAt ts j ≠ .leftBrace

instance (ts : List Token) (k b : Nat) : Decidable (FirstBraceAfter ts k b) :=
  inferInstanceAs (Decidable (_ ∧ _))

section Bodies

variable {ts : List Token} {k b : Nat} {h : FnHeader}

/-- The header of a callable: its word, then its list right away or behind a name. -/
theorem callableAt_eq_some (hts : EndsInEof ts) (hh : callableAt ts k = some h) :
    (kindAt ts k = .kwFn ∨ kindAt ts k = .kwConstructor) ∧ ∃ opener, h.ReadAt ts k opener ∧
      k < opener ∧ ∀ j, k < j → j < opener → kindAt ts j = .identifier := by
  unfold callableAt at hh
  rcases Option.or_eq_some_iff.mp hh with hh | ⟨_, hh⟩
  · have hn := (fnHeaderAt_eq_some_iff hts).mp hh
    refine ⟨.inl hn.word_kind, k + 2, hn.readAt, by omega, fun j hj hj' => ?_⟩
    obtain rfl : j = k + 1 := by omega
    exact hn.name_kind
  · have hn := (constructorHeaderAt_eq_some_iff hts).mp hh
    exact ⟨.inr hn.word_kind, k + 1, hn.readAt, by omega, fun j hj hj' => by omega⟩

/-- What stands between the word of a header at token `k` and its body at token `b`: names, an
annotation, and lists in parentheses that close. -/
structure LeadsTo (ts : List Token) (k b : Nat) : Prop where
  word : kindAt ts k ∈ [.kwFn, .kwConstructor, .kwClass]
  lt : k < b
  brace : kindAt ts b = .leftBrace
  between : ∀ j, k < j → j < b → kindAt ts j ∈ [.identifier, .arrow, .question] ∨
    ∃ opener closer, k < opener ∧ kindAt ts opener = .leftParen ∧
      callClose ts opener = some closer ∧ opener ≤ j ∧ j ≤ closer

/-- No brace stands in front of the body. -/
theorem LeadsTo.ne_brace (h : LeadsTo ts k b) {j : Nat} (hkj : k ≤ j) (hjb : j < b) :
    kindAt ts j ≠ .leftBrace ∧ kindAt ts j ≠ .rightBrace := by
  rcases Nat.eq_or_lt_of_le hkj with rfl | hkj
  · have hword := h.word
    simp only [List.mem_cons, List.not_mem_nil, or_false] at hword
    rcases hword with hk | hk | hk <;> simp [hk]
  · rcases h.between j hkj hjb with hkind | ⟨opener, closer, _, hopen, hclose, hoj, hjc⟩
    · simp only [List.mem_cons, List.not_mem_nil, or_false] at hkind
      rcases hkind with hk | hk | hk <;> simp [hk]
    · rcases Nat.eq_or_lt_of_le hoj with rfl | hoj
      · simp [hopen]
      · exact ne_brace_of_callClose hopen hclose hoj hjc

theorem LeadsTo.firstBrace (h : LeadsTo ts k b) : FirstBraceAfter ts k b :=
  ⟨h.lt, h.brace, fun _ hjb hkj => (h.ne_brace (Nat.le_of_lt hkj) hjb).1⟩

/-- A header that starts behind another one's word and has the same body would close its list inside
the other's. -/
theorem LeadsTo.not_lt {k' : Nat} (h : LeadsTo ts k b) (h' : LeadsTo ts k' b) : ¬ k < k' := by
  intro hlt
  have hword := h'.word
  -- the second word stands between the parentheses of the first header
  rcases h.between k' hlt h'.lt with hkind | ⟨opener, closer, _, hopen, hclose, hok, hkc⟩
  · simp only [List.mem_cons, List.not_mem_nil, or_false] at hkind
    rcases hkind with hk | hk | hk <;> simp [hk] at hword
  · have hparen := (callClose_spec hopen hclose).1
    have hok' : opener ≠ k' := by
      rintro rfl
      simp [hopen] at hword
    have hkc' : k' ≠ closer := by
      rintro rfl
      simp [hparen] at hword
    have hcb : closer < b := by
      apply Nat.lt_of_not_le
      intro hbc
      exact (ne_brace_of_callClose hopen hclose (by have := h'.lt; omega) hbc).1 h.brace
    -- so its own list reaches over the parenthesis that closes the first one's
    rcases h'.between closer (by omega) hcb with hkind | ⟨opener', closer', _, hopen', hclose', ho, hc⟩
    · simp [hparen] at hkind
    · have hlt' := callClose_lt hopen hclose hopen' hclose' (by omega) ho
      omega

/-- A body belongs to one header. -/
theorem LeadsTo.unique {k' : Nat} (h : LeadsTo ts k b) (h' : LeadsTo ts k' b) : k = k' :=
  Nat.le_antisymm (Nat.le_of_not_lt (h'.not_lt h)) (Nat.le_of_not_lt (h.not_lt h'))

/-- The header of a function or constructor leads to its body. -/
theorem leadsTo_of_body (hts : EndsInEof ts) (hh : callableAt ts k = some h)
    (hb : h.body = some b) : LeadsTo ts k b := by
  obtain ⟨hword, opener, hr, hlt, hname⟩ := callableAt_eq_some hts hh
  obtain ⟨closer, hclose, _, hann⟩ := hr.closes
  obtain ⟨rfl, hbrace⟩ := hr.body_spec hb
  have hbounds := hr.bounds hts
  refine ⟨?_, by omega, hbrace, ?_⟩
  · rcases hword with hk | hk <;> simp [hk]
  intro j hkj hjb
  rcases Nat.lt_or_ge j opener with hjo | hjo
  · left
    simp [hname j hkj hjo]
  · rcases Nat.lt_or_ge closer j with hjc | hjc
    · left
      have hpassed := annotationAt_passed hjc (by rw [hann]; exact hjb)
      simp only [List.mem_cons, List.not_mem_nil, or_false] at hpassed ⊢
      rcases hpassed with hk | hk | hk <;> simp [hk]
    · exact .inr ⟨opener, closer, hlt, hr.opens, hclose, hjo, hjc⟩

/-- The header of a class leads to its body. -/
theorem leadsTo_of_classBody (hts : EndsInEof ts) {h : ClassHeader}
    (hh : classHeaderAt ts k = some h) (hb : h.body = some b) : LeadsTo ts k b := by
  have hr := (classHeaderAt_eq_some_iff hts).mp hh
  obtain ⟨rfl, hbrace⟩ := hr.body_spec hb
  have hend : k + 2 ≤ listEnd ts (k + 2) ∧ _ :=
    listEnd_bounds hts (hts.succ_lt_of_eq hr.name_kind nofun)
  have hlast := hr.last_eq
  refine ⟨by simp [hr.word_kind], by omega, hbrace, ?_⟩
  intro j hkj hjb
  rcases Nat.eq_or_lt_of_le (show k + 1 ≤ j from hkj) with rfl | hname
  · left
    simp [hr.name_kind]
  -- behind the name comes a list that closes, and nothing else
  rw [hlast] at hjb
  unfold listEnd at hjb
  split at hjb
  · rename_i hopen
    split at hjb
    · rename_i closer hclose
      exact .inr ⟨k + 2, closer, by omega, hopen, hclose, hname, by omega⟩
    · omega
  · omega

/-- The body of a header is the first `{` behind its word. -/
theorem firstBrace_of_body (hts : EndsInEof ts) (hh : callableAt ts k = some h)
    (hb : h.body = some b) : FirstBraceAfter ts k b :=
  (leadsTo_of_body hts hh hb).firstBrace

/-- Two headers never share a body. -/
theorem callableAt_body_inj (hts : EndsInEof ts) {k' : Nat} {h' : FnHeader}
    (hh : callableAt ts k = some h) (hb : h.body = some b) (hh' : callableAt ts k' = some h')
    (hb' : h'.body = some b) : k = k' ∧ h = h' := by
  obtain rfl := (leadsTo_of_body hts hh hb).unique (leadsTo_of_body hts hh' hb')
  exact ⟨rfl, Option.some.inj (hh.symm.trans hh')⟩

end Bodies

/-! ## Parameters in order -/

theorem splitFrom_pairwise {depth start i : Nat} {ts : List Token} (hstart : start ≤ i) :
    (splitFrom depth start i ts).Pairwise fun e e' => e.stop ≤ e'.start := by
  have hsegment : ∀ a b : Nat, (segment a b).Pairwise fun e e' => e.stop ≤ e'.start := by
    intro a b
    unfold segment
    split
    · exact List.pairwise_singleton ..
    · exact .nil
  fun_induction splitFrom depth start i ts with
  | case1 => exact hsegment ..
  | case2 _ _ _ _ _ _ ih | case3 _ _ _ _ _ _ _ ih | case5 _ _ _ _ _ _ _ _ ih =>
    exact ih (by omega)
  | case4 depth start i t ts _ _ _ ih =>
    refine List.pairwise_append.mpr ⟨hsegment .., ih (Nat.le_refl _), fun e he e' he' => ?_⟩
    obtain ⟨rfl, _⟩ := mem_segment he
    have := (mem_splitFrom (Nat.le_refl _) he').1
    simp only
    omega

/-- A parameter starts with the first token it is read from. -/
theorem Param.span_start_of_ofTokens? {part : List Token} {p : Param}
    (hp : Param.ofTokens? part = some p) :
    ∃ b ∈ part, p.span = (tokenAt part 0).span.merge b.span := by
  unfold Param.ofTokens? at hp
  split at hp
  · rename_i name
    split at hp
    · obtain rfl := Option.some.inj hp
      exact ⟨name, by simp, (Span.merge_self _).symm⟩
    · cases hp
  · rename_i name colon type
    split at hp
    · obtain rfl := Option.some.inj hp
      exact ⟨type, by simp, rfl⟩
    · cases hp
  · rename_i name colon type mark
    split at hp
    · obtain rfl := Option.some.inj hp
      exact ⟨mark, by simp, rfl⟩
    · cases hp
  · cases hp

namespace TokenStream

variable {file : String} {text : List Char} {ts : List Token}

theorem start_lt (h : TokenStream file text ts) {i j : Nat} (hij : i < j) (hj : j < ts.length) :
    (tokenAt ts i).span.start.offset < (tokenAt ts j).span.start.offset := by
  have hreal := (h.real (i := i) (by omega)).start_lt_stop
  have hord := List.pairwise_iff_getElem.mp h.ordered i j (by omega) hj hij
  rw [← tokenAt_eq_getElem, ← tokenAt_eq_getElem] at hord
  omega

theorem index_eq_of_start_eq (h : TokenStream file text ts) {i j : Nat} (hi : i < ts.length)
    (hj : j < ts.length)
    (heq : (tokenAt ts i).span.start.offset = (tokenAt ts j).span.start.offset) : i = j := by
  rcases Nat.lt_trichotomy i j with hlt | heq' | hlt
  · have := h.start_lt hlt hj
    omega
  · exact heq'
  · have := h.start_lt hlt hi
    omega

/-- The parameter of an argument starts where the argument does. -/
theorem param_start (h : TokenStream file text ts) {e : Extent} {p : Param}
    (hlt : e.start < e.stop) (hstop : e.stop ≤ ts.length)
    (hp : Param.ofTokens? (e.tokens ts) = some p) :
    p.span.start.offset = (tokenAt ts e.start).span.start.offset := by
  obtain ⟨b, hb, hspan⟩ := Param.span_start_of_ofTokens? hp
  obtain ⟨j, hj, hj', _, rfl⟩ := Extent.mem_tokens hb
  rw [hspan, Extent.tokenAt_tokens (n := 0) (by omega) hstop, Nat.add_zero]
  exact h.merge_start hj (by omega)

/-- Parameters are listed in the order of the text. -/
theorem params_ordered (h : TokenStream file text ts) {opener closer : Nat}
    (hlt : opener < closer) (hcloser : closer < ts.length) :
    (params ts opener closer).Pairwise fun p q => p.span.start.offset ≤ q.span.start.offset := by
  have hpair : (splitArguments ts opener closer).Pairwise fun e e' => e.stop ≤ e'.start :=
    splitFrom_pairwise (Nat.le_refl _)
  refine List.pairwise_filterMap.mpr (hpair.imp_of_mem fun he he' hle p hp q hq => ?_)
  obtain ⟨_, hne, hstop⟩ := mem_splitArguments hlt he
  obtain ⟨_, hne', hstop'⟩ := mem_splitArguments hlt he'
  rw [h.param_start hne (by omega) hp, h.param_start hne' (by omega) hq]
  exact h.start_le (by omega) (by omega)

theorem header_params_ordered (h : TokenStream file text ts) {header : FnHeader}
    {keyword opener : Nat} (hr : header.ReadAt ts keyword opener) :
    header.params.Pairwise fun p q => p.span.start.offset ≤ q.span.start.offset := by
  obtain ⟨closer, hclose, hparams, _⟩ := hr.closes
  obtain ⟨hkind, hlt⟩ := callClose_spec hr.opens hclose
  have hcloser := h.endsInEof.succ_lt_of_eq hkind nofun
  rw [hparams]
  exact h.params_ordered hlt (by omega)

end TokenStream

end AuroraLint
