import AuroraLint.Brackets
import AuroraLint.Proofs.Stream
import Mathlib.Data.List.Nodup

/-!
# Three ways to match brackets

The validator keeps a stack of open brackets; argument lists and blocks are closed by counting, the
one without telling `(` from `[`, the other by the braces alone. Where the validator has nothing to
report, all three find the same closers.

* `Brackets.Partner` : the opener that the validator pops when it meets a closer of the same shape.
* `Brackets.Clean`   : a run of the validator in which every bracket has its partner.

Main statements: `Brackets.clean_verdictsFrom` — without errors the run is clean; over a clean run,
`Brackets.Clean.closeFrom_eq` and `Brackets.Clean.blockFrom_eq` — the count comes back to zero at
the partner; `Brackets.matchers_agree` — the same for the tokens of a text.
-/

set_option autoImplicit false

namespace AuroraLint

/-! ## Kinds in argument lists -/

namespace Kind

/-- A brace or `;`: no argument list has one. -/
def interrupts : Kind → Bool
  | .leftBrace | .rightBrace | .semicolon => true
  | _ => false

variable {k : Kind} {s : BracketShape}

/-- An opener is counted in argument lists, unless it is a brace. -/
theorem list_of_opens (h : k.opens? = some s) :
    k.opensList = (s != .curly) ∧ k.closesList = false ∧ k.breaksList = (s == .curly) ∧
      k.interrupts = (s == .curly) := by
  cases k <;> simp only [opens?, Option.some.injEq, reduceCtorEq] at h <;> subst h <;> decide

/-- A closer is counted in argument lists, unless it is a brace. -/
theorem list_of_closes (h : k.closes? = some s) :
    k.opensList = false ∧ k.closesList = (s != .curly) ∧ k.breaksList = (s == .curly) ∧
      k.interrupts = (s == .curly) := by
  cases k <;> simp only [closes?, Option.some.injEq, reduceCtorEq] at h <;> subst h <;> decide

/-- Of what is no bracket, `;` and the end of the document break argument lists. -/
theorem list_of_other (hopens : k.opens? = none) (hcloses : k.closes? = none) (heof : k ≠ .eof) :
    k.opensList = false ∧ k.closesList = false ∧ k.breaksList = k.interrupts := by
  cases k <;> simp_all [opens?, closes?, opensList, closesList, breaksList, interrupts]

theorem closer_of_closes (h : k.closes? = some s) : k = s.closer := by
  cases k <;> simp_all [closes?] <;> subst h <;> rfl

theorem eq_rightParen_iff (h : k.closes? = some s) : k = .rightParen ↔ s = .round := by
  rw [closer_of_closes h]
  cases s <;> decide

end Kind

/-- From any token on, only the last one can be the end of the document. -/
theorem EndsInEof.pairwise_drop {ts : List Token} (hts : EndsInEof ts) (n : Nat) :
    (ts.drop n).Pairwise fun t _ => t.kind ≠ .eof := by
  obtain ⟨init, last, rfl, _, hinit⟩ := hts
  refine List.Pairwise.sublist (List.drop_sublist n _) ?_
  refine List.pairwise_append.mpr ⟨?_, List.pairwise_singleton .., fun t ht _ _ => hinit t ht⟩
  exact List.pairwise_of_forall_mem_list fun t ht _ _ => hinit t ht

namespace Brackets

/-! ## Partners -/

/-- The indices of an opener and of the closer that is matched with it. -/
def Verdict.pair? : Verdict → Option (Nat × Nat)
  | .matched opener index _ => some (opener.index, index)
  | _ => none

/-- The validator pops the opener at token `i` when it meets the closer at token `j`, and the two
are of one shape. -/
def Partner (ts : List Token) (i j : Nat) : Prop :=
  (i, j) ∈ (verdicts ts).filterMap Verdict.pair?

instance (ts : List Token) (i j : Nat) : Decidable (Partner ts i j) :=
  inferInstanceAs (Decidable (_ ∈ _))

/-! ## Runs without errors -/

/-- `Clean waiting i rest pairs`: where the brackets `waiting` are open, the innermost first, and
the first of the tokens `rest` has index `i`, every bracket that is open or comes finds its partner;
`pairs` holds the indices of openers and closers in the order of the closers. -/
inductive Clean : List Opener → Nat → List Token → List (Nat × Nat) → Prop
  | done {i : Nat} : Clean [] i [] []
  | opens {waiting : List Opener} {i : Nat} {t : Token} {rest : List Token}
      {pairs : List (Nat × Nat)} {shape : BracketShape} (ht : t.kind.opens? = some shape)
      (next : Clean (⟨i, t, shape⟩ :: waiting) (i + 1) rest pairs) :
      Clean waiting i (t :: rest) pairs
  | other {waiting : List Opener} {i : Nat} {t : Token} {rest : List Token}
      {pairs : List (Nat × Nat)} (hopens : t.kind.opens? = none) (hcloses : t.kind.closes? = none)
      (next : Clean waiting (i + 1) rest pairs) : Clean waiting i (t :: rest) pairs
  | closes {o : Opener} {waiting : List Opener} {i : Nat} {t : Token} {rest : List Token}
      {pairs : List (Nat × Nat)} (ht : t.kind.closes? = some o.shape)
      (next : Clean waiting (i + 1) rest pairs) :
      Clean (o :: waiting) i (t :: rest) ((o.index, i) :: pairs)

/-- **A run without errors is clean**, and its matched verdicts are the pairs. -/
theorem clean_verdictsFrom {waiting : List Opener} {i : Nat} {ts : List Token}
    (h : (verdictsFrom waiting (ts.zipIdx i)).filterMap Verdict.diagnostic? = []) :
    Clean waiting i ts ((verdictsFrom waiting (ts.zipIdx i)).filterMap Verdict.pair?) := by
  induction ts generalizing waiting i with
  | nil =>
    cases waiting with
    | nil => exact .done
    | cons o waiting => simp [verdictsFrom, Verdict.diagnostic?] at h
  | cons t ts ih =>
    rw [List.zipIdx_cons] at h ⊢
    unfold verdictsFrom at h ⊢
    split
    · rename_i shape hopens
      rw [hopens] at h
      exact .opens hopens (ih h)
    · rename_i hopens hcloses
      rw [hopens, hcloses] at h
      exact .other hopens hcloses (ih h)
    · rename_i shape hopens hcloses
      rw [hopens, hcloses] at h
      simp [Verdict.diagnostic?] at h
    · rename_i shape o os hopens hcloses
      rw [hopens, hcloses] at h
      by_cases hshape : o.shape = shape
      · simp only [hshape, if_true, List.filterMap_cons, Verdict.diagnostic?] at h
        simp only [hshape, if_true, List.filterMap_cons, Verdict.pair?]
        exact .closes (by rw [hshape]; exact hcloses) (ih h)
      · simp [hshape, Verdict.diagnostic?] at h

namespace Clean

variable {waiting : List Opener} {i : Nat} {rest : List Token} {pairs : List (Nat × Nat)}

/-- A clean run is clean from any of its tokens on. -/
theorem drop {front : List Token} (h : Clean waiting i (front ++ rest) pairs) :
    ∃ waiting' pairs', pairs' ⊆ pairs ∧ Clean waiting' (i + front.length) rest pairs' := by
  induction front generalizing waiting i pairs with
  | nil => exact ⟨waiting, pairs, List.Subset.refl _, h⟩
  | cons t front ih =>
    have hindex : i + (t :: front).length = i + 1 + front.length := by
      rw [List.length_cons]
      omega
    rw [hindex]
    cases h with
    | opens _ next => exact ih next
    | other _ _ next => exact ih next
    | closes _ next =>
      obtain ⟨waiting', pairs', hsub, hclean⟩ := ih next
      exact ⟨waiting', pairs', List.subset_cons_of_subset _ hsub, hclean⟩

/-- No opener is in two pairs: one that waits has an index of its own, and one that comes a later
one. -/
theorem openers_nodup (h : Clean waiting i rest pairs) (hlt : ∀ o ∈ waiting, o.index < i)
    (hnodup : (waiting.map Opener.index).Nodup) :
    (pairs.map Prod.fst).Nodup ∧ ∀ p ∈ pairs, p.1 ∈ waiting.map Opener.index ∨ i ≤ p.1 := by
  induction h with
  | done => simp
  | @opens waiting i t rest pairs shape ht next ih =>
    have hfresh : i ∉ waiting.map Opener.index := by
      intro hmem
      obtain ⟨o, ho, rfl⟩ := List.mem_map.mp hmem
      exact Nat.lt_irrefl _ (hlt o ho)
    have hlt' : ∀ o ∈ (⟨i, t, shape⟩ :: waiting : List Opener), o.index < i + 1 := by
      intro o ho
      rcases List.mem_cons.mp ho with rfl | ho
      · exact Nat.lt_succ_self i
      · exact Nat.lt_succ_of_lt (hlt o ho)
    obtain ⟨hpairs, hmem⟩ := ih hlt' (List.nodup_cons.mpr ⟨hfresh, hnodup⟩)
    refine ⟨hpairs, fun p hp => ?_⟩
    rcases hmem p hp with hw | hle
    · rcases List.mem_cons.mp hw with hi | hw
      · exact .inr (Nat.le_of_eq hi.symm)
      · exact .inl hw
    · exact .inr (Nat.le_of_succ_le hle)
  | other _ _ next ih =>
    obtain ⟨hpairs, hmem⟩ := ih (fun o ho => Nat.lt_succ_of_lt (hlt o ho)) hnodup
    exact ⟨hpairs, fun p hp => (hmem p hp).imp_right Nat.le_of_succ_le⟩
  | @closes o waiting i t rest pairs ht next ih =>
    obtain ⟨hfresh, hnodup⟩ := List.nodup_cons.mp hnodup
    have ho : o.index < i := hlt o List.mem_cons_self
    obtain ⟨hpairs, hmem⟩ :=
      ih (fun p hp => Nat.lt_succ_of_lt (hlt p (List.mem_cons_of_mem _ hp))) hnodup
    have hnew : o.index ∉ pairs.map Prod.fst := by
      intro hin
      obtain ⟨p, hp, heq⟩ := List.mem_map.mp hin
      rcases hmem p hp with hw | hle
      · exact hfresh (heq ▸ hw)
      · omega
    refine ⟨List.nodup_cons.mpr ⟨hnew, hpairs⟩, fun p hp => ?_⟩
    rcases List.mem_cons.mp hp with rfl | hp
    · exact .inl List.mem_cons_self
    · exact (hmem p hp).imp (List.mem_cons_of_mem _) Nat.le_of_succ_le

/-! ## Counting over a clean run -/

/-- A bracket that waits is closed, so the token before is not the end of the document. -/
theorem ne_eof_of_waiting {o : Opener} {part base : List Opener} {t : Token}
    (h : Clean (part ++ o :: base) i rest pairs)
    (hrest : (t :: rest).Pairwise fun t _ => t.kind ≠ .eof) : t.kind ≠ .eof := by
  cases rest with
  | nil =>
    generalize hw : part ++ o :: base = w at h
    cases h
    simp at hw
  | cons next rest => exact (List.pairwise_cons.mp hrest).1 next List.mem_cons_self

/-- **Every bracket that waits finds its partner.** -/
theorem exists_pair {o : Opener} (h : Clean waiting i rest pairs) (ho : o ∈ waiting) :
    ∃ j, (o.index, j) ∈ pairs := by
  induction h with
  | done => cases ho
  | opens _ _ ih => exact ih (List.mem_cons_of_mem _ ho)
  | other _ _ _ ih => exact ih ho
  | @closes p waiting i t rest pairs ht next ih =>
    rcases List.mem_cons.mp ho with rfl | ho
    · exact ⟨i, List.mem_cons_self⟩
    · obtain ⟨j, hj⟩ := ih ho
      exact ⟨j, List.mem_cons_of_mem _ hj⟩

theorem take_sub {t : Token} {j : Nat} (h : i + 1 ≤ j) :
    (t :: rest).take (j - i) = t :: rest.take (j - (i + 1)) := by
  rw [show j - i = j - (i + 1) + 1 by omega, List.take_succ_cons]

theorem kindAt_sub {t : Token} {j : Nat} (h : i + 1 ≤ j) :
    kindAt (t :: rest) (j - i) = kindAt rest (j - (i + 1)) := by
  rw [show j - i = j - (i + 1) + 1 by omega]
  rfl

/-- **The count of `(` and `[` comes back to zero at the partner of its `(`**, and a brace or `;`
before ends it. The brackets `part` were opened since and are the ones that the count holds. -/
theorem closeFrom_eq {o : Opener} {part base : List Opener}
    (h : Clean (part ++ o :: base) i rest pairs) (ho : o.shape = .round)
    (hrest : rest.Pairwise fun t _ => t.kind ≠ .eof) :
    ∃ j, i ≤ j ∧ (o.index, j) ∈ pairs ∧ closeFrom (part.length + 1) i rest =
      if (rest.take (j - i)).any (·.kind.interrupts) then none else some j := by
  generalize hw : part ++ o :: base = w at h
  induction h generalizing part with
  | done => simp at hw
  | @opens waiting i t rest pairs shape ht next ih =>
    obtain ⟨j, hj, hmem, hclose⟩ :=
      @ih (⟨i, t, shape⟩ :: part) (List.pairwise_cons.mp hrest).2 (by simp [hw])
    obtain ⟨hopens, hcloses, hbreaks, hinterrupts⟩ := Kind.list_of_opens ht
    refine ⟨j, Nat.le_of_succ_le hj, hmem, ?_⟩
    rw [closeFrom, take_sub hj, List.any_cons, hopens, hcloses, hbreaks, hinterrupts]
    cases shape with
    | round | square => simpa using hclose
    | curly => simp
  | @other waiting i t rest pairs hopens hcloses next ih =>
    have heof := ne_eof_of_waiting (hw ▸ next) hrest
    obtain ⟨j, hj, hmem, hclose⟩ := ih (List.pairwise_cons.mp hrest).2 hw
    obtain ⟨hopens', hcloses', hbreaks⟩ := Kind.list_of_other hopens hcloses heof
    refine ⟨j, Nat.le_of_succ_le hj, hmem, ?_⟩
    rw [closeFrom, take_sub hj, List.any_cons, hopens', hcloses', hbreaks, hclose]
    cases t.kind.interrupts <;> simp
  | @closes p waiting i t rest pairs ht next ih =>
    obtain ⟨hopens, hcloses, hbreaks, hinterrupts⟩ := Kind.list_of_closes ht
    cases part with
    | nil =>
      -- the innermost open bracket is the `(` itself
      obtain ⟨rfl, rfl⟩ := List.cons.inj hw
      have hparen : t.kind = .rightParen := (Kind.eq_rightParen_iff ht).mpr ho
      refine ⟨i, Nat.le_refl i, List.mem_cons_self, ?_⟩
      rw [closeFrom, hopens, hcloses, ho, Nat.sub_self]
      simp [hparen]
    | cons q part =>
      obtain ⟨rfl, rfl⟩ := List.cons.inj hw
      obtain ⟨j, hj, hmem, hclose⟩ := ih (List.pairwise_cons.mp hrest).2 rfl
      refine ⟨j, Nat.le_of_succ_le hj, List.mem_cons_of_mem _ hmem, ?_⟩
      rw [closeFrom, take_sub hj, List.any_cons, hopens, hcloses, hbreaks, hinterrupts]
      cases hshape : q.shape with
      | round | square => simpa using hclose
      | curly => simp

/-- **The count of braces comes back to zero at the partner of its `{`.** Of the brackets `part`
that were opened since, it holds the braces. -/
theorem blockFrom_eq {o : Opener} {part base : List Opener}
    (h : Clean (part ++ o :: base) i rest pairs) (ho : o.shape = .curly)
    (hrest : rest.Pairwise fun t _ => t.kind ≠ .eof) :
    ∃ j, i ≤ j ∧ (o.index, j) ∈ pairs ∧ kindAt rest (j - i) = .rightBrace ∧
      blockFrom (part.countP (·.shape == .curly) + 1) i rest = some j := by
  generalize hw : part ++ o :: base = w at h
  induction h generalizing part with
  | done => simp at hw
  | @opens waiting i t rest pairs shape ht next ih =>
    obtain ⟨j, hj, hmem, hkind, hblock⟩ :=
      @ih (⟨i, t, shape⟩ :: part) (List.pairwise_cons.mp hrest).2 (by simp [hw])
    refine ⟨j, Nat.le_of_succ_le hj, hmem, by rw [kindAt_sub hj, hkind], ?_⟩
    rw [List.countP_cons] at hblock
    rw [blockFrom]
    cases hk : t.kind <;> simp only [hk, Kind.opens?, Option.some.injEq, reduceCtorEq] at ht <;>
      subst ht <;> simpa using hblock
  | @other waiting i t rest pairs hopens hcloses next ih =>
    have heof := ne_eof_of_waiting (hw ▸ next) hrest
    obtain ⟨j, hj, hmem, hkind, hblock⟩ := ih (List.pairwise_cons.mp hrest).2 hw
    refine ⟨j, Nat.le_of_succ_le hj, hmem, by rw [kindAt_sub hj, hkind], ?_⟩
    rw [blockFrom]
    split
    · rename_i hk
      simp [hk, Kind.opens?] at hopens
    · rename_i hk
      simp [hk, Kind.closes?] at hcloses
    · rename_i hk
      exact absurd hk heof
    · exact hblock
  | @closes p waiting i t rest pairs ht next ih =>
    have hcloser := Kind.closer_of_closes ht
    cases part with
    | nil =>
      -- the innermost open bracket is the `{` itself
      obtain ⟨rfl, rfl⟩ := List.cons.inj hw
      rw [ho] at hcloser
      refine ⟨i, Nat.le_refl i, List.mem_cons_self, by rw [Nat.sub_self]; exact hcloser, ?_⟩
      rw [blockFrom, hcloser]
      rfl
    | cons q part =>
      obtain ⟨rfl, rfl⟩ := List.cons.inj hw
      obtain ⟨j, hj, hmem, hkind, hblock⟩ := ih (List.pairwise_cons.mp hrest).2 rfl
      refine ⟨j, Nat.le_of_succ_le hj, List.mem_cons_of_mem _ hmem,
        by rw [kindAt_sub hj, hkind], ?_⟩
      rw [blockFrom, List.countP_cons, hcloser]
      cases hshape : q.shape <;> simpa [BracketShape.closer] using hblock

end Clean

/-! ## The tokens of a text -/

section Tokens

variable {ts : List Token} {i j j' : Nat} {shape : BracketShape}

theorem clean_of_check (h : check ts = []) :
    Clean [] 0 ts ((verdicts ts).filterMap Verdict.pair?) :=
  clean_verdictsFrom h

/-- Behind an opener the run is clean, with the opener as the innermost open bracket. -/
theorem clean_behind (h : check ts = []) (hopens : (kindAt ts i).opens? = some shape) :
    ∃ waiting pairs, pairs ⊆ (verdicts ts).filterMap Verdict.pair? ∧
      Clean (⟨i, tokenAt ts i, shape⟩ :: waiting) (i + 1) (ts.drop (i + 1)) pairs := by
  have hlt : i < ts.length := by
    apply Classical.byContradiction
    intro hge
    rw [kindAt_of_length_le (by omega)] at hopens
    cases hopens
  have hsplit : ts.take i ++ ts.drop i = ts := List.take_append_drop i ts
  have hclean := clean_of_check h
  rw [← hsplit] at hclean
  obtain ⟨waiting, pairs, hsub, hrun⟩ := hclean.drop
  rw [hsplit] at hsub
  rw [List.length_take, Nat.min_eq_left (Nat.le_of_lt hlt), Nat.zero_add,
    drop_eq_tokenAt_cons hlt] at hrun
  have hkind : (tokenAt ts i).kind.opens? = some shape := hopens
  cases hrun with
  | @opens _ _ _ _ _ shape' ht next =>
    obtain rfl := Option.some.inj (hkind.symm.trans ht)
    exact ⟨waiting, pairs, hsub, next⟩
  | other hopens' _ _ =>
    rw [hopens'] at hkind
    cases hkind
  | closes ht _ =>
    rw [Kind.closes?_of_opens? hkind] at ht
    cases ht

theorem Partner.unique (h : check ts = []) (hj : Partner ts i j) (hj' : Partner ts i j') :
    j = j' := by
  have hnodup := ((clean_of_check h).openers_nodup (by simp) List.nodup_nil).1
  have heq := List.inj_on_of_nodup_map hnodup hj hj' rfl
  exact (Prod.mk.inj heq).2

theorem exists_partner (h : check ts = []) (hopens : (kindAt ts i).opens? = some shape) :
    ∃ j, Partner ts i j := by
  obtain ⟨waiting, pairs, hsub, hclean⟩ := clean_behind h hopens
  obtain ⟨j, hj⟩ := hclean.exists_pair List.mem_cons_self
  exact ⟨j, hsub hj⟩

/-- A block ends at the partner of its `{`. -/
theorem Partner.blockEnd_eq (hts : EndsInEof ts) (h : check ts = [])
    (hopen : kindAt ts i = .leftBrace) (hj : Partner ts i j) :
    blockEnd ts i = j ∧ kindAt ts j = .rightBrace := by
  have hopens : (kindAt ts i).opens? = some .curly := by rw [hopen]; rfl
  obtain ⟨waiting, pairs, hsub, hclean⟩ := clean_behind h hopens
  obtain ⟨k, hk, hmem, hkind, hblock⟩ :=
    @Clean.blockFrom_eq _ _ _ _ [] waiting hclean rfl (hts.pairwise_drop (i + 1))
  obtain rfl : k = j := Partner.unique h (hsub hmem) hj
  have hlt := hts.succ_lt_of_eq hopen nofun
  have hkind' : kindAt ts k = .rightBrace := by
    rw [← hkind, kindAt, kindAt, tokenAt, tokenAt, List.getD_eq_getElem?_getD,
      List.getD_eq_getElem?_getD, List.getElem?_drop, Nat.add_sub_cancel' hk]
  have hstart : blockFrom 0 i (ts.drop i) = blockFrom 1 (i + 1) (ts.drop (i + 1)) := by
    rw [drop_eq_tokenAt_cons (Nat.lt_of_succ_lt hlt), blockFrom,
      show (tokenAt ts i).kind = .leftBrace from hopen]
  refine ⟨?_, hkind'⟩
  rw [blockEnd, hstart, show blockFrom 1 (i + 1) (ts.drop (i + 1)) = some k from hblock]
  rfl

/-- An argument list closes at the partner of its `(`, unless a brace or `;` comes before it. -/
theorem Partner.callClose_eq (hts : EndsInEof ts) (h : check ts = [])
    (hopen : kindAt ts i = .leftParen) (hj : Partner ts i j) :
    callClose ts i =
      if ((⟨i + 1, j⟩ : Extent).tokens ts).any (·.kind.interrupts) then none else some j := by
  have hopens : (kindAt ts i).opens? = some .round := by rw [hopen]; rfl
  obtain ⟨waiting, pairs, hsub, hclean⟩ := clean_behind h hopens
  obtain ⟨k, hk, hmem, hclose⟩ :=
    @Clean.closeFrom_eq _ _ _ _ [] waiting hclean rfl (hts.pairwise_drop (i + 1))
  obtain rfl : k = j := Partner.unique h (hsub hmem) hj
  have hlt := hts.succ_lt_of_eq hopen nofun
  have hstart : closeFrom 0 i (ts.drop i) = closeFrom 1 (i + 1) (ts.drop (i + 1)) := by
    rw [drop_eq_tokenAt_cons (Nat.lt_of_succ_lt hlt), closeFrom,
      show (tokenAt ts i).kind = .leftParen from hopen]
    rfl
  rw [callClose, hstart]
  exact hclose

end Tokens

/-- **The matchers agree with the validator.** In a text without bracket errors every opener has one
partner. The block of a `{` ends there, never at the end of the document; the argument list of a `(`
closes there if no brace and no `;` stands between the two, and does not close otherwise. -/
theorem matchers_agree (uri text : String) (h : check (Lexer.tokenize uri text).1 = []) :
    let ts := (Lexer.tokenize uri text).1
    (∀ i shape, (kindAt ts i).opens? = some shape → ∃! j, Partner ts i j) ∧
    (∀ i j, kindAt ts i = .leftBrace → Partner ts i j →
      blockEnd ts i = j ∧ kindAt ts j = .rightBrace) ∧
    (∀ i j, kindAt ts i = .leftParen → Partner ts i j →
      callClose ts i =
        if ((⟨i + 1, j⟩ : Extent).tokens ts).any (·.kind.interrupts) then none else some j) := by
  intro ts
  have hts : EndsInEof ts := (tokenStream_tokenize uri text).endsInEof
  refine ⟨fun i shape hopens => ?_, fun i j hopen hj => ?_, fun i j hopen hj => ?_⟩
  · obtain ⟨j, hj⟩ := exists_partner h hopens
    exact ⟨j, hj, fun j' hj' => Partner.unique h hj' hj⟩
  · exact hj.blockEnd_eq hts h hopen
  · exact hj.callClose_eq hts h hopen

theorem matchers_agree_nested :
    let ts := (Lexer.tokenize "m.aur" "f([g(a)]) \x7b h(\x7b\x7d) \x7d").1
    check ts = [] ∧ Partner ts 1 8 ∧ callClose ts 1 = some 8 ∧ Partner ts 9 15 ∧
      blockEnd ts 9 = 15 ∧ Partner ts 11 14 ∧ callClose ts 11 = none := by
  intro ts
  have h : check ts = [] := by decide +kernel
  have houter : Partner ts 1 8 := by decide +kernel
  have hblock : Partner ts 9 15 := by decide +kernel
  have hinner : Partner ts 11 14 := by decide +kernel
  obtain ⟨_, hblocks, hcalls⟩ := matchers_agree "m.aur" _ h
  refine ⟨h, houter, ?_, hblock, (hblocks 9 15 (by decide +kernel) hblock).1, hinner, ?_⟩
  · exact (hcalls 1 8 (by decide +kernel) houter).trans (by decide +kernel)
  · exact (hcalls 11 14 (by decide +kernel) hinner).trans (by decide +kernel)

end Brackets

end AuroraLint
