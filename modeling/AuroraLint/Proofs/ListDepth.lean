import AuroraLint.Proofs.Checked.Basic
import AuroraLint.Proofs.Stream

/-!
# Arguments and expressions by depth

How deep a token stands in `(` and `[` is told by counting. The searches for the end of a call, for
its arguments and for the end of an expression keep a depth of their own; it is always the counted
one, so what they find can be told without them.

* `listDepth`      : the `(` and `[` that are open in front of a token, by count.
* `Segments`       : the non-empty stretches between separators, from left to right.
* `ExpressionRun`  : a stretch of tokens that can be one expression.

Main statements: `splitArguments_partition` — the arguments of a call are the non-empty segments
between its own commas, and the depth never falls below zero; `expressionEnd_longest` — an
expression is the longest run that can be one.
-/

set_option autoImplicit false

namespace AuroraLint

/-! ## Depth -/

/-- The tokens from index `b` up to, not including, `i` whose kind satisfies `p`. -/
def countKinds (p : Kind → Bool) (ts : List Token) (b i : Nat) : Nat :=
  (List.range' b (i - b)).countP fun n => p (kindAt ts n)

/-- How deep in `(` and `[` token `i` stands, seen from token `b`: as many as are opened from `b` on
and before `i`, less those that are closed there. -/
def listDepth (ts : List Token) (b i : Nat) : Int :=
  (countKinds Kind.opensList ts b i : Int) - countKinds Kind.closesList ts b i

section Depth

variable {ts : List Token} {b i : Nat}

theorem countKinds_self (p : Kind → Bool) (ts : List Token) (b : Nat) :
    countKinds p ts b b = 0 := by
  rw [countKinds, Nat.sub_self]
  rfl

theorem countKinds_succ (p : Kind → Bool) (hb : b ≤ i) :
    countKinds p ts b (i + 1) = countKinds p ts b i + if p (kindAt ts i) then 1 else 0 := by
  have hrange : List.range' b (i + 1 - b) = List.range' b (i - b) ++ [i] := by
    rw [show i + 1 - b = i - b + 1 by omega, List.range'_1_concat, Nat.add_sub_cancel' hb]
  rw [countKinds, hrange, List.countP_append, List.countP_singleton]
  rfl

@[simp] theorem listDepth_self (ts : List Token) (b : Nat) : listDepth ts b b = 0 := by
  rw [listDepth, countKinds_self, countKinds_self]
  rfl

theorem listDepth_of_opens (hb : b ≤ i) (hk : (kindAt ts i).opensList = true) :
    listDepth ts b (i + 1) = listDepth ts b i + 1 := by
  have hcloses := Kind.closesList_of_opensList hk
  simp only [listDepth, countKinds_succ _ hb, hk, hcloses, if_true, Bool.false_eq_true, if_false]
  omega

theorem listDepth_of_closes (hb : b ≤ i) (hopens : ¬ (kindAt ts i).opensList = true)
    (hk : (kindAt ts i).closesList = true) :
    listDepth ts b (i + 1) = listDepth ts b i - 1 := by
  simp only [listDepth, countKinds_succ _ hb, hk, hopens, if_true, Bool.false_eq_true, if_false]
  omega

theorem listDepth_of_neither (hb : b ≤ i) (hopens : ¬ (kindAt ts i).opensList = true)
    (hcloses : ¬ (kindAt ts i).closesList = true) :
    listDepth ts b (i + 1) = listDepth ts b i := by
  simp only [listDepth, countKinds_succ _ hb, hopens, hcloses, Bool.false_eq_true, if_false]
  omega

end Depth

/-! ## Where a call closes -/

/-- What is true at `i` and from the next index on is true from `i` on. -/
theorem forall_from_of_succ {P : Nat → Prop} {i c : Nat} (hi : P i)
    (h : ∀ k, i + 1 ≤ k → k ≤ c → P k) : ∀ k, i ≤ k → k ≤ c → P k := by
  intro k hik hk
  rcases Nat.eq_or_lt_of_le hik with rfl | hlt
  · exact hi
  · exact h k hlt hk

/-- The search for the end of a list counts one more than the depth inside the list. So the depth
inside is zero at the closer that is found, and not below zero up to there. -/
theorem closeFrom_listDepth {ts : List Token} {b i depth closer : Nat} (hb : b ≤ i)
    (hdepth : (depth : Int) = listDepth ts b i + 1) (hpos : 0 ≤ listDepth ts b i)
    (h : closeFrom depth i (ts.drop i) = some closer) :
    listDepth ts b closer = 0 ∧ ∀ k, i ≤ k → k ≤ closer → 0 ≤ listDepth ts b k := by
  generalize hrest : ts.drop i = rest at h
  fun_induction closeFrom depth i rest with
  | case1 | case4 | case6 => cases h
  | case2 depth i t rest hopens ih =>
    obtain ⟨rfl, htail⟩ := tokenAt_of_drop hrest
    have hnext := listDepth_of_opens hb hopens
    obtain ⟨hcloser, hall⟩ := ih (by omega) (by omega) (by omega) htail h
    exact ⟨hcloser, forall_from_of_succ hpos hall⟩
  | case3 depth i t rest hopens hcloses hone hparen =>
    obtain rfl := Option.some.inj h
    refine ⟨by omega, forall_from_of_succ hpos fun k hlt hle => ?_⟩
    omega
  | case5 depth i t rest hopens hcloses hone ih =>
    obtain ⟨rfl, htail⟩ := tokenAt_of_drop hrest
    have hnext := listDepth_of_closes hb hopens hcloses
    obtain ⟨hcloser, hall⟩ := ih (by omega) (by omega) (by omega) htail h
    exact ⟨hcloser, forall_from_of_succ hpos hall⟩
  | case7 depth i t rest hopens hcloses hbreaks ih =>
    obtain ⟨rfl, htail⟩ := tokenAt_of_drop hrest
    have hnext := listDepth_of_neither hb hopens hcloses
    obtain ⟨hcloser, hall⟩ := ih (by omega) (by omega) (by omega) htail h
    exact ⟨hcloser, forall_from_of_succ hpos hall⟩

/-- **Between the parentheses of a call the depth is never below zero**, and it is zero at the
closing one. -/
theorem callClose_listDepth {ts : List Token} {opener closer : Nat}
    (hopen : kindAt ts opener = .leftParen) (hclose : callClose ts opener = some closer) :
    listDepth ts (opener + 1) closer = 0 ∧
      ∀ k, opener < k → k ≤ closer → 0 ≤ listDepth ts (opener + 1) k := by
  have hlt : opener < ts.length := by
    have := callClose_bounds hclose
    omega
  have hopens : (tokenAt ts opener).kind.opensList = true := by
    rw [show (tokenAt ts opener).kind = .leftParen from hopen]
    rfl
  rw [callClose, drop_eq_tokenAt_cons hlt, closeFrom, if_pos hopens] at hclose
  exact closeFrom_listDepth (Nat.le_refl _) (by simp) (by simp) hclose

/-! ## Segments between separators -/

/-- A non-empty stretch that ends on both sides at a separator or at the end of the stretch from
`start` to `stop`, and has no separator inside. -/
structure IsSegment (sep : Nat → Prop) (start stop : Nat) (e : Extent) : Prop where
  nonempty : e.start < e.stop
  front : e.start = start ∨ start < e.start ∧ sep (e.start - 1)
  back : e.stop = stop ∨ e.stop < stop ∧ sep e.stop
  inside : ∀ k, e.start ≤ k → k < e.stop → ¬ sep k

/-- The segments from `start` to `stop`, from left to right: up to the first separator, and behind
it. -/
inductive Segments (sep : Nat → Prop) (stop : Nat) : Nat → List Extent → Prop
  | last {start : Nat} (hle : start ≤ stop) (hfree : ∀ k, start ≤ k → k < stop → ¬ sep k) :
    Segments sep stop start (segment start stop)
  | more {start i : Nat} {es : List Extent} (hle : start ≤ i) (hlt : i < stop)
    (hfree : ∀ k, start ≤ k → k < i → ¬ sep k) (hsep : sep i)
    (next : Segments sep stop (i + 1) es) :
    Segments sep stop start (segment start i ++ es)

theorem mem_segment_iff {start stop : Nat} {e : Extent} :
    e ∈ segment start stop ↔ e = ⟨start, stop⟩ ∧ start < stop := by
  unfold segment
  split <;> simp [*]

/-- The extents are exactly the non-empty segments, from left to right; what none of them holds are
the separators. -/
structure Partition (sep : Nat → Prop) (start stop : Nat) (es : List Extent) : Prop where
  bounds : ∀ e ∈ es, start ≤ e.start ∧ e.start < e.stop ∧ e.stop ≤ stop
  /-- Between two of them there is at least one separator, so they are disjoint. -/
  ordered : es.Pairwise fun a b => a.stop < b.start
  uncovered : ∀ k, start ≤ k → k < stop → ((∀ e ∈ es, ¬ (e.start ≤ k ∧ k < e.stop)) ↔ sep k)
  exact : ∀ e, e ∈ es ↔ IsSegment sep start stop e

namespace Segments

variable {sep : Nat → Prop} {start stop : Nat} {es : List Extent}

theorem bounds (h : Segments sep stop start es) :
    ∀ e ∈ es, start ≤ e.start ∧ e.start < e.stop ∧ e.stop ≤ stop := by
  induction h with
  | @last start hle hfree =>
    intro e he
    obtain ⟨rfl, hlt⟩ := mem_segment_iff.mp he
    exact ⟨Nat.le_refl _, hlt, Nat.le_refl _⟩
  | @more start i es hle hlt hfree hsep next ih =>
    intro e he
    rcases List.mem_append.mp he with he | he
    · obtain ⟨rfl, hne⟩ := mem_segment_iff.mp he
      exact ⟨Nat.le_refl _, hne, Nat.le_of_lt hlt⟩
    · have := ih e he
      omega

theorem ordered (h : Segments sep stop start es) : es.Pairwise fun a b => a.stop < b.start := by
  induction h with
  | @last start hle hfree =>
    unfold segment
    split
    · exact List.pairwise_singleton ..
    · exact .nil
  | @more start i es hle hlt hfree hsep next ih =>
    refine List.pairwise_append.mpr ⟨?_, ih, fun a ha b hb => ?_⟩
    · unfold segment
      split
      · exact List.pairwise_singleton ..
      · exact .nil
    · obtain ⟨rfl, -⟩ := mem_segment_iff.mp ha
      have := next.bounds b hb
      exact this.1

/-- What is no separator is in a segment. -/
theorem covers (h : Segments sep stop start es) :
    ∀ k, start ≤ k → k < stop → ¬ sep k → ∃ e ∈ es, e.start ≤ k ∧ k < e.stop := by
  induction h with
  | @last start hle hfree =>
    intro k hk hstop _
    exact ⟨⟨start, stop⟩, mem_segment_iff.mpr ⟨rfl, by omega⟩, hk, hstop⟩
  | @more start i es hle hlt hfree hsep next ih =>
    intro k hk hstop hnot
    rcases Nat.lt_trichotomy k i with hki | rfl | hik
    · exact ⟨⟨start, i⟩, List.mem_append_left _ (mem_segment_iff.mpr ⟨rfl, by omega⟩), hk, hki⟩
    · exact absurd hsep hnot
    · obtain ⟨e, he, hin⟩ := ih k hik hstop hnot
      exact ⟨e, List.mem_append_right _ he, hin⟩

theorem isSegment (h : Segments sep stop start es) : ∀ e ∈ es, IsSegment sep start stop e := by
  induction h with
  | @last start hle hfree =>
    intro e he
    obtain ⟨rfl, hlt⟩ := mem_segment_iff.mp he
    exact ⟨hlt, .inl rfl, .inl rfl, hfree⟩
  | @more start i es hle hlt hfree hsep next ih =>
    intro e he
    rcases List.mem_append.mp he with he | he
    · obtain ⟨rfl, hne⟩ := mem_segment_iff.mp he
      exact ⟨hne, .inl rfl, .inr ⟨hlt, hsep⟩, hfree⟩
    · obtain ⟨hne, hfront, hback, hinside⟩ := ih e he
      refine ⟨hne, .inr ?_, hback, hinside⟩
      rcases hfront with heq | ⟨hlt', hsep'⟩
      · rw [heq]
        exact ⟨Nat.lt_succ_of_le hle, hsep⟩
      · exact ⟨by omega, hsep'⟩

end Segments

namespace IsSegment

variable {sep : Nat → Prop} {start stop : Nat} {a b : Extent}

theorem bounds (h : IsSegment sep start stop a) : start ≤ a.start ∧ a.stop ≤ stop := by
  have hfront := h.front
  have hback := h.back
  omega

/-- A segment that starts inside another starts with it: in front of it there is no separator. -/
theorem start_le (ha : IsSegment sep start stop a) (hb : IsSegment sep start stop b)
    (h : b.start < a.stop) : b.start ≤ a.start := by
  apply Nat.le_of_not_lt
  intro hlt
  have hbound := ha.bounds.1
  rcases hb.front with heq | ⟨-, hsep⟩
  · omega
  · exact ha.inside (b.start - 1) (by omega) (by omega) hsep

theorem stop_le (ha : IsSegment sep start stop a) (hb : IsSegment sep start stop b)
    (h : a.start < b.stop) : a.stop ≤ b.stop := by
  apply Nat.le_of_not_lt
  intro hlt
  have hbound := ha.bounds.2
  rcases hb.back with heq | ⟨-, hsep⟩
  · omega
  · exact ha.inside b.stop (Nat.le_of_lt h) hlt hsep

/-- Segments that overlap are the same. -/
theorem eq_of_overlap (ha : IsSegment sep start stop a) (hb : IsSegment sep start stop b)
    (hab : a.start < b.stop) (hba : b.start < a.stop) : a = b := by
  have hstart := Nat.le_antisymm (hb.start_le ha hab) (ha.start_le hb hba)
  have hstop := Nat.le_antisymm (ha.stop_le hb hab) (hb.stop_le ha hba)
  cases a
  cases b
  simp_all

end IsSegment

/-- **The segments are a partition of all but the separators.** -/
theorem Segments.partition {sep : Nat → Prop} {start stop : Nat} {es : List Extent}
    (h : Segments sep stop start es) : Partition sep start stop es := by
  refine ⟨h.bounds, h.ordered, fun k hk hstop => ⟨fun hout => ?_, fun hsep e he hin => ?_⟩,
    fun e => ⟨h.isSegment e, fun he => ?_⟩⟩
  · apply Classical.byContradiction
    intro hnot
    obtain ⟨e, he, hin⟩ := h.covers k hk hstop hnot
    exact hout e he hin
  · exact (h.isSegment e he).inside k hin.1 hin.2 hsep
  · have hbounds := he.bounds
    have hnot := he.inside e.start (Nat.le_refl _) he.nonempty
    have hlt := he.nonempty
    obtain ⟨e', he', hin⟩ := h.covers e.start hbounds.1 (by omega) hnot
    rwa [he.eq_of_overlap (h.isSegment e' he') hin.2 (by omega)]

/-! ## Arguments -/

/-- Token `k` is a comma outside the lists that are open since token `b`. -/
def TopComma (ts : List Token) (b k : Nat) : Prop :=
  kindAt ts k = .comma ∧ listDepth ts b k = 0

section Splitting

variable {ts : List Token} {b depth start i n : Nat}

/-- Where the depth does not fall below zero, the walk finds the segments between the commas of
depth zero. -/
theorem segments_splitFrom (hb : b ≤ i) (hdepth : (depth : Int) = listDepth ts b i)
    (hpos : ∀ k, i ≤ k → k ≤ i + n → 0 ≤ listDepth ts b k) (hlen : i + n ≤ ts.length)
    (hle : start ≤ i) (hfree : ∀ k, start ≤ k → k < i → ¬ TopComma ts b k) :
    Segments (TopComma ts b) (i + n) start (splitFrom depth start i ((ts.drop i).take n)) := by
  induction n generalizing depth start i with
  | zero => exact .last hle hfree
  | succ n ih =>
    have hlt : i < ts.length := by omega
    have hpos' : ∀ k, i + 1 ≤ k → k ≤ i + 1 + n → 0 ≤ listDepth ts b k :=
      fun k hk hk' => hpos k (by omega) (by omega)
    have hnext := hpos (i + 1) (by omega) (by omega)
    -- a token that is no such comma goes to the segment being read
    have hgrow : ¬ TopComma ts b i → ∀ k, start ≤ k → k < i + 1 → ¬ TopComma ts b k := by
      intro hnot k hk hki
      rcases Nat.lt_succ_iff_lt_or_eq.mp hki with hki | rfl
      · exact hfree k hk hki
      · exact hnot
    rw [drop_eq_tokenAt_cons hlt, List.take_succ_cons, splitFrom,
      show i + (n + 1) = i + 1 + n by omega]
    split
    · rename_i hopens
      have hstep := listDepth_of_opens hb hopens
      refine ih (by omega) (by omega) hpos' (by omega) (by omega) (hgrow fun hcomma => ?_)
      rw [show (tokenAt ts i).kind = .comma from hcomma.1] at hopens
      cases hopens
    · rename_i hopens
      split
      · rename_i hcloses
        have hstep := listDepth_of_closes hb hopens hcloses
        refine ih (by omega) (by omega) hpos' (by omega) (by omega) (hgrow fun hcomma => ?_)
        rw [show (tokenAt ts i).kind = .comma from hcomma.1] at hcloses
        cases hcloses
      · rename_i hcloses
        have hstep := listDepth_of_neither hb hopens hcloses
        split
        · rename_i hcomma
          refine .more hle (by omega) hfree ⟨hcomma.1, by omega⟩ ?_
          exact ih (by omega) (by omega) hpos' (by omega) (Nat.le_refl _) fun k hk hk' => by omega
        · rename_i hcomma
          refine ih (by omega) (by omega) hpos' (by omega) (by omega) (hgrow fun hsep => ?_)
          exact hcomma ⟨hsep.1, by have := hsep.2; omega⟩

namespace Checked

/-- As `AuroraLint.splitFrom`, where a closer at depth zero is a fault. -/
def strictSplitFrom (depth start i : Nat) : List Token → Checked (List Extent)
  | [] => pure (segment start i)
  | t :: ts =>
    if t.kind.opensList then strictSplitFrom (depth + 1) start (i + 1) ts
    else if t.kind.closesList then do
      let outer ← sub depth 1
      strictSplitFrom outer start (i + 1) ts
    else if t.kind = .comma ∧ depth = 0 then do
      let others ← strictSplitFrom depth (i + 1) (i + 1) ts
      return segment start i ++ others
    else strictSplitFrom depth start (i + 1) ts

/-- As `AuroraLint.splitArguments`, where a closer at depth zero is a fault. -/
def strictSplitArguments (ts : List Token) (opener closer : Nat) : Checked (List Extent) :=
  strictSplitFrom 0 (opener + 1) (opener + 1) ((ts.drop (opener + 1)).take (closer - (opener + 1)))

/-- **Where the depth does not fall below zero, nothing is cut off at zero.** -/
theorem strictSplitFrom_eq_ok (hb : b ≤ i) (hdepth : (depth : Int) = listDepth ts b i)
    (hpos : ∀ k, i ≤ k → k ≤ i + n → 0 ≤ listDepth ts b k) (hlen : i + n ≤ ts.length) :
    strictSplitFrom depth start i ((ts.drop i).take n) =
      .ok (AuroraLint.splitFrom depth start i ((ts.drop i).take n)) := by
  induction n generalizing depth start i with
  | zero => rfl
  | succ n ih =>
    have hlt : i < ts.length := by omega
    have hpos' : ∀ k, i + 1 ≤ k → k ≤ i + 1 + n → 0 ≤ listDepth ts b k :=
      fun k hk hk' => hpos k (by omega) (by omega)
    have hnext := hpos (i + 1) (by omega) (by omega)
    rw [drop_eq_tokenAt_cons hlt, List.take_succ_cons]
    simp only [strictSplitFrom, AuroraLint.splitFrom]
    split
    · rename_i hopens
      have hstep := listDepth_of_opens hb hopens
      exact ih (by omega) (by omega) hpos' (by omega)
    · rename_i hopens
      split
      · rename_i hcloses
        have hstep := listDepth_of_closes hb hopens hcloses
        rw [sub_eq_ok (by omega), ok_bind]
        exact ih (by omega) (by omega) hpos' (by omega)
      · rename_i hcloses
        have hstep := listDepth_of_neither hb hopens hcloses
        split
        · rw [ih (by omega) (by omega) hpos' (by omega), ok_bind, pure_eq_ok]
        · exact ih (by omega) (by omega) hpos' (by omega)

end Checked

end Splitting

/-- **The arguments of a call are the segments between its own commas.** Between the parentheses the
depth is never below zero, and it is zero at the closing one; the depth that the walk keeps is never
cut off at zero. The arguments are the non-empty segments between the commas of depth zero, in order
and apart from each other, and every other token is in one of them. -/
theorem splitArguments_partition {ts : List Token} {opener closer : Nat}
    (hopen : kindAt ts opener = .leftParen) (hclose : callClose ts opener = some closer) :
    ((∀ k, opener < k → k ≤ closer → 0 ≤ listDepth ts (opener + 1) k) ∧
      listDepth ts (opener + 1) closer = 0 ∧
      Checked.strictSplitArguments ts opener closer = .ok (splitArguments ts opener closer)) ∧
    Partition (TopComma ts (opener + 1)) (opener + 1) closer (splitArguments ts opener closer) := by
  obtain ⟨hzero, hpos⟩ := callClose_listDepth hopen hclose
  have hlt := (callClose_spec hopen hclose).2
  have hlen := (callClose_bounds hclose).2
  have hstop : opener + 1 + (closer - (opener + 1)) = closer := by omega
  have hpos' : ∀ k, opener + 1 ≤ k → k ≤ opener + 1 + (closer - (opener + 1)) →
      0 ≤ listDepth ts (opener + 1) k := fun k hk hk' => hpos k hk (by omega)
  refine ⟨⟨hpos, hzero, ?_⟩, ?_⟩
  · exact Checked.strictSplitFrom_eq_ok (Nat.le_refl _) (by simp) hpos' (by omega)
  · have hsegments : Segments (TopComma ts (opener + 1)) (opener + 1 + (closer - (opener + 1)))
        (opener + 1) (splitArguments ts opener closer) :=
      segments_splitFrom (Nat.le_refl _) (by simp) hpos' (by omega) (Nat.le_refl _)
        fun k hk hk' => by omega
    rw [hstop] at hsegments
    exact hsegments.partition

/-- Arguments with lists in them, one of which is closed by a bracket of the other shape; two commas
side by side, and one at the end. -/
theorem splitArguments_partition_mixed :
    let ts := (Lexer.tokenize "m.aur" "f(a, g(1, [2, 3)), , x,)").1
    kindAt ts 1 = .leftParen ∧ callClose ts 1 = some 18 ∧
      splitArguments ts 1 18 = [⟨2, 3⟩, ⟨4, 14⟩, ⟨16, 17⟩] ∧
      Partition (TopComma ts 2) 2 18 [⟨2, 3⟩, ⟨4, 14⟩, ⟨16, 17⟩] := by
  intro ts
  have hopen : kindAt ts 1 = .leftParen := by decide +kernel
  have hclose : callClose ts 1 = some 18 := by decide +kernel
  have hsplit : splitArguments ts 1 18 = [⟨2, 3⟩, ⟨4, 14⟩, ⟨16, 17⟩] := by decide +kernel
  exact ⟨hopen, hclose, hsplit, hsplit ▸ (splitArguments_partition hopen hclose).2⟩

/-! ## Expressions -/

/-- What ends an expression outside all lists: separators, closers and the words that start a
statement. -/
def expressionStops : List Kind :=
  [.semicolon, .comma, .rightParen, .rightBracket, .rightBrace, .kwLet, .kwVar, .kwFn, .kwClass,
    .kwExtern, .kwReturn]

/-- What no expression holds: braces and the end of the document. -/
def expressionWalls : List Kind :=
  [.leftBrace, .rightBrace, .eof]

/-- The tokens from index `start` up to, not including, `stop` can be one expression. -/
structure ExpressionRun (ts : List Token) (start stop : Nat) : Prop where
  le : start ≤ stop
  free : ∀ k, start ≤ k → k < stop → kindAt ts k ∉ expressionWalls
  /-- Up to any of its tokens, at least as many lists are opened as closed. -/
  nested : ∀ k, start ≤ k → k ≤ stop → 0 ≤ listDepth ts start k
  /-- Outside all lists there is nothing that ends an expression, and no new line. -/
  outside : ∀ k, start ≤ k → k < stop → listDepth ts start k = 0 →
    kindAt ts k ∉ expressionStops ∧ (k ≠ start → (tokenAt ts k).line = (tokenAt ts (k - 1)).line)

/-- The longest run from token `start` ends at token `stop`. -/
structure LongestRun (ts : List Token) (start stop : Nat) : Prop where
  run : ExpressionRun ts start stop
  max : ∀ stop', ExpressionRun ts start stop' → stop' ≤ stop
  /-- Only a brace and the end of the document cut lists off. -/
  closed : kindAt ts stop ∉ expressionWalls → listDepth ts start stop = 0

theorem Kind.endsExpression_iff (k : Kind) :
    k.endsExpression = true ↔ k ∈ expressionStops ∨ k ∈ expressionWalls := by
  cases k <;> decide

theorem Kind.endsAnyExpression_iff (k : Kind) :
    k.endsAnyExpression = true ↔ k ∈ expressionWalls := by
  cases k <;> decide

namespace ExpressionRun

variable {ts : List Token} {start stop i : Nat}

theorem refl (ts : List Token) (start : Nat) : ExpressionRun ts start start := by
  refine ⟨Nat.le_refl _, fun k hk hk' => by omega, fun k hk hk' => ?_, fun k hk hk' => by omega⟩
  obtain rfl := Nat.le_antisymm hk hk'
  simp

/-- A run goes on over a token that is no brace and, outside all lists, goes on the line. A closer
that stands outside all lists is none of these, so the depth does not fall below zero. -/
theorem succ (h : ExpressionRun ts start i) (hfree : kindAt ts i ∉ expressionWalls)
    (houtside : listDepth ts start i = 0 → kindAt ts i ∉ expressionStops ∧
      (i ≠ start → (tokenAt ts i).line = (tokenAt ts (i - 1)).line)) :
    ExpressionRun ts start (i + 1) := by
  have hdepth := h.nested i h.le (Nat.le_refl i)
  have hnext : 0 ≤ listDepth ts start (i + 1) := by
    by_cases hopens : (kindAt ts i).opensList = true
    · rw [listDepth_of_opens h.le hopens]
      omega
    · by_cases hcloses : (kindAt ts i).closesList = true
      · rw [listDepth_of_closes h.le hopens hcloses]
        apply Int.le_of_not_gt
        intro hneg
        have hstop := (houtside (by omega)).1
        have hends := Kind.endsExpression_of_closesList hcloses
        exact ((Kind.endsExpression_iff _).mp hends).elim hstop hfree
      · rw [listDepth_of_neither h.le hopens hcloses]
        exact hdepth
  refine ⟨Nat.le_succ_of_le h.le, fun k hk hk' => ?_, fun k hk hk' => ?_, fun k hk hk' => ?_⟩
  · rcases Nat.lt_succ_iff_lt_or_eq.mp hk' with hlt | rfl
    · exact h.free k hk hlt
    · exact hfree
  · rcases Nat.lt_or_eq_of_le hk' with hlt | rfl
    · exact h.nested k hk (Nat.le_of_lt_succ hlt)
    · exact hnext
  · rcases Nat.lt_succ_iff_lt_or_eq.mp hk' with hlt | rfl
    · exact h.outside k hk hlt
    · exact houtside

/-- No run goes over a brace or the end of the document. -/
theorem le_of_wall (h : ExpressionRun ts start stop) (hi : start ≤ i)
    (hwall : kindAt ts i ∈ expressionWalls) : stop ≤ i := by
  apply Nat.le_of_not_lt
  intro hlt
  exact h.free i hi hlt hwall

/-- No run goes over what ends it outside all lists. -/
theorem le_of_end (h : ExpressionRun ts start stop) (hi : start ≤ i)
    (hzero : listDepth ts start i = 0)
    (hend : kindAt ts i ∈ expressionStops ∨
      i ≠ start ∧ (tokenAt ts i).line ≠ (tokenAt ts (i - 1)).line) : stop ≤ i := by
  apply Nat.le_of_not_lt
  intro hlt
  obtain ⟨hkind, hline⟩ := h.outside i hi hlt hzero
  rcases hend with hstop | ⟨hne, hbreak⟩
  · exact hkind hstop
  · exact hbreak (hline hne)

/-- The walk from the end of a run on finds the longest run. Its depth is the counted one, and the
line it keeps is that of the token before; in front of the first token it is the line of that. -/
theorem expressionFrom_longest {depth lastLine : Nat} (h : ExpressionRun ts start i)
    (hdepth : (depth : Int) = listDepth ts start i)
    (hline : lastLine = (tokenAt ts (if i = start then i else i - 1)).line) :
    LongestRun ts start (expressionFrom depth lastLine i (ts.drop i)) := by
  generalize hrest : ts.drop i = rest
  fun_induction expressionFrom depth lastLine i rest with
  | case1 depth lastLine i =>
    have heof : kindAt ts i ∈ expressionWalls := by
      rw [kindAt_of_length_le (List.drop_eq_nil_iff.mp hrest)]
      decide
    exact ⟨h, fun stop hstop => hstop.le_of_wall h.le heof, fun hnot => absurd heof hnot⟩
  | case2 depth lastLine i t rest hends =>
    obtain ⟨rfl, -⟩ := tokenAt_of_drop hrest
    have hzero : listDepth ts start i = 0 := by omega
    refine ⟨h, fun stop hstop => ?_, fun _ => hzero⟩
    rcases hends.2 with hkind | hbreak
    · rcases (Kind.endsExpression_iff _).mp hkind with hmem | hwall
      · exact hstop.le_of_end h.le hzero (.inl hmem)
      · exact hstop.le_of_wall h.le hwall
    · have hne : i ≠ start := by
        rintro rfl
        rw [if_pos rfl] at hline
        exact hbreak hline.symm
      rw [if_neg hne] at hline
      exact hstop.le_of_end h.le hzero (.inr ⟨hne, hline ▸ hbreak⟩)
  | case3 depth lastLine i t rest hgoes hwall =>
    obtain ⟨rfl, -⟩ := tokenAt_of_drop hrest
    have hmem := (Kind.endsAnyExpression_iff _).mp hwall
    exact ⟨h, fun stop hstop => hstop.le_of_wall h.le hmem, fun hnot => absurd hmem hnot⟩
  | case4 depth lastLine i t rest hgoes hfree depth' ih =>
    obtain ⟨rfl, htail⟩ := tokenAt_of_drop hrest
    have hnext : ExpressionRun ts start (i + 1) := by
      refine h.succ (fun hwall => hfree ((Kind.endsAnyExpression_iff _).mpr hwall)) fun hzero => ?_
      have hpass : ¬ ((tokenAt ts i).kind.endsExpression = true ∨ (tokenAt ts i).line ≠ lastLine) :=
        fun hends => hgoes ⟨by omega, hends⟩
      rw [not_or, Kind.endsExpression_iff] at hpass
      refine ⟨fun hmem => hpass.1 (.inl hmem), fun hne => ?_⟩
      rw [if_neg hne] at hline
      rw [← hline]
      exact Decidable.not_not.mp hpass.2
    refine ih hnext ?_ ?_ htail
    · have hpos := hnext.nested (i + 1) hnext.le (Nat.le_refl _)
      by_cases hopens : (kindAt ts i).opensList = true
      · rw [listDepth_of_opens h.le hopens, ← hdepth]
        simp [depth', show (tokenAt ts i).kind.opensList = true from hopens]
      · by_cases hcloses : (kindAt ts i).closesList = true
        · rw [listDepth_of_closes h.le hopens hcloses] at hpos ⊢
          simp [depth', show ¬ (tokenAt ts i).kind.opensList = true from hopens,
            show (tokenAt ts i).kind.closesList = true from hcloses]
          omega
        · rw [listDepth_of_neither h.le hopens hcloses, ← hdepth]
          simp [depth', show ¬ (tokenAt ts i).kind.opensList = true from hopens,
            show ¬ (tokenAt ts i).kind.closesList = true from hcloses]
    · have hne : i + 1 ≠ start := by
        have := h.le
        omega
      rw [if_neg hne, Nat.add_sub_cancel]

end ExpressionRun

/-- **An expression is the longest run of tokens that can be one.** From every token of a document
it reaches at most to the end of the document. Where it stops in front of anything but a brace and
the end of the document, all lists that it opens are closed. -/
theorem expressionEnd_longest (file text : String) {start : Nat}
    (hstart : start < (Lexer.tokenize file text).1.length) :
    let ts := (Lexer.tokenize file text).1
    LongestRun ts start (expressionEnd ts start) ∧
      ∃ eof, kindAt ts eof = .eof ∧ eof + 1 = ts.length ∧ expressionEnd ts start ≤ eof := by
  intro ts
  have hts : EndsInEof ts := (tokenStream_tokenize file text).endsInEof
  have hlt : start < ts.length := hstart
  have heof : kindAt ts (ts.length - 1) = .eof := hts.kindAt_eq_eof_iff.mpr (by omega)
  have hlongest : LongestRun ts start (expressionFrom 0 (tokenAt ts start).line start
      (ts.drop start)) :=
    (ExpressionRun.refl ts start).expressionFrom_longest (by simp) (by rw [if_pos rfl])
  rw [← expressionEnd_eq hlt] at hlongest
  refine ⟨hlongest, ts.length - 1, heof, by omega, ?_⟩
  exact hlongest.run.le_of_wall (by omega) (by rw [heof]; decide)

/-- A call that goes on over a line end ends with its line; a list that is never closed ends at the
brace behind it. -/
theorem expressionEnd_longest_lines :
    let ts := (Lexer.tokenize "m.aur" "f(1,\n 2) + 3\nnext([a \x7b").1
    (0 < ts.length ∧ expressionEnd ts 0 = 8 ∧ LongestRun ts 0 8 ∧ listDepth ts 0 8 = 0) ∧
      8 < ts.length ∧ expressionEnd ts 8 = 12 ∧ LongestRun ts 8 12 ∧ listDepth ts 8 12 = 2 := by
  intro ts
  have hfirst : 0 < ts.length := by decide +kernel
  have hsecond : 8 < ts.length := by decide +kernel
  have hend : expressionEnd ts 0 = 8 := by decide +kernel
  have hend' : expressionEnd ts 8 = 12 := by decide +kernel
  have hlongest : LongestRun ts 0 8 := hend ▸ (expressionEnd_longest "m.aur" _ hfirst).1
  have hlongest' : LongestRun ts 8 12 := hend' ▸ (expressionEnd_longest "m.aur" _ hsecond).1
  exact ⟨⟨hfirst, hend, hlongest, by decide +kernel⟩, hsecond, hend', hlongest', by decide +kernel⟩

end AuroraLint
