import AuroraLint.Brackets
import AuroraLint.Proofs.Extent
import Mathlib.Data.List.Nodup

/-!
# What the validator makes of brackets

A run of the validator, error or not, uses every bracket once: a closer has one verdict, where it
stands, and an opener has one, where it is popped or at the end.

* `Brackets.Run`           : a run of the validator, one constructor for what a token can do.
* `Brackets.Verdict.Sound` : the verdict tells the truth about the tokens it names.

Main statements: `Brackets.run_verdictsFrom` — the verdicts are those of a run; from it,
`Run.closers_eq` and `Run.openers_perm` — no bracket is lost and none is used twice; `Run.sound`;
and `Run.unclosedLast` — brackets left open come last, in the order of the tokens.
-/

set_option autoImplicit false

namespace AuroraLint.Brackets

/-! ## Runs -/

/-- `Run waiting i rest vs`: where the brackets `waiting` are open, the innermost first, and the
first of the tokens `rest` has index `i`, the verdicts are `vs`. -/
inductive Run : List Opener → Nat → List Token → List Verdict → Prop
  | done {waiting : List Opener} {i : Nat} : Run waiting i [] (waiting.reverse.map .unclosed)
  | opens {waiting : List Opener} {i : Nat} {t : Token} {rest : List Token} {vs : List Verdict}
      {shape : BracketShape} (ht : t.kind.opens? = some shape)
      (next : Run (⟨i, t, shape⟩ :: waiting) (i + 1) rest vs) : Run waiting i (t :: rest) vs
  | other {waiting : List Opener} {i : Nat} {t : Token} {rest : List Token} {vs : List Verdict}
      (hopens : t.kind.opens? = none) (hcloses : t.kind.closes? = none)
      (next : Run waiting (i + 1) rest vs) : Run waiting i (t :: rest) vs
  | unexpected {i : Nat} {t : Token} {rest : List Token} {vs : List Verdict}
      {shape : BracketShape} (ht : t.kind.closes? = some shape) (next : Run [] (i + 1) rest vs) :
      Run [] i (t :: rest) (.unexpected i t shape :: vs)
  | matched {o : Opener} {waiting : List Opener} {i : Nat} {t : Token} {rest : List Token}
      {vs : List Verdict} (ht : t.kind.closes? = some o.shape)
      (next : Run waiting (i + 1) rest vs) :
      Run (o :: waiting) i (t :: rest) (.matched o i t :: vs)
  | mismatched {o : Opener} {waiting : List Opener} {i : Nat} {t : Token} {rest : List Token}
      {vs : List Verdict} {shape : BracketShape} (ht : t.kind.closes? = some shape)
      (hne : o.shape ≠ shape) (next : Run waiting (i + 1) rest vs) :
      Run (o :: waiting) i (t :: rest) (.mismatched o i t shape :: vs)

/-- **The verdicts are those of a run.** -/
theorem run_verdictsFrom (waiting : List Opener) (i : Nat) (ts : List Token) :
    Run waiting i ts (verdictsFrom waiting (ts.zipIdx i)) := by
  induction ts generalizing waiting i with
  | nil => exact .done
  | cons t ts ih =>
    rw [List.zipIdx_cons]
    unfold verdictsFrom
    split
    · rename_i shape hopens
      exact .opens hopens (ih _ _)
    · rename_i hopens hcloses
      exact .other hopens hcloses (ih _ _)
    · rename_i shape _ hcloses
      exact .unexpected hcloses (ih _ _)
    · rename_i shape o os _ hcloses
      by_cases hshape : o.shape = shape
      · rw [if_pos hshape]
        exact .matched (hshape ▸ hcloses) (ih _ _)
      · rw [if_neg hshape]
        exact .mismatched hcloses hshape (ih _ _)

theorem run_verdicts (ts : List Token) : Run [] 0 ts (verdicts ts) :=
  run_verdictsFrom [] 0 ts

/-! ## Every bracket is used once -/

namespace Verdict

/-- The index of the opener that the verdict uses up. -/
def opener? : Verdict → Option Nat
  | .matched opener _ _ => some opener.index
  | .mismatched opener _ _ _ => some opener.index
  | .unexpected .. => none
  | .unclosed opener => some opener.index

/-- The index of the closer that the verdict is on. -/
def closer? : Verdict → Option Nat
  | .matched _ index _ => some index
  | .mismatched _ index _ _ => some index
  | .unexpected index _ _ => some index
  | .unclosed _ => none

/-- The indices of the brackets that the verdict uses. -/
def places (v : Verdict) : List Nat :=
  v.closer?.toList ++ v.opener?.toList

end Verdict

theorem opens?_of_closes? {k : Kind} {shape : BracketShape} (h : k.closes? = some shape) :
    k.opens? = none := by
  cases hopens : k.opens? with
  | none => rfl
  | some s =>
    rw [Kind.closes?_of_opens? hopens] at h
    cases h

namespace Run

variable {waiting : List Opener} {i : Nat} {rest : List Token} {vs : List Verdict}

/-- **Every closer has one verdict**, in the order of the tokens. -/
theorem closers_eq (h : Run waiting i rest vs) :
    vs.filterMap Verdict.closer? = rest.findIdxs (·.kind.closes?.isSome) i := by
  induction h with
  | done => simp [List.filterMap_map, Function.comp_def, Verdict.closer?]
  | opens ht _ ih => rw [List.findIdxs_cons, Kind.closes?_of_opens? ht, ih]; rfl
  | other _ hcloses _ ih => rw [List.findIdxs_cons, hcloses, ih]; rfl
  | unexpected ht _ ih | matched ht _ ih | mismatched ht _ _ ih =>
    rw [List.findIdxs_cons, ht, List.filterMap_cons, ih]
    rfl

/-- **Every opener is used up once**, those that were waiting and those that come. -/
theorem openers_perm (h : Run waiting i rest vs) :
    (vs.filterMap Verdict.opener?).Perm
      (waiting.map Opener.index ++ rest.findIdxs (·.kind.opens?.isSome) i) := by
  induction h with
  | @done waiting i =>
    have hused : (waiting.reverse.map Verdict.unclosed).filterMap Verdict.opener? =
        (waiting.map Opener.index).reverse := by
      simp [List.filterMap_map, Function.comp_def, Verdict.opener?]
    rw [hused, List.findIdxs_nil, List.append_nil]
    exact List.reverse_perm _
  | @opens waiting i t rest vs shape ht _ ih =>
    rw [List.findIdxs_cons, ht]
    exact ih.trans List.perm_middle.symm
  | other hopens _ _ ih =>
    rw [List.findIdxs_cons, hopens]
    exact ih
  | unexpected ht _ ih =>
    rw [List.findIdxs_cons, opens?_of_closes? ht]
    exact ih
  | matched ht _ ih | mismatched ht _ _ ih =>
    rw [List.findIdxs_cons, opens?_of_closes? ht]
    exact ih.cons _

end Run

/-! ## Verdicts tell the truth -/

/-- The bracket is an opening one of the tokens. -/
def Opener.Of (ts : List Token) (o : Opener) : Prop :=
  o.token = tokenAt ts o.index ∧ (kindAt ts o.index).opens? = some o.shape

/-- What a verdict says of the tokens it names is so, and an opener stands before its closer. -/
inductive Verdict.Sound (ts : List Token) : Verdict → Prop
  | matched {o : Opener} {j : Nat} (ho : o.Of ts) (hlt : o.index < j)
      (hj : (kindAt ts j).closes? = some o.shape) : Sound ts (.matched o j (tokenAt ts j))
  | mismatched {o : Opener} {j : Nat} {shape : BracketShape} (ho : o.Of ts) (hlt : o.index < j)
      (hj : (kindAt ts j).closes? = some shape) (hne : o.shape ≠ shape) :
      Sound ts (.mismatched o j (tokenAt ts j) shape)
  | unexpected {j : Nat} {shape : BracketShape} (hj : (kindAt ts j).closes? = some shape) :
      Sound ts (.unexpected j (tokenAt ts j) shape)
  | unclosed {o : Opener} (ho : o.Of ts) : Sound ts (.unclosed o)

/-- The verdicts on closers come first, and then the openers that are left, in the order of the
tokens. -/
def UnclosedLast (vs : List Verdict) : Prop :=
  ∃ (front : List Verdict) (os : List Opener), vs = front ++ os.map .unclosed ∧
    (∀ v ∈ front, v.closer?.isSome = true) ∧ os.Pairwise fun a b => a.index < b.index

theorem UnclosedLast.cons {v : Verdict} {vs : List Verdict} (h : UnclosedLast vs)
    (hv : v.closer?.isSome = true) : UnclosedLast (v :: vs) := by
  obtain ⟨front, os, rfl, hfront, hos⟩ := h
  exact ⟨v :: front, os, rfl, List.forall_mem_cons.mpr ⟨hv, hfront⟩, hos⟩

/-- The brackets that wait are openers of the tokens before `i`, the later ones first. -/
structure Waiting (ts : List Token) (i : Nat) (waiting : List Opener) : Prop where
  of_tokens : ∀ o ∈ waiting, o.Of ts ∧ o.index < i
  ordered : waiting.Pairwise fun a b => b.index < a.index

namespace Waiting

variable {ts : List Token} {i : Nat} {o : Opener} {waiting : List Opener}

theorem nil (ts : List Token) (i : Nat) : Waiting ts i [] :=
  ⟨List.forall_mem_nil _, .nil⟩

theorem succ (h : Waiting ts i waiting) : Waiting ts (i + 1) waiting :=
  ⟨fun o ho => (h.of_tokens o ho).imp_right Nat.lt_succ_of_lt, h.ordered⟩

theorem tail (h : Waiting ts i (o :: waiting)) : Waiting ts i waiting :=
  ⟨fun p hp => h.of_tokens p (List.mem_cons_of_mem _ hp), (List.pairwise_cons.mp h.ordered).2⟩

theorem push (h : Waiting ts i waiting) {shape : BracketShape}
    (hi : (kindAt ts i).opens? = some shape) :
    Waiting ts (i + 1) (⟨i, tokenAt ts i, shape⟩ :: waiting) := by
  refine ⟨fun o ho => ?_, ?_⟩
  · rcases List.mem_cons.mp ho with rfl | ho
    · exact ⟨⟨rfl, hi⟩, Nat.lt_succ_self i⟩
    · exact h.succ.of_tokens o ho
  · exact List.pairwise_cons.mpr ⟨fun o ho => (h.of_tokens o ho).2, h.ordered⟩

end Waiting

namespace Run

variable {ts : List Token} {waiting : List Opener} {i : Nat} {rest : List Token}
  {vs : List Verdict}

/-- **Every verdict of a run is sound.** -/
theorem sound (h : Run waiting i rest vs) (hrest : ts.drop i = rest) (hw : Waiting ts i waiting) :
    ∀ v ∈ vs, v.Sound ts := by
  induction h with
  | done =>
    intro v hv
    obtain ⟨o, ho, rfl⟩ := List.mem_map.mp hv
    exact .unclosed (hw.of_tokens o (List.mem_reverse.mp ho)).1
  | opens ht _ ih =>
    obtain ⟨rfl, hdrop⟩ := tokenAt_of_drop hrest
    exact ih hdrop (hw.push ht)
  | other _ _ _ ih => exact ih (tokenAt_of_drop hrest).2 hw.succ
  | unexpected ht _ ih =>
    obtain ⟨rfl, hdrop⟩ := tokenAt_of_drop hrest
    exact List.forall_mem_cons.mpr ⟨.unexpected ht, ih hdrop (.nil ts _)⟩
  | @matched o waiting i t rest vs ht _ ih =>
    obtain ⟨rfl, hdrop⟩ := tokenAt_of_drop hrest
    obtain ⟨ho, hlt⟩ := hw.of_tokens o List.mem_cons_self
    exact List.forall_mem_cons.mpr ⟨.matched ho hlt ht, ih hdrop hw.tail.succ⟩
  | @mismatched o waiting i t rest vs shape ht hne _ ih =>
    obtain ⟨rfl, hdrop⟩ := tokenAt_of_drop hrest
    obtain ⟨ho, hlt⟩ := hw.of_tokens o List.mem_cons_self
    exact List.forall_mem_cons.mpr ⟨.mismatched ho hlt ht hne, ih hdrop hw.tail.succ⟩

/-- **Brackets left open come last**, in the order of the tokens. -/
theorem unclosedLast (h : Run waiting i rest vs) (hrest : ts.drop i = rest)
    (hw : Waiting ts i waiting) : UnclosedLast vs := by
  induction h with
  | done => exact ⟨[], _, rfl, List.forall_mem_nil _, List.pairwise_reverse.mpr hw.ordered⟩
  | opens ht _ ih =>
    obtain ⟨rfl, hdrop⟩ := tokenAt_of_drop hrest
    exact ih hdrop (hw.push ht)
  | other _ _ _ ih => exact ih (tokenAt_of_drop hrest).2 hw.succ
  | unexpected _ _ ih => exact (ih (tokenAt_of_drop hrest).2 (.nil ts _)).cons rfl
  | matched _ _ ih | mismatched _ _ _ ih =>
    exact (ih (tokenAt_of_drop hrest).2 hw.tail.succ).cons rfl

end Run

/-! ## The verdict on a bracket -/

section Tokens

variable {ts : List Token} {k : Nat} {shape : BracketShape}

theorem lt_length_of_kindAt (h : kindAt ts k ≠ .eof) : k < ts.length :=
  Nat.lt_of_not_le fun hge => h (kindAt_of_length_le hge)

theorem lt_length_of_opens (h : (kindAt ts k).opens? = some shape) : k < ts.length := by
  refine lt_length_of_kindAt fun heof => ?_
  rw [heof] at h
  cases h

theorem lt_length_of_closes (h : (kindAt ts k).closes? = some shape) : k < ts.length := by
  refine lt_length_of_kindAt fun heof => ?_
  rw [heof] at h
  cases h

namespace Verdict.Sound

variable {v : Verdict}

theorem opens_of_opener? (hv : v.Sound ts) (hk : v.opener? = some k) :
    ∃ shape, (kindAt ts k).opens? = some shape := by
  cases hv with
  | matched ho _ _ | mismatched ho _ _ _ | unclosed ho =>
    obtain rfl := Option.some.inj hk
    exact ⟨_, ho.2⟩
  | unexpected => cases hk

theorem closes_of_closer? (hv : v.Sound ts) (hk : v.closer? = some k) :
    ∃ shape, (kindAt ts k).closes? = some shape := by
  cases hv with
  | matched _ _ hj | mismatched _ _ hj _ | unexpected hj =>
    obtain rfl := Option.some.inj hk
    exact ⟨_, hj⟩
  | unclosed => cases hk

theorem lt_length (hv : v.Sound ts) (hk : k ∈ v.places) : k < ts.length := by
  rcases List.mem_append.mp hk with hcloser | hopener
  · obtain ⟨shape, hshape⟩ := hv.closes_of_closer? (Option.mem_toList.mp hcloser)
    exact lt_length_of_closes hshape
  · obtain ⟨shape, hshape⟩ := hv.opens_of_opener? (Option.mem_toList.mp hopener)
    exact lt_length_of_opens hshape

end Verdict.Sound

theorem sound_verdicts {v : Verdict} (hv : v ∈ verdicts ts) : v.Sound ts :=
  (run_verdicts ts).sound List.drop_zero (.nil ts 0) v hv

/-- What comes up once is found once. -/
theorem exists_filter_eq_singleton {α β : Type} [DecidableEq β] {f : α → Option β} {xs : List α}
    {b : β} (hnodup : (xs.filterMap f).Nodup) (hb : b ∈ xs.filterMap f) :
    ∃ a, xs.filter (f · == some b) = [a] := by
  have hcount := List.count_eq_one_of_mem hnodup hb
  rw [List.count_filterMap, List.countP_eq_length_filter] at hcount
  exact List.length_eq_one_iff.mp hcount

theorem mem_findIdxs_of_kindAt {p : Kind → Bool} (hk : p (kindAt ts k) = true)
    (heof : p .eof = false) : k ∈ ts.findIdxs (fun t => p t.kind) := by
  have hlt : k < ts.length := by
    refine lt_length_of_kindAt fun h => ?_
    rw [h, heof] at hk
    cases hk
  rw [kindAt, tokenAt_eq_getElem hlt] at hk
  exact List.mem_findIdxs_iff_exists_getElem_pos.mpr ⟨hlt, hk⟩

theorem exists_verdict_of_closes (hk : (kindAt ts k).closes? = some shape) :
    ∃ v, (verdicts ts).filter (·.closer? == some k) = [v] := by
  have hclosers := (run_verdicts ts).closers_eq
  refine exists_filter_eq_singleton ?_ ?_
  · rw [hclosers]
    exact List.nodup_findIdxs
  · rw [hclosers]
    exact @mem_findIdxs_of_kindAt ts k (·.closes?.isSome) (by simp [hk]) rfl

theorem exists_verdict_of_opens (hk : (kindAt ts k).opens? = some shape) :
    ∃ v, (verdicts ts).filter (·.opener? == some k) = [v] := by
  have hopeners := (run_verdicts ts).openers_perm
  rw [List.map_nil, List.nil_append] at hopeners
  refine exists_filter_eq_singleton ?_ ?_
  · exact hopeners.nodup_iff.mpr List.nodup_findIdxs
  · exact hopeners.mem_iff.mpr
      (@mem_findIdxs_of_kindAt ts k (·.opens?.isSome) (by simp [hk]) rfl)

end Tokens

end AuroraLint.Brackets
