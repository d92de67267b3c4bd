import AuroraLint.Token

/-!
# Nested blocks

* `Block`        : the global level, or what a `{` opens.
* `Block.OpenAt` : a block that is open in front of a token, told by counting braces.
* `Innermost`    : the block around a token that no other block around it lies in.
* `openBlocks`   : the open blocks as a stack that follows the braces.

Main statements: `mem_openBlocks_iff` — the stack holds the open blocks — and `innermost_of_cons` —
its first is the innermost.
-/

set_option autoImplicit false

namespace AuroraLint

/-- A stretch of a document in which names live. -/
inductive Block where
  | global
  /-- From the `{` at token `opener` to its partner. -/
  | braces (opener : Nat)
  deriving DecidableEq, Repr

namespace Block

/-- Of two blocks around one token, the one that starts first lies around the other. -/
protected def le : Block → Block → Prop
  | .global, _ => True
  | .braces _, .global => False
  | .braces a, .braces b => a ≤ b

instance : LE Block := ⟨Block.le⟩

theorem global_le (b : Block) : Block.global ≤ b := trivial

theorem le_refl (b : Block) : b ≤ b := by
  cases b with
  | global => exact trivial
  | braces a => exact Nat.le_refl a

theorem le_antisymm {a b : Block} (hab : a ≤ b) (hba : b ≤ a) : a = b := by
  cases a with
  | global =>
    cases b with
    | global => rfl
    | braces b => exact hba.elim
  | braces a =>
    cases b with
    | global => exact hab.elim
    | braces b => rw [Nat.le_antisymm hab hba]

end Block

/-- The number of tokens of a kind behind token `b` and before token `i`. -/
def countBetween (ts : List Token) (kind : Kind) (b i : Nat) : Nat :=
  (List.range i).countP fun n => decide (b < n) && kindAt ts n == kind

theorem countBetween_succ (ts : List Token) (kind : Kind) (b i : Nat) :
    countBetween ts kind b (i + 1) =
      countBetween ts kind b i + if b < i ∧ kindAt ts i = kind then 1 else 0 := by
  simp only [countBetween, List.range_succ, List.countP_append, List.countP_singleton,
    Bool.and_eq_true, decide_eq_true_eq, beq_iff_eq]

theorem countBetween_succ_of_eq {ts : List Token} {kind : Kind} {b i : Nat} (hbi : b < i)
    (hk : kindAt ts i = kind) :
    countBetween ts kind b (i + 1) = countBetween ts kind b i + 1 := by
  rw [countBetween_succ, if_pos ⟨hbi, hk⟩]

theorem countBetween_succ_of_ne {ts : List Token} {kind : Kind} {i : Nat}
    (hk : kindAt ts i ≠ kind) (b : Nat) :
    countBetween ts kind b (i + 1) = countBetween ts kind b i := by
  rw [countBetween_succ, if_neg fun h => hk h.2, Nat.add_zero]

theorem countBetween_of_le (ts : List Token) (kind : Kind) {b i : Nat} (h : i ≤ b + 1) :
    countBetween ts kind b i = 0 := by
  refine List.countP_eq_zero.mpr fun n hn => ?_
  have := List.mem_range.mp hn
  simp
  omega

/-- The block is open in front of token `i`: up to there, no more braces have been closed behind
its own than opened. -/
def Block.OpenAt (ts : List Token) (i : Nat) : Block → Prop
  | .global => True
  | .braces b => b < i ∧ kindAt ts b = .leftBrace ∧
      ∀ j ≤ i, countBetween ts .rightBrace b j ≤ countBetween ts .leftBrace b j

/-- The innermost of the blocks around token `i`. -/
def Innermost (ts : List Token) (i : Nat) (block : Block) : Prop :=
  block.OpenAt ts i ∧ ∀ other : Block, other.OpenAt ts i → other ≤ block

theorem Innermost.unique {ts : List Token} {i : Nat} {a b : Block} (ha : Innermost ts i a)
    (hb : Innermost ts i b) : a = b :=
  Block.le_antisymm (hb.2 a ha.1) (ha.2 b hb.1)

/-! ## Open braces as a stack -/

/-- The braces that are open in front of a token, the innermost first. -/
def openBraces (ts : List Token) : Nat → List Nat
  | 0 => []
  | i + 1 =>
    match kindAt ts i with
    | .leftBrace => i :: openBraces ts i
    | .rightBrace => (openBraces ts i).tail
    | _ => openBraces ts i

section OpenBraces

variable {ts : List Token} {i b : Nat}

theorem openBraces_of_leftBrace (h : kindAt ts i = .leftBrace) :
    openBraces ts (i + 1) = i :: openBraces ts i := by
  simp only [openBraces, h]

theorem openBraces_of_rightBrace (h : kindAt ts i = .rightBrace) :
    openBraces ts (i + 1) = (openBraces ts i).tail := by
  simp only [openBraces, h]

theorem openBraces_of_ne (hl : kindAt ts i ≠ .leftBrace) (hr : kindAt ts i ≠ .rightBrace) :
    openBraces ts (i + 1) = openBraces ts i := by
  rw [openBraces]
  split
  · exact absurd ‹_› hl
  · exact absurd ‹_› hr
  · rfl

theorem Block.openAt_succ_iff : (Block.braces b).OpenAt ts (i + 1) ↔
    b = i ∧ kindAt ts i = .leftBrace ∨ (Block.braces b).OpenAt ts i ∧
      countBetween ts .rightBrace b (i + 1) ≤ countBetween ts .leftBrace b (i + 1) := by
  constructor
  · rintro ⟨hlt, hopen, hcount⟩
    rcases Nat.lt_succ_iff_lt_or_eq.mp hlt with hlt | rfl
    · exact .inr ⟨⟨hlt, hopen, fun j hj => hcount j (by omega)⟩, hcount (i + 1) (Nat.le_refl _)⟩
    · exact .inl ⟨rfl, hopen⟩
  · rintro (⟨rfl, hopen⟩ | ⟨⟨hlt, hopen, hcount⟩, hlast⟩)
    · refine ⟨Nat.lt_succ_self b, hopen, fun j hj => ?_⟩
      rw [countBetween_of_le ts .rightBrace hj]
      exact Nat.zero_le _
    · refine ⟨Nat.lt_succ_of_lt hlt, hopen, fun j hj => ?_⟩
      rcases Nat.lt_succ_iff_lt_or_eq.mp (Nat.lt_succ_of_le hj) with hj | rfl
      · exact hcount j (by omega)
      · exact hlast

/-- A brace stands in the stack below as many others as were opened behind it and are still
open. -/
theorem getElem?_openBraces_iff {n : Nat} : (openBraces ts i)[n]? = some b ↔
    (Block.braces b).OpenAt ts i ∧
      countBetween ts .leftBrace b i = countBetween ts .rightBrace b i + n := by
  induction i generalizing n with
  | zero => simp [openBraces, Block.OpenAt]
  | succ i ih =>
    have hl := countBetween_succ ts .leftBrace b i
    have hr := countBetween_succ ts .rightBrace b i
    rw [Block.openAt_succ_iff]
    by_cases hleft : kindAt ts i = .leftBrace
    · have hnew := countBetween_of_le ts .leftBrace (Nat.le_refl (i + 1))
      have hnew' := countBetween_of_le ts .rightBrace (Nat.le_refl (i + 1))
      rw [openBraces_of_leftBrace hleft]
      cases n with
      | zero =>
        simp only [List.getElem?_cons_zero, Option.some.injEq, hleft, and_true]
        constructor
        · rintro rfl
          exact ⟨.inl rfl, by omega⟩
        · rintro ⟨rfl | ⟨hopen, hle⟩, heq⟩
          · rfl
          · have := hopen.2.2 i (Nat.le_refl i)
            simp only [hleft, hopen.1, and_self, if_true, reduceCtorEq, and_false, if_false] at hl hr
            omega
      | succ n =>
        rw [List.getElem?_cons_succ, ih]
        constructor
        · rintro ⟨hopen, heq⟩
          simp only [hleft, hopen.1, and_self, if_true, reduceCtorEq, and_false, if_false] at hl hr
          exact ⟨.inr ⟨hopen, by omega⟩, by omega⟩
        · rintro ⟨⟨rfl, -⟩ | ⟨hopen, hle⟩, heq⟩
          · omega
          · simp only [hleft, hopen.1, and_self, if_true, reduceCtorEq, and_false, if_false] at hl hr
            exact ⟨hopen, by omega⟩
    · simp only [hleft, and_false, false_or, if_false, Nat.add_zero] at hl ⊢
      by_cases hright : kindAt ts i = .rightBrace
      · rw [openBraces_of_rightBrace hright, List.getElem?_tail, ih]
        constructor
        · rintro ⟨hopen, heq⟩
          rw [if_pos ⟨hopen.1, hright⟩] at hr
          exact ⟨⟨hopen, by omega⟩, by omega⟩
        · rintro ⟨⟨hopen, hle⟩, heq⟩
          rw [if_pos ⟨hopen.1, hright⟩] at hr
          exact ⟨hopen, by omega⟩
      · simp only [hright, and_false, if_false, Nat.add_zero] at hr
        rw [openBraces_of_ne hleft hright, ih, hl, hr]
        constructor
        · rintro ⟨hopen, heq⟩
          exact ⟨⟨hopen, hopen.2.2 i (Nat.le_refl i)⟩, heq⟩
        · rintro ⟨⟨hopen, _⟩, heq⟩
          exact ⟨hopen, heq⟩

theorem mem_openBraces_iff : b ∈ openBraces ts i ↔ (Block.braces b).OpenAt ts i := by
  rw [List.mem_iff_getElem?]
  constructor
  · rintro ⟨n, hn⟩
    exact (getElem?_openBraces_iff.mp hn).1
  · intro hopen
    have := hopen.2.2 i (Nat.le_refl i)
    exact ⟨countBetween ts .leftBrace b i - countBetween ts .rightBrace b i,
      getElem?_openBraces_iff.mpr ⟨hopen, by omega⟩⟩

/-- Further down in the stack stand braces that were opened before. -/
theorem openBraces_pairwise (ts : List Token) (i : Nat) :
    (openBraces ts i).Pairwise fun inner outer => outer < inner := by
  induction i with
  | zero => exact .nil
  | succ i ih =>
    rw [openBraces]
    split
    · exact .cons (fun b hb => (mem_openBraces_iff.mp hb).1) ih
    · exact ih.tail
    · exact ih

end OpenBraces

/-- The open blocks in front of a token, the innermost first. -/
def openBlocks (ts : List Token) (i : Nat) : List Block :=
  (openBraces ts i).map .braces ++ [.global]

section OpenBlocks

variable {ts : List Token} {i : Nat} {block : Block}

theorem mem_openBlocks_iff : block ∈ openBlocks ts i ↔ block.OpenAt ts i := by
  cases block with
  | global => simp [openBlocks, Block.OpenAt]
  | braces b => simp [openBlocks, mem_openBraces_iff]

/-- Further down in the stack stand outer blocks. -/
theorem openBlocks_pairwise (ts : List Token) (i : Nat) :
    (openBlocks ts i).Pairwise fun inner outer => ¬ inner ≤ outer := by
  refine List.pairwise_append.mpr ⟨?_, List.pairwise_singleton .., ?_⟩
  · refine List.pairwise_map.mpr ((openBraces_pairwise ts i).imp fun hlt hle => ?_)
    exact Nat.not_le_of_lt hlt hle
  · intro inner hinner outer houter hle
    obtain ⟨b, _, rfl⟩ := List.mem_map.mp hinner
    rw [List.mem_singleton.mp houter] at hle
    exact hle

theorem Block.le_of_not_le {a b : Block} (h : ¬ a ≤ b) : b ≤ a := by
  cases b with
  | global => exact global_le a
  | braces b =>
    cases a with
    | global => exact absurd (global_le _) h
    | braces a => exact Nat.le_of_not_le h

theorem innermost_of_cons {rest : List Block} (h : openBlocks ts i = block :: rest) :
    Innermost ts i block := by
  refine ⟨mem_openBlocks_iff.mp (h ▸ List.mem_cons_self), fun other hother => ?_⟩
  have hmem := mem_openBlocks_iff.mpr hother
  have hpair := openBlocks_pairwise ts i
  rw [h] at hmem hpair
  rcases List.mem_cons.mp hmem with rfl | hmem
  · exact Block.le_refl _
  · exact Block.le_of_not_le (List.rel_of_pairwise_cons hpair hmem)

end OpenBlocks

end AuroraLint
