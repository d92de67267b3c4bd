/-!
# Pieces taken from left to right

A walk over places that takes the piece at a place, if there is one, and goes on behind it.

* `taken`, `takenAt` : a piece starts at a place that no piece taken before it reaches over.
* `TakenOver`        : a piece taken before one place reaches to another.
* `takeFrom`         : the walk, where the last place of the piece before is all that it remembers.

Main statement: `takeFrom_eq` — the walk finds exactly the pieces that are taken, in order.
-/

set_option autoImplicit false

namespace AuroraLint

variable {α : Type}

/-- The piece that starts at place `i` is taken: there is one, and every taken piece that starts
before it also ends before it. A piece comes with its last place. -/
def taken (piece : Nat → Option (α × Nat)) (i : Nat) : Bool :=
  (piece i).isSome &&
    (List.range i).attach.all fun ⟨j, _⟩ =>
      !taken piece j || (piece j).all fun (_, last) => last < i
termination_by i
decreasing_by exact List.mem_range.mp ‹_›

/-- The piece that is taken at a place. -/
def takenAt (piece : Nat → Option (α × Nat)) (i : Nat) : Option α :=
  if taken piece i then (piece i).map (·.1) else none

/-- Some taken piece that starts before place `i` reaches to place `k` or beyond. -/
def TakenOver (piece : Nat → Option (α × Nat)) (i k : Nat) : Prop :=
  ∃ j < i, taken piece j = true ∧ ∃ a last, piece j = some (a, last) ∧ k ≤ last

/-- The pieces that the walk finds at the `n` places from `i` on, where the piece found last ends
before place `resume`. -/
def takeFrom (piece : Nat → Option (α × Nat)) (resume i : Nat) : Nat → List α
  | 0 => []
  | n + 1 =>
    if i < resume then takeFrom piece resume (i + 1) n
    else
      match piece i with
      | some (a, last) => a :: takeFrom piece (last + 1) (i + 1) n
      | none => takeFrom piece resume (i + 1) n

section Taken

variable {piece : Nat → Option (α × Nat)} {i : Nat}

theorem taken_iff :
    taken piece i = true ↔ (piece i).isSome = true ∧ ¬ TakenOver piece i i := by
  rw [taken, Bool.and_eq_true, List.all_eq_true]
  refine and_congr_right fun _ => ⟨fun h => ?_, fun h => ?_⟩
  · rintro ⟨j, hj, htaken, a, last, hat, hle⟩
    have := h ⟨j, List.mem_range.mpr hj⟩ (List.mem_attach ..)
    simp only [htaken, hat, Bool.not_true, Bool.false_or, Option.all_some,
      decide_eq_true_eq] at this
    omega
  · rintro ⟨j, hj⟩ _
    show (!taken piece j || (piece j).all fun p => decide (p.2 < i)) = true
    cases htaken : taken piece j with
    | false => rfl
    | true =>
      cases hat : piece j with
      | none => rfl
      | some p =>
        have hlt : ¬ i ≤ p.2 := fun hle =>
          h ⟨j, List.mem_range.mp hj, htaken, p.1, p.2, hat, hle⟩
        simpa using hlt

theorem takenAt_eq_some_iff {a : α} :
    takenAt piece i = some a ↔ taken piece i = true ∧ ∃ last, piece i = some (a, last) := by
  unfold takenAt
  cases htaken : taken piece i with
  | false => simp
  | true =>
    rw [if_pos rfl, Option.map_eq_some_iff]
    constructor
    · rintro ⟨⟨_, last⟩, hat, rfl⟩
      exact ⟨rfl, last, hat⟩
    · rintro ⟨_, last, hat⟩
      exact ⟨(a, last), hat, rfl⟩

theorem takenOver_succ_of_not (h : taken piece i = false) (k : Nat) :
    TakenOver piece (i + 1) k ↔ TakenOver piece i k := by
  constructor
  · rintro ⟨j, hj, htaken, hlast⟩
    have hne : j ≠ i := by
      rintro rfl
      rw [h] at htaken
      cases htaken
    exact ⟨j, by omega, htaken, hlast⟩
  · rintro ⟨j, hj, hrest⟩
    exact ⟨j, by omega, hrest⟩

/-- Of the pieces up to a taken one, only that one can reach beyond it. -/
theorem takenOver_succ_of_taken {a : α} {last k : Nat} (h : taken piece i = true)
    (hat : piece i = some (a, last)) (hk : i < k) :
    TakenOver piece (i + 1) k ↔ k ≤ last := by
  constructor
  · rintro ⟨j, hj, htaken, a', last', hat', hle⟩
    by_cases hji : j = i
    · subst hji
      obtain ⟨rfl, rfl⟩ := Prod.mk.inj (Option.some.inj (hat.symm.trans hat'))
      exact hle
    · exact absurd ⟨j, by omega, htaken, a', last', hat', by omega⟩ (taken_iff.mp h).2
  · intro hle
    exact ⟨i, Nat.lt_succ_self i, h, a, last, hat, hle⟩

/-- The walk takes a piece and goes on over its places. -/
theorem takeFrom_of_some {resume n : Nat} {a : α} {last : Nat} (hresume : ¬ i < resume)
    (hat : piece i = some (a, last)) (hle : i ≤ last) :
    takeFrom piece resume i (n + 1) = a :: takeFrom piece (last + 1) i (n + 1) := by
  rw [takeFrom, if_neg hresume, hat, takeFrom, if_pos (Nat.lt_succ_of_le hle)]

/-- **The walk finds the pieces that are taken**, if `resume` is the first place that no piece taken
so far reaches over. -/
theorem takeFrom_eq {resume n : Nat} (hresume : ∀ k, i ≤ k → (k < resume ↔ TakenOver piece i k)) :
    takeFrom piece resume i n = (List.range' i n).filterMap (takenAt piece) := by
  induction n generalizing resume i with
  | zero => rfl
  | succ n ih =>
    rw [takeFrom, List.range'_succ, List.filterMap_cons, takenAt]
    have hi := hresume i (Nat.le_refl i)
    by_cases hlt : i < resume
    · -- the place lies inside a piece
      have htaken : taken piece i = false := by
        rw [Bool.eq_false_iff, Ne, taken_iff]
        exact fun h => h.2 (hi.mp hlt)
      simp only [hlt, if_true, htaken, Bool.false_eq_true, if_false]
      refine ih fun k hk => ?_
      rw [takenOver_succ_of_not htaken]
      exact hresume k (by omega)
    · have hnot : ¬ TakenOver piece i i := fun h => hlt (hi.mpr h)
      simp only [hlt, if_false]
      cases hat : piece i with
      | none =>
        have htaken : taken piece i = false := by
          simp [Bool.eq_false_iff, taken_iff, hat]
        simp only [htaken, Bool.false_eq_true, if_false]
        refine ih fun k hk => ?_
        rw [takenOver_succ_of_not htaken]
        exact hresume k (by omega)
      | some p =>
        obtain ⟨a, last⟩ := p
        have htaken : taken piece i = true := taken_iff.mpr ⟨by rw [hat]; rfl, hnot⟩
        simp only [htaken, if_true, Option.map_some]
        refine congrArg (a :: ·) (ih fun k hk => ?_)
        rw [takenOver_succ_of_taken htaken hat (by omega)]
        omega

end Taken

end AuroraLint
