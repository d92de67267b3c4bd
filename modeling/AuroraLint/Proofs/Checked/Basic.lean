import AuroraLint.Proofs.Counters
import AuroraLint.Proofs.Extent

/-!
# Operations that can fail

The library looks up a token past the end, takes a larger number off a smaller one and cuts a text
anywhere, with a default for an answer, and counts without a bound. Here the same operations fail
instead, so that a computation which succeeds has never needed a default or more than a word.

* `Fault`, `Checked` : the ways to fail, and a computation that may.
* `word`, `lowWord` : numbers in words of 32 bits, checked or cut down.
* `item`, `sub`, `range`, `clamp`, `cut` : indexing, subtraction, ranges and cuts of a text.
* `filterMap`, `flatMap` : going through a list.
* `callClose`, `splitArguments`, `expressionEnd` : extents with every operation checked.

Main statements: `callClose_eq_ok`, `splitArguments_eq_ok` and `expressionEnd_eq_ok` — searching from
an opener, between two indices and for the end of an expression never fails.
-/

set_option autoImplicit false

namespace AuroraLint

/-- What makes an operation fail. -/
inductive Fault where
  /-- A counter of 32 bits that goes beyond its last value. -/
  | overflow
  /-- An index past the end of a list. -/
  | index
  /-- A difference below zero. -/
  | underflow
  /-- A range that is out of order, or reaches past the end of its list. -/
  | range
  /-- A cut of a text that is out of order, inside a character or past the end. -/
  | cut
  /-- A name that a scope does not have. -/
  | name
  /-- A list of tokens without the end of the document. -/
  | unended
  deriving DecidableEq, Repr

/-- A computation that may fail. -/
abbrev Checked (α : Type) : Type := Except Fault α

namespace Checked

variable {α β : Type}

theorem ok_bind (a : α) (f : α → Checked β) : ((Except.ok a : Checked α) >>= f) = f a := rfl

/-- What succeeds in two steps succeeds in each of them. -/
theorem exists_of_bind_eq_ok {x : Checked α} {f : α → Checked β} {b : β}
    (h : (x >>= f) = .ok b) : ∃ a, x = .ok a ∧ f a = .ok b := by
  cases x with
  | error fault => cases h
  | ok a => exact ⟨a, rfl, h⟩

theorem pure_eq_ok (a : α) : (pure a : Checked α) = .ok a := rfl

/-! ## The operations -/

/-- An optional value; its absence is a fault. -/
def orFault (fault : Fault) : Option α → Checked α
  | some a => .ok a
  | none => .error fault

/-- A counter at its new value, which has to be a word. -/
def word (n : Nat) : Checked Nat :=
  if n < wordSize then .ok n else .error .overflow

/-- What a word holds of a number that is put into it unchecked. -/
def lowWord (n : Nat) : Nat :=
  n % wordSize

/-- The element at an index. -/
def item (xs : List α) (i : Nat) : Checked α :=
  orFault .index xs[i]?

/-- The difference of two numbers. -/
def sub (a b : Nat) : Checked Nat :=
  if b ≤ a then .ok (a - b) else .error .underflow

/-- The elements from index `start` up to, not including, `stop`. -/
def range (xs : List α) (start stop : Nat) : Checked (List α) :=
  if start ≤ stop ∧ stop ≤ xs.length then .ok ((xs.drop start).take (stop - start))
  else .error .range

/-- The number nearest to `a` from `lo` to `hi`. -/
def clamp (a lo hi : Nat) : Checked Nat :=
  if lo ≤ hi then .ok (min (max a lo) hi) else .error .range

/-- The characters between two byte offsets. -/
def cut (start stop : Nat) (text : List Char) : Checked (List Char) :=
  orFault .cut (Text.slice? start stop text)

theorem word_eq_ok {n : Nat} (h : n < wordSize) : word n = .ok n := if_pos h

theorem eq_of_word_eq_ok {n m : Nat} (h : word n = .ok m) : m = n := by
  unfold word at h
  split at h
  · exact (Except.ok.inj h).symm
  · cases h

theorem word_eq_error {n : Nat} (h : ¬ n < wordSize) : word n = .error .overflow := if_neg h

theorem lowWord_eq {n : Nat} (h : n < wordSize) : lowWord n = n := Nat.mod_eq_of_lt h

theorem item_eq_ok {xs : List α} {i : Nat} {a : α} (h : xs[i]? = some a) : item xs i = .ok a := by
  rw [item, h]
  rfl

theorem token_eq_ok {ts : List Token} {i : Nat} (h : i < ts.length) :
    item ts i = .ok (tokenAt ts i) :=
  item_eq_ok (getElem?_eq_tokenAt h)

theorem sub_eq_ok {a b : Nat} (h : b ≤ a) : sub a b = .ok (a - b) := if_pos h

theorem clamp_eq_ok {a lo hi : Nat} (h : lo ≤ hi) : clamp a lo hi = .ok (min (max a lo) hi) :=
  if_pos h

theorem extent_eq_ok {ts : List Token} {e : Extent} (h : e.start ≤ e.stop)
    (hstop : e.stop ≤ ts.length) : range ts e.start e.stop = .ok (e.tokens ts) :=
  if_pos ⟨h, hstop⟩

theorem cut_eq_ok {start stop : Nat} {text cs : List Char}
    (h : Text.slice? start stop text = some cs) : cut start stop text = .ok cs := by
  rw [cut, h]
  rfl

/-! ## Going through a list -/

/-- What a function makes of the elements of a list, where it makes something. -/
def filterMap (f : α → Checked (Option β)) : List α → Checked (List β)
  | [] => pure []
  | x :: xs => do
    let y ← f x
    let ys ← filterMap f xs
    return y.toList ++ ys

/-- All that a function makes of the elements of a list. -/
def flatMap (f : α → Checked (List β)) : List α → Checked (List β)
  | [] => pure []
  | x :: xs => do
    let y ← f x
    let ys ← flatMap f xs
    return y ++ ys

theorem filterMap_eq_ok {f : α → Checked (Option β)} {g : α → Option β} {xs : List α}
    (h : ∀ x ∈ xs, f x = .ok (g x)) : filterMap f xs = .ok (xs.filterMap g) := by
  induction xs with
  | nil => rfl
  | cons x xs ih =>
    rw [filterMap, h x (List.mem_cons_self ..), ok_bind,
      ih fun y hy => h y (List.mem_cons_of_mem _ hy), ok_bind, List.filterMap_cons, pure_eq_ok]
    cases g x <;> rfl

theorem flatMap_eq_ok {f : α → Checked (List β)} {g : α → List β} {xs : List α}
    (h : ∀ x ∈ xs, f x = .ok (g x)) : flatMap f xs = .ok (xs.flatMap g) := by
  induction xs with
  | nil => rfl
  | cons x xs ih =>
    rw [flatMap, h x (List.mem_cons_self ..), ok_bind,
      ih fun y hy => h y (List.mem_cons_of_mem _ hy), ok_bind, List.flatMap_cons]
    rfl

/-! ## Argument lists -/

/-- As `AuroraLint.closeFrom`, with the depth checked. -/
def closeFrom (depth i : Nat) : List Token → Checked (Option Nat)
  | [] => pure none
  | t :: ts =>
    if t.kind.opensList then closeFrom (depth + 1) (i + 1) ts
    else if t.kind.closesList then do
      let outer ← sub depth 1
      if outer = 0 then pure (if t.kind = .rightParen then some i else none)
      else closeFrom outer (i + 1) ts
    else if t.kind.breaksList then pure none
    else closeFrom depth (i + 1) ts

/-- As `AuroraLint.callClose`, with the depth checked. -/
def callClose (ts : List Token) (opener : Nat) : Checked (Option Nat) :=
  closeFrom 0 opener (ts.drop opener)

/-- Inside an open list the depth never falls below zero. -/
theorem closeFrom_eq_ok {depth : Nat} (i : Nat) (ts : List Token) (h : 0 < depth) :
    closeFrom depth i ts = .ok (AuroraLint.closeFrom depth i ts) := by
  induction ts generalizing depth i with
  | nil => rfl
  | cons t ts ih =>
    simp only [closeFrom, AuroraLint.closeFrom]
    split
    · exact ih (i + 1) (Nat.succ_pos depth)
    · split
      · rw [sub_eq_ok h, ok_bind]
        by_cases hone : depth ≤ 1
        · rw [if_pos (by omega), if_pos hone, pure_eq_ok]
        · rw [if_neg (by omega), if_neg hone]
          exact ih (i + 1) (by omega)
      · split
        · rfl
        · exact ih (i + 1) h

/-- The search for the end of a list starts at its opener, so the depth is never zero. -/
theorem callClose_eq_ok {ts : List Token} {opener : Nat} (h : kindAt ts opener = .leftParen) :
    callClose ts opener = .ok (AuroraLint.callClose ts opener) := by
  have hlt : opener < ts.length := by
    apply Classical.byContradiction
    intro hge
    rw [kindAt_of_length_le (by omega)] at h
    cases h
  have hopens : (tokenAt ts opener).kind.opensList = true := by
    rw [show (tokenAt ts opener).kind = .leftParen from h]
    rfl
  rw [callClose, AuroraLint.callClose, drop_eq_tokenAt_cons hlt]
  simp only [closeFrom, AuroraLint.closeFrom, hopens, if_true]
  exact closeFrom_eq_ok _ _ Nat.one_pos

/-- From a closer on there would be nothing to close. -/
example : callClose [⟨.rightParen, ")", .nowhere⟩] 0 = .error .underflow := rfl

/-- As `AuroraLint.splitFrom`, for `n` tokens from index `i` on, with every index checked. -/
def splitFrom (ts : List Token) (depth start i : Nat) : Nat → Checked (List Extent)
  | 0 => pure (segment start i)
  | n + 1 => do
    let t ← item ts i
    if t.kind.opensList then splitFrom ts (depth + 1) start (i + 1) n
    else if t.kind.closesList then splitFrom ts (depth - 1) start (i + 1) n
    else if t.kind = .comma ∧ depth = 0 then do
      let others ← splitFrom ts depth (i + 1) (i + 1) n
      return segment start i ++ others
    else splitFrom ts depth start (i + 1) n

/-- As `AuroraLint.splitArguments`, with every index checked. -/
def splitArguments (ts : List Token) (opener closer : Nat) : Checked (List Extent) :=
  splitFrom ts 0 (opener + 1) (opener + 1) (closer - (opener + 1))

theorem splitFrom_eq_ok {ts : List Token} (depth start : Nat) {i n : Nat} (h : i + n ≤ ts.length) :
    splitFrom ts depth start i n =
      .ok (AuroraLint.splitFrom depth start i ((ts.drop i).take n)) := by
  induction n generalizing depth start i with
  | zero => rfl
  | succ n ih =>
    rw [drop_eq_tokenAt_cons (by omega), List.take_succ_cons]
    simp only [splitFrom, AuroraLint.splitFrom, token_eq_ok (show i < ts.length by omega), ok_bind]
    split
    · exact ih _ _ (by omega)
    · split
      · exact ih _ _ (by omega)
      · split
        · rw [ih _ _ (by omega), ok_bind]
          rfl
        · exact ih _ _ (by omega)

theorem splitArguments_eq_ok {ts : List Token} {opener closer : Nat} (hlt : opener < closer)
    (hcloser : closer ≤ ts.length) :
    splitArguments ts opener closer = .ok (AuroraLint.splitArguments ts opener closer) :=
  splitFrom_eq_ok 0 _ (by omega)

/-! ## Expressions -/

/-- As `AuroraLint.expressionFrom`, with the depth checked. -/
def expressionFrom (depth lastLine i : Nat) : List Token → Checked Nat
  | [] => pure i
  | t :: ts =>
    if depth = 0 ∧ (t.kind.endsExpression ∨ t.line ≠ lastLine) then pure i
    else if t.kind.endsAnyExpression then pure i
    else do
      let depth ←
        if t.kind.opensList then pure (depth + 1)
        else if t.kind.closesList then sub depth 1
        else pure depth
      expressionFrom depth t.line (i + 1) ts

/-- As `AuroraLint.expressionEnd`, with the depth checked. -/
def expressionEnd (ts : List Token) (start : Nat) : Checked Nat :=
  match ts.drop start with
  | [] => pure start
  | t :: rest => expressionFrom 0 t.line start (t :: rest)

/-- A closer outside all brackets ends the expression before it is counted. -/
theorem expressionFrom_eq_ok (depth lastLine i : Nat) (ts : List Token) :
    expressionFrom depth lastLine i ts = .ok (AuroraLint.expressionFrom depth lastLine i ts) := by
  induction ts generalizing depth lastLine i with
  | nil => rfl
  | cons t ts ih =>
    simp only [expressionFrom, AuroraLint.expressionFrom]
    split
    · rfl
    · rename_i hstop
      split
      · rfl
      · by_cases hopens : t.kind.opensList = true
        · simp only [hopens, if_true]
          exact ih ..
        · by_cases hcloses : t.kind.closesList = true
          · have hpos : 1 ≤ depth := by
              apply Classical.byContradiction
              intro hzero
              exact hstop ⟨by omega, .inl (Kind.endsExpression_of_closesList hcloses)⟩
            simp only [hopens, hcloses, if_true, sub_eq_ok hpos, Bool.false_eq_true, if_false]
            exact ih ..
          · simp only [hopens, hcloses, Bool.false_eq_true, if_false]
            exact ih ..

theorem expressionEnd_eq_ok (ts : List Token) (start : Nat) :
    expressionEnd ts start = .ok (AuroraLint.expressionEnd ts start) := by
  unfold expressionEnd AuroraLint.expressionEnd
  cases ts.drop start with
  | nil => rfl
  | cons t rest => exact expressionFrom_eq_ok ..

end Checked

end AuroraLint
