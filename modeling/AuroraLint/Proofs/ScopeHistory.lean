import AuroraLint.Proofs.Scoping.Declares
import Mathlib.Data.List.Induction

/-!
# Scopes by their history

What a stack of scopes holds can be told from what was done to it, without the stack: a scope is
open if nothing behind its `push` closed it, and it has the variables that were defined while it was
the innermost.

* `ScopeStack.Op`        : something done to a stack.
* `ScopeStack.StillOpen` : the scope that an operation opened is still open.
* `ScopeStack.definedIn` : the variables that were defined in a scope.

Main statements: `ScopeStack.openPushes_concat_pop` — a `pop` closes the scope that was opened last;
`ScopeStack.scopes_run` — the stack after any operations, scope by scope;
`ScopeStack.run_nested` — so scopes are nested, and what they answer is what was defined first.
-/

set_option autoImplicit false

namespace AuroraLint

theorem Scope.kind_foldl_define (vs : List Variable) (s : Scope) :
    (vs.foldl (fun s v => s.define v) s).kind = s.kind := by
  induction vs generalizing s with
  | nil => rfl
  | cons v vs ih => rw [List.foldl_cons, ih, Scope.kind_define]

namespace ScopeStack

/-! ## Operations -/

/-- Something done to a stack of scopes. -/
inductive Op where
  | push (kind : ScopeKind)
  | pop
  | define (v : Variable)
  | lookup (name : String)
  | lookupCurrent (name : String)
  deriving DecidableEq, Repr

namespace Op

def isPush : Op → Bool
  | .push _ => true
  | _ => false

def isPop : Op → Bool
  | .pop => true
  | _ => false

/-- The variable that the operation asks to define. -/
def defined? : Op → Option Variable
  | .define v => some v
  | _ => none

/-- The stack after the operation. -/
def apply (s : ScopeStack) : Op → ScopeStack
  | .push kind => s.push kind
  | .pop => s.pop
  | .define v => s.define v
  | .lookup _ | .lookupCurrent _ => s

/-- The variable that the operation answers. A definition answers the variable that has its name in
the innermost scope, if it is refused. -/
def answer? (s : ScopeStack) : Op → Option Variable
  | .define v => s.lookupCurrent v.name
  | .lookup name => s.lookup name
  | .lookupCurrent name => s.lookupCurrent name
  | .push _ | .pop => none

end Op

/-- The stack after operations on `s`, from left to right. -/
def runFrom (s : ScopeStack) (ops : List Op) : ScopeStack :=
  ops.foldl Op.apply s

/-- The stack after operations on a new one. -/
def run (ops : List Op) : ScopeStack :=
  runFrom {} ops

/-! ## Histories -/

/-- No `pop` among the operations closes a scope that was open before them: up to each of them there
are at most as many as there are pushes. -/
def Covered (ops : List Op) : Prop :=
  ∀ n ≤ ops.length, (ops.take n).countP Op.isPop ≤ (ops.take n).countP Op.isPush

instance (ops : List Op) : Decidable (Covered ops) :=
  inferInstanceAs (Decidable (∀ n ≤ ops.length, _))

/-- The operations close all scopes that they open, and no other. -/
def WellNested (ops : List Op) : Prop :=
  Covered ops ∧ ops.countP Op.isPop = ops.countP Op.isPush

instance (ops : List Op) : Decidable (WellNested ops) :=
  inferInstanceAs (Decidable (_ ∧ _))

/-- Operation `i` opened a scope that no operation behind it closed. -/
def StillOpen (ops : List Op) (i : Nat) : Prop :=
  (ops[i]?).any Op.isPush = true ∧ Covered (ops.drop (i + 1))

instance (ops : List Op) (i : Nat) : Decidable (StillOpen ops i) :=
  inferInstanceAs (Decidable (_ ∧ _))

/-- The pushes whose scopes are still open, in order. -/
def openPushes (ops : List Op) : List Nat :=
  (List.range ops.length).filter (StillOpen ops ·)

/-- The open scopes, the innermost first: each is told by its `push`, and the global one, which has
none, comes last. -/
def openScopes (ops : List Op) : List (Option Nat) :=
  (openPushes ops).reverse.map some ++ [none]

/-- The innermost open scope: that of the last `push` that is still open. -/
def innermost (ops : List Op) : Option Nat :=
  (openPushes ops).getLast?

/-- The variables that were defined while a scope was the innermost, in order. -/
def definedIn (ops : List Op) (scope : Option Nat) : List Variable :=
  (List.range ops.length).filterMap fun k =>
    if innermost (ops.take k) = scope then (ops[k]?).bind Op.defined? else none

/-- The kind that a scope was opened with. -/
def kindOf (ops : List Op) : Option Nat → ScopeKind
  | none => .global
  | some i =>
    match ops[i]? with
    | some (.push kind) => kind
    | _ => .block

/-- A scope as its history has it. -/
def scopeOf (ops : List Op) (scope : Option Nat) : Scope :=
  (definedIn ops scope).foldl (fun s v => s.define v) ⟨kindOf ops scope, []⟩

/-! ## One more operation -/

section Concat

variable {ops : List Op} {op : Op} {i : Nat}

theorem countP_take_concat (p : Op → Bool) {n : Nat} (h : n ≤ ops.length) :
    ((ops ++ [op]).take n).countP p = (ops.take n).countP p := by
  rw [List.take_append_of_le_length h]

theorem covered_concat : Covered (ops ++ [op]) ↔
    Covered ops ∧ (op.isPop = true → ops.countP Op.isPop < ops.countP Op.isPush) := by
  have hall : ∀ p : Op → Bool, (ops.take ops.length).countP p = ops.countP p := by simp
  constructor
  · intro h
    refine ⟨fun n hn => ?_, fun hpop => ?_⟩
    · have := h n (by simp; omega)
      rwa [countP_take_concat _ hn, countP_take_concat _ hn] at this
    · have := h (ops.length + 1) (by simp)
      rw [List.take_of_length_le (by simp), List.countP_append, List.countP_append] at this
      have hpush : op.isPush = false := by
        cases op <;> first | rfl | cases hpop
      simp only [List.countP_singleton, hpop, hpush, if_true, Bool.false_eq_true, if_false] at this
      omega
  · rintro ⟨h, hpop⟩ n hn
    rcases Nat.lt_or_ge ops.length n with hlt | hle
    · rw [List.take_of_length_le (by simp; omega), List.countP_append, List.countP_append]
      have hops := h ops.length (Nat.le_refl _)
      rw [hall, hall] at hops
      simp only [List.countP_singleton]
      cases hp : op.isPop with
      | true =>
        have := hpop hp
        simp only [if_true]
        omega
      | false =>
        simp only [Bool.false_eq_true, if_false]
        omega
    · rw [countP_take_concat _ hle, countP_take_concat _ hle]
      exact h n hle

theorem stillOpen_concat (h : i < ops.length) : StillOpen (ops ++ [op]) i ↔
    StillOpen ops i ∧ (op.isPop = true →
      (ops.drop (i + 1)).countP Op.isPop < (ops.drop (i + 1)).countP Op.isPush) := by
  unfold StillOpen
  rw [List.getElem?_append_left h, List.drop_append_of_le_length h, covered_concat, and_assoc]

theorem stillOpen_length : StillOpen (ops ++ [op]) ops.length ↔ op.isPush = true := by
  unfold StillOpen
  have hdrop : (ops ++ [op]).drop (ops.length + 1) = [] := by simp
  have hget : (ops ++ [op])[ops.length]? = some op := by simp
  rw [hdrop, hget]
  simp [Covered]

theorem StillOpen.lt_length (h : StillOpen ops i) : i < ops.length := by
  by_contra hle
  rw [StillOpen, List.getElem?_eq_none (by omega)] at h
  exact absurd h.1 (by simp)

theorem mem_openPushes : i ∈ openPushes ops ↔ StillOpen ops i := by
  simp only [openPushes, List.mem_filter, List.mem_range, decide_eq_true_eq]
  exact ⟨And.right, fun h => ⟨h.lt_length, h⟩⟩

theorem openPushes_pairwise (ops : List Op) : (openPushes ops).Pairwise (· < ·) :=
  List.Pairwise.filter _ List.pairwise_lt_range

/-- A further operation leaves those scopes open that it does not close, and may open its own. -/
theorem openPushes_concat (ops : List Op) (op : Op) : openPushes (ops ++ [op]) =
    ((openPushes ops).filter fun i => op.isPop = true →
      (ops.drop (i + 1)).countP Op.isPop < (ops.drop (i + 1)).countP Op.isPush) ++
    if op.isPush then [ops.length] else [] := by
  have hold : (List.range ops.length).filter (StillOpen (ops ++ [op]) ·) =
      (openPushes ops).filter fun i => op.isPop = true →
        (ops.drop (i + 1)).countP Op.isPop < (ops.drop (i + 1)).countP Op.isPush := by
    rw [openPushes, List.filter_filter]
    refine List.filter_congr fun i hi => ?_
    rw [decide_eq_decide.mpr (stillOpen_concat (List.mem_range.mp hi)), Bool.decide_and,
      Bool.and_comm]
  have hnew : [ops.length].filter (StillOpen (ops ++ [op]) ·) =
      if op.isPush then [ops.length] else [] := by
    cases hpush : op.isPush <;> simp [stillOpen_length, hpush]
  rw [openPushes, List.length_append, List.length_singleton, List.range_succ, List.filter_append,
    hold, hnew]

theorem openPushes_concat_push (ops : List Op) (kind : ScopeKind) :
    openPushes (ops ++ [.push kind]) = openPushes ops ++ [ops.length] := by
  rw [openPushes_concat, List.filter_eq_self.mpr]
  · rfl
  · intro i _
    simp [Op.isPop]

theorem openPushes_concat_quiet (ops : List Op) {op : Op} (hpush : op.isPush = false)
    (hpop : op.isPop = false) : openPushes (ops ++ [op]) = openPushes ops := by
  rw [openPushes_concat, List.filter_eq_self.mpr]
  · simp [hpush]
  · intro i _
    simp [hpop]

/-- Behind the `push` of an open scope there are more pushes than pops, by the number of scopes that
were opened in it and are still open. -/
def Surplus (ops : List Op) : Prop :=
  ∀ i ∈ openPushes ops, (ops.drop (i + 1)).countP Op.isPush =
    (ops.drop (i + 1)).countP Op.isPop + (openPushes ops).countP (i < ·)

/-- Of a strictly ascending list, all but the last are below another. -/
theorem filter_below_eq_dropLast {xs : List Nat} (h : xs.Pairwise (· < ·)) :
    xs.filter (fun i => 0 < xs.countP (i < ·)) = xs.dropLast := by
  rcases List.eq_nil_or_concat xs with rfl | ⟨init, last, rfl⟩
  · rfl
  · rw [List.concat_eq_append] at h ⊢
    obtain ⟨-, -, hlast⟩ := List.pairwise_append.mp h
    have hbelow : ∀ i ∈ init, i < last := fun i hi => hlast i hi last (by simp)
    have hkept : init.filter (fun i => 0 < (init ++ [last]).countP (i < ·)) = init := by
      refine List.filter_eq_self.mpr fun i hi => ?_
      simp [hbelow i hi]
    have hnone : (init ++ [last]).countP (last < ·) = 0 := by
      refine List.countP_eq_zero.mpr fun i hi => ?_
      rcases List.mem_append.mp hi with hi | hi
      · have := hbelow i hi
        simp
        omega
      · simp [List.mem_singleton.mp hi]
    rw [List.filter_append, hkept, List.filter_singleton, hnone, List.dropLast_concat]
    simp

theorem Surplus.openPushes_concat_pop (h : Surplus ops) :
    openPushes (ops ++ [.pop]) = (openPushes ops).dropLast := by
  rw [openPushes_concat, ← filter_below_eq_dropLast (openPushes_pairwise ops)]
  have hfilter : ((openPushes ops).filter fun i => Op.isPop .pop = true →
      (ops.drop (i + 1)).countP Op.isPop < (ops.drop (i + 1)).countP Op.isPush) =
      (openPushes ops).filter fun i => 0 < (openPushes ops).countP (i < ·) := by
    refine List.filter_congr fun i hi => decide_eq_decide.mpr ?_
    have := h i hi
    simp only [Op.isPop, forall_const]
    omega
  rw [hfilter]
  simp [Op.isPush]

theorem drop_concat_of_open (op : Op) (hi : i ∈ openPushes ops) :
    (ops ++ [op]).drop (i + 1) = ops.drop (i + 1) ++ [op] :=
  List.drop_append_of_le_length (mem_openPushes.mp hi).lt_length

theorem Surplus.quiet (h : Surplus ops) (hpush : op.isPush = false) (hpop : op.isPop = false) :
    Surplus (ops ++ [op]) := by
  intro i hi
  rw [openPushes_concat_quiet ops hpush hpop] at hi ⊢
  have := h i hi
  rw [drop_concat_of_open op hi, List.countP_append, List.countP_append]
  simpa [hpush, hpop] using this

/-- The scope of a further `push` is one more in all that are open. -/
theorem Surplus.push (h : Surplus ops) (kind : ScopeKind) : Surplus (ops ++ [.push kind]) := by
  intro i hi
  rw [openPushes_concat_push] at hi ⊢
  rw [List.countP_append]
  rcases List.mem_append.mp hi with hi | hi
  · have := h i hi
    have hlt := (mem_openPushes.mp hi).lt_length
    rw [drop_concat_of_open _ hi, List.countP_append, List.countP_append]
    simp [Op.isPush, Op.isPop, hlt]
    omega
  · obtain rfl := List.mem_singleton.mp hi
    have hnone : (openPushes ops).countP (ops.length < ·) = 0 := by
      refine List.countP_eq_zero.mpr fun j hj => ?_
      have := (mem_openPushes.mp hj).lt_length
      simp
      omega
    rw [hnone, List.drop_of_length_le (by simp)]
    simp

/-- A further `pop` takes the last scope, which is in all others. -/
theorem Surplus.pop (h : Surplus ops) : Surplus (ops ++ [.pop]) := by
  intro i hi
  rw [h.openPushes_concat_pop] at hi ⊢
  have hmem := List.dropLast_subset _ hi
  have := h i hmem
  rw [drop_concat_of_open _ hmem, List.countP_append, List.countP_append]
  rcases List.eq_nil_or_concat (openPushes ops) with hnil | ⟨init, last, hsplit⟩
  · rw [hnil] at hmem
    cases hmem
  · rw [List.concat_eq_append] at hsplit
    have hpair := openPushes_pairwise ops
    rw [hsplit, List.dropLast_concat] at hi
    rw [hsplit] at hpair this
    have hlast : i < last := (List.pairwise_append.mp hpair).2.2 i hi last (by simp)
    rw [List.countP_append] at this
    rw [hsplit, List.dropLast_concat]
    simp [Op.isPush, Op.isPop, hlast] at this ⊢
    omega

theorem surplus (ops : List Op) : Surplus ops := by
  induction ops using List.reverseRecOn with
  | nil => exact nofun
  | append_singleton ops op ih =>
    cases op with
    | push kind => exact ih.push kind
    | pop => exact ih.pop
    | define v => exact ih.quiet rfl rfl
    | lookup name => exact ih.quiet rfl rfl
    | lookupCurrent name => exact ih.quiet rfl rfl

/-- **A `pop` closes the scope that was opened last**, if one is open. -/
theorem openPushes_concat_pop (ops : List Op) :
    openPushes (ops ++ [.pop]) = (openPushes ops).dropLast :=
  (surplus ops).openPushes_concat_pop

/-! ## The scopes of a history -/

theorem definedIn_concat (ops : List Op) (op : Op) (scope : Option Nat) :
    definedIn (ops ++ [op]) scope =
      definedIn ops scope ++ if innermost ops = scope then op.defined?.toList else [] := by
  have hold : (List.range ops.length).filterMap (fun k =>
      if innermost ((ops ++ [op]).take k) = scope then ((ops ++ [op])[k]?).bind Op.defined?
      else none) = definedIn ops scope := by
    refine List.filterMap_congr fun k hk => ?_
    have hlt := List.mem_range.mp hk
    rw [List.take_append_of_le_length (Nat.le_of_lt hlt), List.getElem?_append_left hlt]
  have hnew : (if innermost ((ops ++ [op]).take ops.length) = scope then
      ((ops ++ [op])[ops.length]?).bind Op.defined? else none).toList =
      if innermost ops = scope then op.defined?.toList else [] := by
    rw [List.take_left, List.getElem?_concat_length, Option.bind_some]
    split <;> rfl
  rw [definedIn, List.length_append, List.length_singleton, List.range_succ, List.filterMap_append,
    hold, ← hnew, List.filterMap_cons, List.filterMap_nil]
  split <;> simp_all

/-- Nothing is defined in a scope before it is opened. -/
theorem definedIn_length (ops : List Op) : definedIn ops (some ops.length) = [] := by
  refine List.filterMap_eq_nil_iff.mpr fun k hk => if_neg fun hin => ?_
  have hmem := List.mem_of_getLast? hin
  have := (mem_openPushes.mp hmem).lt_length
  have := List.mem_range.mp hk
  rw [List.length_take] at *
  omega

theorem kindOf_concat (op : Op) (h : i < ops.length) :
    kindOf (ops ++ [op]) (some i) = kindOf ops (some i) := by
  rw [kindOf, List.getElem?_append_left h]
  rfl

/-- A further operation changes no scope but the innermost, and that one by what it defines. -/
theorem scopeOf_concat (op : Op) {scope : Option Nat} (h : ∀ i ∈ scope, i < ops.length) :
    scopeOf (ops ++ [op]) scope =
      if innermost ops = scope then op.defined?.elim (scopeOf ops scope) (scopeOf ops scope).define
      else scopeOf ops scope := by
  have hkind : kindOf (ops ++ [op]) scope = kindOf ops scope := by
    cases scope with
    | none => rfl
    | some i => exact kindOf_concat op (h i rfl)
  rw [scopeOf, hkind, definedIn_concat, List.foldl_append]
  split
  · cases op.defined? <;> rfl
  · rfl

theorem scopeOf_global_concat (op : Op) : scopeOf (ops ++ [op]) none =
    if innermost ops = none then op.defined?.elim (scopeOf ops none) (scopeOf ops none).define
    else scopeOf ops none :=
  scopeOf_concat op fun _ hi => nomatch hi

/-- The scopes of pushes stay as they are, unless something is defined in one of them. -/
theorem map_scopeOf_concat (op : Op) {is : List Nat} (h : ∀ i ∈ is, i < ops.length)
    (hkept : op.defined? = none ∨ ∀ i ∈ is, innermost ops ≠ some i) :
    is.map (fun i => scopeOf (ops ++ [op]) (some i)) = is.map fun i => scopeOf ops (some i) := by
  refine List.map_congr_left fun i hi => ?_
  have hlt : ∀ j ∈ some i, j < ops.length := fun j hj => Option.some.inj hj ▸ h i hi
  rw [scopeOf_concat op hlt]
  rcases hkept with hop | hin
  · rw [hop]
    exact ite_self _
  · exact if_neg (hin i hi)

end Concat

/-! ## Runs -/

/-- The stack that a history tells of: its open scopes, the innermost first, and the global one. -/
def ofHistory (ops : List Op) : ScopeStack :=
  ⟨(openPushes ops).reverse.map fun i => scopeOf ops (some i), scopeOf ops none⟩

section Runs

variable (s : ScopeStack) (ops : List Op)

theorem lt_length_of_mem_reverse {ops : List Op} :
    ∀ i ∈ (openPushes ops).reverse, i < ops.length := fun _ hi =>
  (mem_openPushes.mp (List.mem_reverse.mp hi)).lt_length

theorem ofHistory_push (kind : ScopeKind) :
    ofHistory (ops ++ [.push kind]) = (ofHistory ops).push kind := by
  have hnew : scopeOf (ops ++ [.push kind]) (some ops.length) = ⟨kind, []⟩ := by
    have hdefined : definedIn (ops ++ [.push kind]) (some ops.length) = [] := by
      rw [definedIn_concat, definedIn_length]
      exact ite_self _
    rw [scopeOf, hdefined, kindOf, List.getElem?_concat_length]
    rfl
  have hglobal : scopeOf (ops ++ [.push kind]) none = scopeOf ops none :=
    (scopeOf_global_concat _).trans (ite_self _)
  rw [ofHistory, openPushes_concat_push, List.reverse_append, List.reverse_singleton,
    List.singleton_append, List.map_cons, hnew, hglobal,
    map_scopeOf_concat _ lt_length_of_mem_reverse (.inl rfl)]
  rfl

theorem ofHistory_pop : ofHistory (ops ++ [.pop]) = (ofHistory ops).pop := by
  have hglobal : scopeOf (ops ++ [.pop]) none = scopeOf ops none :=
    (scopeOf_global_concat _).trans (ite_self _)
  have htail : ∀ i ∈ (openPushes ops).reverse.tail, i < ops.length := fun i hi =>
    lt_length_of_mem_reverse i (List.mem_of_mem_tail hi)
  rw [ofHistory, openPushes_concat_pop, ← List.tail_reverse, hglobal,
    map_scopeOf_concat _ htail (.inl rfl), List.map_tail]
  rfl

/-- A variable is defined in the scope that was opened last, or in the global one if no other is
open. -/
theorem ofHistory_define (v : Variable) :
    ofHistory (ops ++ [.define v]) = (ofHistory ops).define v := by
  rw [ofHistory, openPushes_concat_quiet ops rfl rfl, ofHistory, scopeOf_global_concat]
  rcases List.eq_nil_or_concat (openPushes ops) with hnil | ⟨init, last, hsplit⟩
  · rw [innermost, hnil]
    rfl
  · rw [List.concat_eq_append] at hsplit
    have hin : innermost ops = some last := by rw [innermost, hsplit, List.getLast?_concat]
    have hlt := @lt_length_of_mem_reverse ops
    have hpair := openPushes_pairwise ops
    rw [hsplit] at hlt hpair ⊢
    rw [List.reverse_append, List.reverse_singleton, List.singleton_append] at hlt ⊢
    have hlast : scopeOf (ops ++ [.define v]) (some last) = (scopeOf ops (some last)).define v :=
      (scopeOf_concat _ fun i hi => Option.some.inj hi ▸ hlt last List.mem_cons_self).trans
        (if_pos hin)
    have hinit : ∀ i ∈ init.reverse, innermost ops ≠ some i := by
      intro i hi heq
      have := (List.pairwise_append.mp hpair).2.2 i (List.mem_reverse.mp hi) last (by simp)
      rw [hin] at heq
      exact Nat.ne_of_gt this (Option.some.inj heq)
    rw [List.map_cons, List.map_cons, hlast, if_neg (by rw [hin]; nofun),
      map_scopeOf_concat _ (fun i hi => hlt i (List.mem_cons_of_mem _ hi)) (.inr hinit)]
    rfl

theorem ofHistory_quiet {op : Op} (hpush : op.isPush = false) (hpop : op.isPop = false)
    (hdefine : op.defined? = none) : ofHistory (ops ++ [op]) = ofHistory ops := by
  have hglobal : scopeOf (ops ++ [op]) none = scopeOf ops none := by
    rw [scopeOf_global_concat, hdefine]
    exact ite_self _
  rw [ofHistory, openPushes_concat_quiet ops hpush hpop, hglobal,
    map_scopeOf_concat _ lt_length_of_mem_reverse (.inl hdefine)]
  rfl

/-- What an operation does to the stack, it does to its history. -/
theorem ofHistory_concat (op : Op) : ofHistory (ops ++ [op]) = op.apply (ofHistory ops) := by
  cases op with
  | push kind => exact ofHistory_push ops kind
  | pop => exact ofHistory_pop ops
  | define v => exact ofHistory_define ops v
  | lookup name => exact ofHistory_quiet ops rfl rfl rfl
  | lookupCurrent name => exact ofHistory_quiet ops rfl rfl rfl

theorem runFrom_concat (op : Op) : runFrom s (ops ++ [op]) = op.apply (runFrom s ops) := by
  rw [runFrom, List.foldl_append]
  rfl

/-- **A stack is what its history tells**, after any operations. -/
theorem run_eq_ofHistory : run ops = ofHistory ops := by
  induction ops using List.reverseRecOn with
  | nil => rfl
  | append_singleton ops op ih => rw [run, runFrom_concat, ← run, ih, ofHistory_concat]

/-! ## What a history answers -/

/-- The variable that was defined first of those of a name in a scope. -/
def firstIn (ops : List Op) (scope : Option Nat) (name : String) : Option Variable :=
  (definedIn ops scope).find? (·.name == name)

theorem find?_scopeOf (scope : Option Nat) (name : String) :
    (scopeOf ops scope).find? name = firstIn ops scope name := by
  have hempty : (⟨kindOf ops scope, []⟩ : Scope).find? name = none := rfl
  rw [scopeOf, Scope.find?_foldl_define (fun v => v), hempty, Option.none_or, Option.map_id']
  rfl

theorem scopes_run : (run ops).scopes = (openScopes ops).map (scopeOf ops) := by
  rw [run_eq_ofHistory, openScopes, List.map_append, List.map_map]
  rfl

theorem current_run : (run ops).current = scopeOf ops (innermost ops) := by
  rw [run_eq_ofHistory, current, ofHistory, List.head?_map, List.head?_reverse, innermost]
  cases (openPushes ops).getLast? <;> rfl

theorem lookupCurrent_run (name : String) :
    (run ops).lookupCurrent name = firstIn ops (innermost ops) name := by
  rw [lookupCurrent, current_run, find?_scopeOf]

theorem lookup_run (name : String) :
    (run ops).lookup name = (openScopes ops).findSome? (firstIn ops · name) := by
  rw [lookup, scopes_run, List.findSome?_map]
  exact congrArg (List.findSome? · _) (funext fun scope => find?_scopeOf ops scope name)

variable {s}

/-- The definition of a name that the innermost scope has changes nothing. -/
theorem define_of_taken {v w : Variable} (h : s.lookupCurrent v.name = some w) :
    s.define v = s := by
  obtain ⟨inner, global⟩ := s
  cases inner with
  | nil =>
    have hfind : global.find? v.name = some w := h
    simp [define, Scope.define, hfind]
  | cons top rest =>
    have hfind : top.find? v.name = some w := h
    simp [define, Scope.define, hfind]

/-! ## Well-nested operations -/

/-- Operations above a scope leave all below it as it is, and that scope open: above it are the
scopes that they opened and did not close. -/
theorem runFrom_covered {top : Scope} {rest : List Scope} (hs : s.inner = top :: rest)
    {above : List Op} (h : Covered above) :
    ∃ opened top', (runFrom s above).inner = opened ++ top' :: rest ∧
      (runFrom s above).global = s.global ∧
      opened.length + above.countP Op.isPop = above.countP Op.isPush := by
  induction above using List.reverseRecOn with
  | nil => exact ⟨[], top, hs, rfl, rfl⟩
  | append_singleton above op ih =>
    obtain ⟨hcovered, hpop⟩ := covered_concat.mp h
    obtain ⟨opened, top', hinner, hglobal, hcount⟩ := ih hcovered
    rw [runFrom_concat, List.countP_append, List.countP_append]
    cases op with
    | push kind =>
      refine ⟨⟨kind, []⟩ :: opened, top', ?_, hglobal, ?_⟩
      · simp [Op.apply, push, hinner]
      · simp [Op.isPush, Op.isPop]
        omega
    | pop =>
      cases opened with
      | nil =>
        have := hpop rfl
        simp at hcount
        omega
      | cons closed opened =>
        refine ⟨opened, top', ?_, hglobal, ?_⟩
        · simp [Op.apply, pop, hinner]
        · simp [Op.isPush, Op.isPop] at hcount ⊢
          omega
    | define v =>
      cases opened with
      | nil =>
        refine ⟨[], top'.define v, ?_, ?_, by simpa [Op.isPush, Op.isPop] using hcount⟩
        · simp [Op.apply, define, hinner]
        · simp [Op.apply, define, hinner, hglobal]
      | cons first opened =>
        refine ⟨first.define v :: opened, top', ?_, ?_, by simpa [Op.isPush, Op.isPop] using hcount⟩
        · simp [Op.apply, define, hinner]
        · simp [Op.apply, define, hinner, hglobal]
    | lookup name =>
      exact ⟨opened, top', hinner, hglobal, by simpa [Op.isPush, Op.isPop] using hcount⟩
    | lookupCurrent name =>
      exact ⟨opened, top', hinner, hglobal, by simpa [Op.isPush, Op.isPop] using hcount⟩

/-- **What is done in a scope is gone when the scope is closed.** -/
theorem runFrom_block (s : ScopeStack) (kind : ScopeKind) {above : List Op} (h : WellNested above) :
    runFrom s (.push kind :: above ++ [.pop]) = s := by
  have hpush : (s.push kind).inner = ⟨kind, []⟩ :: s.inner := rfl
  obtain ⟨opened, top', hinner, hglobal, hcount⟩ := runFrom_covered hpush h.1
  have hnil : opened = [] := List.eq_nil_of_length_eq_zero (by have := h.2; omega)
  have hfirst : runFrom s (.push kind :: above) = runFrom (s.push kind) above := rfl
  rw [runFrom_concat, hfirst]
  show (runFrom (s.push kind) above).pop = s
  rw [pop, hinner, hglobal, hnil]
  rfl

end Runs

/-- **Scopes are nested, and answer what was defined first.** After any operations the global scope
is open below all others. A name is looked up in the innermost open scope that it was defined in,
and the definition found is the first of them; the innermost scope alone is asked likewise. A
definition that it refuses answers that variable and changes nothing. Whatever is done between a
`push` and its `pop` leaves the stack as it was. -/
theorem run_nested (ops : List Op) :
    let s := run ops
    (1 ≤ s.depth ∧ s.depth = (openScopes ops).length ∧ ∃ bottom, s.scopes.getLast? = some bottom ∧
      bottom.kind = .global ∧ ∀ name, bottom.find? name = firstIn ops none name) ∧
    (∀ name, (Op.lookup name).answer? s = (openScopes ops).findSome? (firstIn ops · name)) ∧
    (∀ name, (Op.lookupCurrent name).answer? s = firstIn ops (innermost ops) name) ∧
    (∀ v, (Op.define v).answer? s = firstIn ops (innermost ops) v.name ∧
      ((firstIn ops (innermost ops) v.name).isSome → run (ops ++ [.define v]) = s)) ∧
    ∀ kind above, WellNested above → run (ops ++ (.push kind :: above ++ [.pop])) = s := by
  intro s
  have happend : ∀ more, run (ops ++ more) = runFrom s more := fun more =>
    List.foldl_append
  have hdepth : s.depth = (openScopes ops).length := by
    rw [← List.length_map (scopeOf ops), ← scopes_run]
    simp [depth, scopes, s]
  refine ⟨⟨s.depth_pos, hdepth, scopeOf ops none, ?_, ?_, find?_scopeOf ops none⟩, lookup_run ops,
    lookupCurrent_run ops, fun v => ⟨lookupCurrent_run ops v.name, fun hsome => ?_⟩,
    fun kind above habove => ?_⟩
  · rw [scopes_run, openScopes, List.map_append, List.map_singleton, List.getLast?_concat]
  · exact Scope.kind_foldl_define _ _
  · obtain ⟨w, hw⟩ := Option.isSome_iff_exists.mp hsome
    rw [happend]
    exact define_of_taken ((lookupCurrent_run ops v.name).trans hw)
  · rw [happend, runFrom_block s kind habove]

/-- A name that was defined twice in a block, shadowing that of the global scope, which no `pop`
closed; below it, a function that shadows the name again. -/
theorem run_nested_shadowed :
    let x := fun line => (⟨"x", .int, .varBound, ⟨"m", ⟨line, 1, 0⟩, ⟨line, 2, 1⟩⟩⟩ : Variable)
    let ops := [.pop, .define (x 1), .push .block, .define (x 2), .define (x 3)]
    let above := [.define (x 4), .push .block, .define (x 5), .pop]
    ((firstIn ops (innermost ops) (x 6).name).isSome ∧ WellNested above) ∧
      (Op.lookup "x").answer? (run ops) = some (x 2) ∧ run (ops ++ [.define (x 6)]) = run ops ∧
      run (ops ++ (.push .function :: above ++ [.pop])) = run ops := by
  intro x ops above
  have hfirst : (firstIn ops (innermost ops) (x 6).name).isSome := by decide +kernel
  have habove : WellNested above := by decide +kernel
  obtain ⟨-, hlookup, -, hdefine, hblock⟩ := run_nested ops
  refine ⟨⟨hfirst, habove⟩, (hlookup "x").trans ?_, (hdefine (x 6)).2 hfirst,
    hblock .function above habove⟩
  decide +kernel

end ScopeStack

end AuroraLint
