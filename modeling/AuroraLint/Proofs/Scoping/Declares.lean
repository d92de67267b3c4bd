import AuroraLint.Proofs.Bodies
import AuroraLint.Proofs.Nesting
import AuroraLint.Resolve.State
import Mathlib.Data.List.Forall2

/-!
# What blocks declare

* `Declares`         : a block directly declares a name in front of a token.
* `PlainLoops`       : every loop that has a block has it for itself.
* `Scope.Holds`      : a scope answers with the first declaration of its block.
* `ScopeStack.Holds` : the scopes of a stack are those of the open blocks.

Main statements: what one token does to a scope (`Scope.Holds.next`, `Scope.Holds.declare`), what a
scope holds when it opens (`Scope.holds_params`, `Scope.holds_binding`, `Scope.holds_empty`), and
the same for the stack.
-/

set_option autoImplicit false

namespace AuroraLint

/-! ## What blocks declare -/

/-- A loop `for NAME in` starts at token `f`. -/
def LoopAt (ts : List Token) (f : Nat) : Prop :=
  kindAt ts f = .kwFor ∧ kindAt ts (f + 1) = .identifier ∧ kindAt ts (f + 2) = .kwIn

/-- Token `b` opens the body of a function, a constructor or a class. -/
def IsBody (ts : List Token) (b : Nat) : Prop :=
  ∃ k < b, (callableAt ts k).bind (·.body) = some b ∨ (classHeaderAt ts k).bind (·.body) = some b

/-- The `{` at token `b` opens a plain block, and no loop starts between it and token `f`. -/
def IsPlain (ts : List Token) (f b : Nat) : Prop :=
  ¬ IsBody ts b ∧ ∀ g < b, f < g → ¬ LoopAt ts g

/-- The first `{` behind a loop, if there is one, opens a plain block, and no other loop starts
before it. -/
def PlainLoops (ts : List Token) : Prop :=
  ∀ f < ts.length, LoopAt ts f → ∀ b < ts.length, FirstBraceAfter ts f b → IsPlain ts f b

instance (ts : List Token) (f : Nat) : Decidable (LoopAt ts f) :=
  inferInstanceAs (Decidable (_ ∧ _))

instance (ts : List Token) (b : Nat) : Decidable (IsBody ts b) :=
  inferInstanceAs (Decidable (∃ k < b, _))

instance (ts : List Token) (f b : Nat) : Decidable (IsPlain ts f b) :=
  inferInstanceAs (Decidable (_ ∧ _))

instance (ts : List Token) : Decidable (PlainLoops ts) :=
  inferInstanceAs (Decidable (∀ f < ts.length, _))

/-- In front of token `i` the block has directly declared the name, as a variable of the given kind
at the given place: by `let` or `var`, as a parameter of the header whose body it is, or by the loop
whose block it is. A declaration counts from its first word on. -/
inductive Declares (ts : List Token) (i : Nat) : Block → String → VariableKind → Span → Prop
  | word {k : Nat} {isMutable : Bool} {block : Block} (hlt : k < i)
      (hword : kindAt ts k = binderWord isMutable) (hname : kindAt ts (k + 1) = .identifier)
      (hin : Innermost ts k block) :
      Declares ts i block (tokenAt ts (k + 1)).lexeme (if isMutable then .varBound else .letBound)
        (tokenAt ts (k + 1)).span
  | parameter {k b : Nat} {h : FnHeader} {p : Param} (hlt : k < i) (hh : callableAt ts k = some h)
      (hb : h.body = some b) (hp : p ∈ h.params) :
      Declares ts i (.braces b) p.name .parameter p.span
  | loop {f b : Nat} (hlt : f < i) (hloop : LoopAt ts f) (hb : FirstBraceAfter ts f b) :
      Declares ts i (.braces b) (tokenAt ts (f + 1)).lexeme .varBound (tokenAt ts (f + 1)).span

section Declares

variable {ts : List Token} {i : Nat} {block : Block} {x : String} {kind : VariableKind} {place : Span}

theorem Declares.mono {j : Nat} (h : Declares ts i block x kind place) (hij : i ≤ j) :
    Declares ts j block x kind place := by
  cases h with
  | word hlt hword hname hin => exact .word (Nat.lt_of_lt_of_le hlt hij) hword hname hin
  | parameter hlt hh hb hp => exact .parameter (Nat.lt_of_lt_of_le hlt hij) hh hb hp
  | loop hlt hloop hb => exact .loop (Nat.lt_of_lt_of_le hlt hij) hloop hb

/-- One more token declares in an open block nothing, or one name by `let` or `var`: a header or
loop declares in a block behind it. -/
theorem Declares.of_succ (hts : EndsInEof ts) (hopen : block.OpenAt ts i)
    (h : Declares ts (i + 1) block x kind place) :
    Declares ts i block x kind place ∨ Innermost ts i block ∧
      ∃ isMutable, kindAt ts i = binderWord isMutable ∧ kindAt ts (i + 1) = .identifier ∧
        x = (tokenAt ts (i + 1)).lexeme ∧ kind = (if isMutable then .varBound else .letBound) ∧
        place = (tokenAt ts (i + 1)).span := by
  cases h with
  | word hlt hword hname hin =>
    rcases Nat.lt_succ_iff_lt_or_eq.mp hlt with hlt | rfl
    · exact .inl (.word hlt hword hname hin)
    · exact .inr ⟨hin, _, hword, hname, rfl, rfl, rfl⟩
  | parameter hlt hh hb hp =>
    refine .inl (.parameter ?_ hh hb hp)
    exact Nat.lt_trans (firstBrace_of_body hts hh hb).1 hopen.1
  | loop hlt hloop hb => exact .inl (.loop (Nat.lt_trans hb.1 hopen.1) hloop hb)

end Declares

/-! ## Scopes -/

theorem Scope.kind_define (s : Scope) (v : Variable) : (s.define v).kind = s.kind := by
  unfold Scope.define
  split
  · rfl
  · rfl

theorem Scope.find?_define (s : Scope) (v : Variable) (x : String) :
    (s.define v).find? x = (s.find? x).or (if v.name = x then some v else none) := by
  unfold Scope.define
  split
  · rename_i w hw
    by_cases hx : v.name = x
    · rw [if_pos hx, ← hx, hw]
      rfl
    · rw [if_neg hx, Option.or_none]
  · simp only [Scope.find?, List.find?_append, List.find?_singleton, beq_iff_eq]

theorem Scope.find?_foldl_define {α : Type} (f : α → Variable) (xs : List α) (s : Scope)
    (x : String) : (xs.foldl (fun s a => s.define (f a)) s).find? x =
      (s.find? x).or ((xs.find? fun a => (f a).name == x).map f) := by
  induction xs generalizing s with
  | nil => simp
  | cons a xs ih =>
    rw [List.foldl_cons, ih, Scope.find?_define, Option.or_assoc, List.find?_cons]
    by_cases hx : (f a).name = x
    · simp [hx]
    · simp [hx, beq_eq_false_iff_ne.mpr hx]

/-- The scope answers to a name with the first declaration of it in the block in front of token
`i`. -/
structure Scope.Holds (ts : List Token) (i : Nat) (block : Block) (s : Scope) : Prop where
  sound : ∀ {x : String} {v : Variable}, s.find? x = some v →
    Declares ts i block x v.kind v.declaredAt
  complete : ∀ {x : String} {kind : VariableKind} {place : Span},
    Declares ts i block x kind place →
      ∃ v, s.find? x = some v ∧ v.declaredAt.start.offset ≤ place.start.offset

namespace Scope.Holds

variable {ts : List Token} {i : Nat} {block : Block} {s : Scope}

/-- A token that declares nothing in the block. -/
theorem next (h : s.Holds ts i block) (hts : EndsInEof ts) (hopen : block.OpenAt ts i)
    (hquiet : ∀ isMutable, kindAt ts i = binderWord isMutable → kindAt ts (i + 1) = .identifier →
      ¬ Innermost ts i block) : s.Holds ts (i + 1) block := by
  refine ⟨fun hv => (h.sound hv).mono (Nat.le_succ i), fun hd => ?_⟩
  rcases hd.of_succ hts hopen with hd | ⟨hin, m, hword, hname, _⟩
  · exact h.complete hd
  · exact absurd hin (hquiet m hword hname)

/-- A `let` or `var` in the block. -/
theorem declare (h : s.Holds ts i block) (hts : EndsInEof ts) (hin : Innermost ts i block)
    {isMutable : Bool} (hword : kindAt ts i = binderWord isMutable)
    (hname : kindAt ts (i + 1) = .identifier) {v : Variable}
    (hv : v.name = (tokenAt ts (i + 1)).lexeme)
    (hkind : v.kind = if isMutable then .varBound else .letBound)
    (hplace : v.declaredAt = (tokenAt ts (i + 1)).span)
    (hearlier : ∀ {x : String} {w : Variable}, s.find? x = some w →
      w.declaredAt.start.offset ≤ (tokenAt ts (i + 1)).span.start.offset) :
    (s.define v).Holds ts (i + 1) block := by
  constructor
  · intro x w hw
    rw [Scope.find?_define, Option.or_eq_some_iff] at hw
    rcases hw with hw | ⟨_, hw⟩
    · exact (h.sound hw).mono (Nat.le_succ i)
    · split at hw
      · rename_i hx
        obtain rfl := Option.some.inj hw
        rw [← hx, hv, hkind, hplace]
        exact .word (Nat.lt_succ_self i) hword hname hin
      · cases hw
  · intro x kind place hd
    rw [Scope.find?_define]
    rcases hd.of_succ hts hin.1 with hd | ⟨_, _, _, _, rfl, _, rfl⟩
    · obtain ⟨w, hw, hle⟩ := h.complete hd
      exact ⟨w, by rw [hw]; rfl, hle⟩
    · rw [if_pos hv]
      cases hw : s.find? (tokenAt ts (i + 1)).lexeme with
      | none => exact ⟨v, rfl, Nat.le_of_eq (by rw [hplace])⟩
      | some w => exact ⟨w, rfl, hearlier hw⟩

end Scope.Holds

/-! ## Scopes that open -/

section Opening

variable {ts : List Token} {i : Nat} {x : String} {kind : VariableKind} {place : Span}

/-- What the block of a `{` has declared when it opens. -/
theorem declares_at_opening (h : Declares ts (i + 1) (.braces i) x kind place) :
    (∃ k hd p, callableAt ts k = some hd ∧ hd.body = some i ∧ p ∈ hd.params ∧ x = p.name ∧
      place = p.span) ∨
    ∃ f, LoopAt ts f ∧ FirstBraceAfter ts f i ∧ x = (tokenAt ts (f + 1)).lexeme ∧
      place = (tokenAt ts (f + 1)).span := by
  generalize hblock : Block.braces i = block at h
  cases h with
  | @word k m block hlt hword hname hin =>
    subst hblock
    have := hin.1.1
    omega
  | parameter hlt hh hb hp =>
    obtain rfl := Block.braces.inj hblock
    exact .inl ⟨_, _, _, hh, hb, hp, rfl, rfl⟩
  | loop hlt hloop hb =>
    obtain rfl := Block.braces.inj hblock
    exact .inr ⟨_, hloop, hb, rfl, rfl⟩

theorem PlainLoops.not_body (hloops : PlainLoops ts) (hts : EndsInEof ts) {f b : Nat}
    (hloop : LoopAt ts f) (hb : FirstBraceAfter ts f b) : ¬ IsBody ts b := by
  have hf := hts.succ_lt_of_eq hloop.1 nofun
  have hlen := hts.succ_lt_of_eq hb.2.1 nofun
  exact (hloops f (by omega) hloop b (by omega) hb).1

theorem PlainLoops.unique (hloops : PlainLoops ts) (hts : EndsInEof ts) {f g b : Nat}
    (hf : LoopAt ts f) (hfb : FirstBraceAfter ts f b) (hg : LoopAt ts g)
    (hgb : FirstBraceAfter ts g b) : f = g := by
  have hlen := hts.succ_lt_of_eq hfb.2.1 nofun
  have hflen := hts.succ_lt_of_eq hf.1 nofun
  have hglen := hts.succ_lt_of_eq hg.1 nofun
  rcases Nat.lt_trichotomy f g with hlt | heq | hlt
  · exact absurd hg ((hloops f (by omega) hf b (by omega) hfb).2 g hgb.1 hlt)
  · exact heq
  · exact absurd hf ((hloops g (by omega) hg b (by omega) hgb).2 f hfb.1 hlt)

theorem isBody_of_callable (hts : EndsInEof ts) {k b : Nat} {h : FnHeader}
    (hh : callableAt ts k = some h) (hb : h.body = some b) : IsBody ts b :=
  ⟨k, (firstBrace_of_body hts hh hb).1, .inl (by rw [hh]; exact hb)⟩

/-- The first of the elements that a list in order has with a property. -/
theorem le_of_find?_eq_some {α : Type} {p : α → Bool} {f : α → Nat} {xs : List α} {a b : α}
    (hxs : xs.Pairwise fun a b => f a ≤ f b) (ha : xs.find? p = some a) (hb : b ∈ xs)
    (hpb : p b = true) : f a ≤ f b := by
  obtain ⟨_, front, back, rfl, hfront⟩ := List.find?_eq_some_iff_append.mp ha
  rcases List.mem_append.mp hb with hb | hb
  · have := hfront b hb
    simp [hpb] at this
  · rcases List.mem_cons.mp hb with rfl | hb
    · exact Nat.le_refl _
    · exact List.rel_of_pairwise_cons (List.pairwise_append.mp hxs).2.1 hb

end Opening

section Documents

variable {doc : Document} {i : Nat}

/-- The scope of a body holds the parameters. -/
theorem Scope.holds_params (h : doc.Streamed) (hloops : PlainLoops doc.tokens) {k : Nat}
    {header : FnHeader} (hh : callableAt doc.tokens k = some header) (hb : header.body = some i)
    (scopeKind : ScopeKind) :
    (header.params.foldl (fun s p => s.define (Resolve.parameterVariable p))
      (⟨scopeKind, []⟩ : Scope)).Holds doc.tokens (i + 1) (.braces i) := by
  have hts := h.endsInEof
  constructor
  · intro x v hv
    rw [Scope.find?_foldl_define] at hv
    obtain ⟨p, hp, rfl⟩ := Option.map_eq_some_iff.mp hv
    obtain rfl : p.name = x := by simpa [Resolve.parameterVariable] using List.find?_some hp
    have hlt := (firstBrace_of_body hts hh hb).1
    exact .parameter (by omega) hh hb (List.mem_of_find?_eq_some hp)
  · intro x kind place hd
    rw [Scope.find?_foldl_define]
    rcases declares_at_opening hd with ⟨k', h', p, hh', hb', hp, rfl, rfl⟩ | ⟨f, hloop, hf, _⟩
    · obtain ⟨rfl, rfl⟩ := callableAt_body_inj hts hh hb hh' hb'
      obtain ⟨_, opener, hr, _⟩ := callableAt_eq_some hts hh
      cases hfind : header.params.find? fun a => (Resolve.parameterVariable a).name == p.name with
      | none =>
        have := List.find?_eq_none.mp hfind p hp
        simp [Resolve.parameterVariable] at this
      | some q =>
        refine ⟨Resolve.parameterVariable q, rfl, ?_⟩
        exact le_of_find?_eq_some (f := fun p : Param => p.span.start.offset)
          (h.header_params_ordered hr) hfind hp (by simp [Resolve.parameterVariable])
    · exact absurd (isBody_of_callable hts hh hb) (hloops.not_body hts hloop hf)

/-- The scope of a loop's block holds the loop's name. -/
theorem Scope.holds_binding (hts : EndsInEof doc.tokens) (hloops : PlainLoops doc.tokens) {f : Nat}
    (hloop : LoopAt doc.tokens f) (hf : FirstBraceAfter doc.tokens f i) (scopeKind : ScopeKind) :
    ((⟨scopeKind, []⟩ : Scope).define (Resolve.bindingVariable (doc.token (f + 1)))).Holds
      doc.tokens (i + 1) (.braces i) := by
  constructor
  · intro x v hv
    rw [Scope.find?_define] at hv
    change (if _ then _ else _) = _ at hv
    split at hv
    · rename_i hx
      obtain rfl := Option.some.inj hv
      rw [← hx]
      exact .loop (Nat.lt_succ_of_lt hf.1) hloop hf
    · cases hv
  · intro x kind place hd
    rcases declares_at_opening hd with ⟨k, h, p, hh, hb, _⟩ | ⟨g, hg, hgi, rfl, rfl⟩
    · exact absurd (isBody_of_callable hts hh hb) (hloops.not_body hts hloop hf)
    · obtain rfl := hloops.unique hts hloop hf hg hgi
      refine ⟨Resolve.bindingVariable (doc.token (f + 1)), ?_, Nat.le_refl _⟩
      rw [Scope.find?_define]
      exact if_pos rfl

/-- The scope of any other block starts empty. -/
theorem Scope.holds_empty {ts : List Token} (hbody : ∀ k h, callableAt ts k = some h → h.body ≠ some i)
    (hloop : ∀ f, LoopAt ts f → ¬ FirstBraceAfter ts f i) (scopeKind : ScopeKind) :
    (⟨scopeKind, []⟩ : Scope).Holds ts (i + 1) (.braces i) := by
  refine ⟨nofun, fun hd => ?_⟩
  rcases declares_at_opening hd with ⟨k, h, p, hh, hb, _⟩ | ⟨f, hf, hfi, _⟩
  · exact absurd hb (hbody k h hh)
  · exact absurd hfi (hloop f hf)

end Documents

/-! ## Stacks of scopes -/

namespace ScopeStack

variable {s : ScopeStack} {top : Scope} {rest : List Scope}

theorem scopes_push (s : ScopeStack) (kind : ScopeKind) :
    (s.push kind).scopes = ⟨kind, []⟩ :: s.scopes := rfl

theorem current_of_scopes (h : s.scopes = top :: rest) : s.current = top := by
  unfold scopes at h
  unfold current
  cases hinner : s.inner with
  | nil =>
    rw [hinner] at h
    exact (List.cons.inj h).1
  | cons a inner =>
    rw [hinner] at h
    exact (List.cons.inj h).1

theorem scopes_define (h : s.scopes = top :: rest) (v : Variable) :
    (s.define v).scopes = top.define v :: rest := by
  unfold scopes at h
  unfold define
  split
  · rename_i hinner
    rw [hinner] at h
    obtain ⟨rfl, rfl⟩ := List.cons.inj h
    simp [scopes, hinner]
  · rename_i a inner hinner
    rw [hinner] at h
    obtain ⟨rfl, rfl⟩ := List.cons.inj h
    rfl

theorem scopes_foldl_define {α : Type} (f : α → Variable) (xs : List α)
    (h : s.scopes = top :: rest) : (xs.foldl (fun s a => s.define (f a)) s).scopes =
      xs.foldl (fun s a => s.define (f a)) top :: rest := by
  induction xs generalizing s top with
  | nil => exact h
  | cons a xs ih => exact ih (scopes_define h (f a))

/-- The scopes are those of the blocks that are open in front of token `i`. -/
def Holds (ts : List Token) (i : Nat) (s : ScopeStack) : Prop :=
  List.Forall₂ (fun block scope => scope.Holds ts i block) (openBlocks ts i) s.scopes

end ScopeStack

theorem openBlocks_of_leftBrace {ts : List Token} {i : Nat} (h : kindAt ts i = .leftBrace) :
    openBlocks ts (i + 1) = .braces i :: openBlocks ts i := by
  rw [openBlocks, openBraces_of_leftBrace h]
  rfl

theorem openBlocks_of_ne {ts : List Token} {i : Nat} (hl : kindAt ts i ≠ .leftBrace)
    (hr : kindAt ts i ≠ .rightBrace) : openBlocks ts (i + 1) = openBlocks ts i := by
  rw [openBlocks, openBraces_of_ne hl hr]
  rfl

/-- A `}` closes the innermost block and its scope; the global ones stay. -/
theorem ScopeStack.forall₂_pop {R : Block → Scope → Prop} {ts : List Token} {i : Nat}
    {s : ScopeStack} (h : List.Forall₂ R (openBlocks ts i) s.scopes)
    (hr : kindAt ts i = .rightBrace) : List.Forall₂ R (openBlocks ts (i + 1)) s.pop.scopes := by
  have hlen := h.length_eq
  unfold openBlocks scopes at h ⊢
  rw [openBraces_of_rightBrace hr]
  simp only [openBlocks, scopes, List.length_append, List.length_map, List.length_singleton] at hlen
  cases hbraces : openBraces ts i with
  | nil =>
    rw [hbraces] at h hlen
    have hinner : s.inner = [] := List.eq_nil_of_length_eq_zero (by simpa using hlen.symm)
    simpa [pop, hinner] using h
  | cons b bs =>
    cases hinner : s.inner with
    | nil => simp [hbraces, hinner] at hlen
    | cons a inner =>
      rw [hbraces, hinner] at h
      simp only [pop, hinner, List.tail_cons]
      exact (List.forall₂_cons.mp h).2

namespace ScopeStack.Holds

variable {ts : List Token} {i : Nat} {s : ScopeStack}

/-- What was open stays as it was where nothing is declared. -/
theorem kept (h : s.Holds ts i) (hts : EndsInEof ts)
    (hquiet : ∀ isMutable, kindAt ts i = binderWord isMutable → kindAt ts (i + 1) ≠ .identifier) :
    List.Forall₂ (fun block scope => scope.Holds ts (i + 1) block) (openBlocks ts i) s.scopes := by
  have hopen : ∀ block ∈ openBlocks ts i, block.OpenAt ts i := fun _ => mem_openBlocks_iff.mp
  refine ((List.forall₂_and_left _ _).mpr ⟨hopen, h⟩).imp fun block scope hs => ?_
  exact hs.2.next hts hs.1 fun m hword hname => absurd hname (hquiet m hword)

theorem quiet (h : s.Holds ts i) (hts : EndsInEof ts) (hl : kindAt ts i ≠ .leftBrace)
    (hr : kindAt ts i ≠ .rightBrace)
    (hquiet : ∀ isMutable, kindAt ts i = binderWord isMutable → kindAt ts (i + 1) ≠ .identifier) :
    s.Holds ts (i + 1) := by
  unfold Holds
  rw [openBlocks_of_ne hl hr]
  exact h.kept hts hquiet

/-- A `{` opens one more block. -/
theorem opened (h : s.Holds ts i) (hts : EndsInEof ts) (hl : kindAt ts i = .leftBrace)
    {s' : ScopeStack} {top : Scope} (htop : top.Holds ts (i + 1) (.braces i))
    (hs' : s'.scopes = top :: s.scopes) : s'.Holds ts (i + 1) := by
  unfold Holds
  rw [openBlocks_of_leftBrace hl, hs']
  refine .cons htop (h.kept hts fun m hword => ?_)
  rw [hl] at hword
  cases m <;> cases hword

/-- A `}` closes the innermost block; the global level stays. -/
theorem closed (h : s.Holds ts i) (hts : EndsInEof ts) (hr : kindAt ts i = .rightBrace) :
    s.pop.Holds ts (i + 1) := by
  refine ScopeStack.forall₂_pop (h.kept hts fun m hword => ?_) hr
  rw [hr] at hword
  cases m <;> cases hword

/-- A `let` or `var` declares in the innermost block, the first of the stack. -/
theorem declared (h : s.Holds ts i) (hts : EndsInEof ts) {isMutable : Bool}
    (hword : kindAt ts i = binderWord isMutable) (hname : kindAt ts (i + 1) = .identifier)
    {v : Variable} (hv : v.name = (tokenAt ts (i + 1)).lexeme)
    (hkind : v.kind = if isMutable then .varBound else .letBound)
    (hplace : v.declaredAt = (tokenAt ts (i + 1)).span)
    (hearlier : ∀ {x : String} {w : Variable}, s.lookupCurrent x = some w →
      w.declaredAt.start.offset ≤ (tokenAt ts (i + 1)).span.start.offset) :
    (s.define v).Holds ts (i + 1) := by
  have hl : kindAt ts i ≠ .leftBrace := by
    rw [hword]
    cases isMutable <;> nofun
  have hr : kindAt ts i ≠ .rightBrace := by
    rw [hword]
    cases isMutable <;> nofun
  unfold Holds at h ⊢
  rw [openBlocks_of_ne hl hr]
  cases hblocks : openBlocks ts i with
  | nil => simp [openBlocks] at hblocks
  | cons block blocks =>
    have hopen : ∀ b ∈ blocks, b.OpenAt ts i := fun b hb =>
      mem_openBlocks_iff.mp (hblocks ▸ List.mem_cons_of_mem _ hb)
    have hpair := openBlocks_pairwise ts i
    have hin : Innermost ts i block := innermost_of_cons hblocks
    rw [hblocks] at h hpair
    obtain ⟨top, rest, htop, hrest, hscopes⟩ := List.forall₂_cons_left_iff.mp h
    rw [scopes_define hscopes]
    refine .cons ?_ ?_
    · refine htop.declare hts hin hword hname hv hkind hplace fun {x} _ hw => ?_
      exact hearlier (x := x) (by rw [lookupCurrent, current_of_scopes hscopes, hw])
    · have houter : ∀ b ∈ blocks, b.OpenAt ts i ∧ ¬ Innermost ts i b := fun b hb =>
        ⟨hopen b hb, fun hb' => List.rel_of_pairwise_cons hpair hb (hb'.2 block hin.1)⟩
      refine ((List.forall₂_and_left _ _).mpr ⟨houter, hrest⟩).imp fun b scope hs => ?_
      exact hs.2.next hts hs.1.1 fun _ _ _ => hs.1.2

end ScopeStack.Holds

end AuroraLint
