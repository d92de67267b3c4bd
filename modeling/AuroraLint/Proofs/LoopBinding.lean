import AuroraLint.Proofs.Scoping
import Mathlib.Data.Nat.Find

/-!
# Where the names of loops go

The name of a loop waits for a block. The body of a function, constructor or class passes it by, and
it goes on waiting: for a block that has nothing to do with the loop.

* `PassesLoop` : a `{` at which no name is taken.
* `LoopWaits`  : the loop that waits in front of a token.
* `TakesLoop`  : the block that gets the name of a loop.
* `Resolve.BoundIn` : the scope of a block holds the variable of a loop.

Main statements: `LoopWaits.succ_iff` — what one token does to a loop that waits;
`Resolve.stateBefore_keeps` — the walk has the names of loops in the blocks that take them, and
nowhere else; `Resolve.boundIn_iff_takesLoop` — so a loop has its name in the first block behind it
alone exactly if no other block takes what that one passes by.
-/

set_option autoImplicit false

namespace AuroraLint

/-! ## Loops that wait -/

/-- Token `b` opens the body of a class, and its header is the last one that starts in front of
it. -/
def ClassBodyAt (ts : List Token) (b : Nat) : Prop :=
  ∃ k < b, (classHeaderAt ts k).bind (·.body) = some b ∧ ∀ j < b, k < j → kindAt ts j ≠ .kwClass

/-- The `{` at token `b` takes no loop: it opens the body of a function, constructor or class. -/
def PassesLoop (ts : List Token) (b : Nat) : Prop :=
  (∃ k < b, (callableAt ts k).bind (·.body) = some b) ∨ ClassBodyAt ts b

/-- In front of token `i` the loop at token `f` waits: behind it no other loop has started, and no
`{` has taken it. -/
def LoopWaits (ts : List Token) (f i : Nat) : Prop :=
  f < i ∧ LoopAt ts f ∧
    ∀ j < i, f < j → ¬ LoopAt ts j ∧ (kindAt ts j = .leftBrace → PassesLoop ts j)

/-- The `{` at token `b` takes the loop at token `f`. -/
def TakesLoop (ts : List Token) (f b : Nat) : Prop :=
  LoopWaits ts f b ∧ kindAt ts b = .leftBrace ∧ ¬ PassesLoop ts b

instance (ts : List Token) (b : Nat) : Decidable (ClassBodyAt ts b) :=
  inferInstanceAs (Decidable (∃ k < b, _))

instance (ts : List Token) (b : Nat) : Decidable (PassesLoop ts b) :=
  inferInstanceAs (Decidable (_ ∨ _))

instance (ts : List Token) (f i : Nat) : Decidable (LoopWaits ts f i) :=
  inferInstanceAs (Decidable (_ ∧ _ ∧ _))

instance (ts : List Token) (f b : Nat) : Decidable (TakesLoop ts f b) :=
  inferInstanceAs (Decidable (_ ∧ _ ∧ _))

section Waiting

variable {ts : List Token} {f g i b : Nat}

/-- **One token more.** A loop starts to wait at its word; it stops where another one starts and at
a `{` that does not pass it by. -/
theorem LoopWaits.succ_iff : LoopWaits ts f (i + 1) ↔ f = i ∧ LoopAt ts i ∨
    LoopWaits ts f i ∧ ¬ LoopAt ts i ∧ (kindAt ts i = .leftBrace → PassesLoop ts i) := by
  constructor
  · rintro ⟨hlt, hloop, hsince⟩
    rcases Nat.lt_succ_iff_lt_or_eq.mp hlt with hlt | rfl
    · exact .inr ⟨⟨hlt, hloop, fun j hj => hsince j (by omega)⟩, hsince i (Nat.lt_succ_self i) hlt⟩
    · exact .inl ⟨rfl, hloop⟩
  · rintro (⟨rfl, hloop⟩ | ⟨⟨hlt, hloop, hsince⟩, hlast⟩)
    · exact ⟨Nat.lt_succ_self f, hloop, fun j hj hfj => by omega⟩
    · refine ⟨Nat.lt_succ_of_lt hlt, hloop, fun j hj hfj => ?_⟩
      rcases Nat.lt_succ_iff_lt_or_eq.mp hj with hj | rfl
      · exact hsince j hj hfj
      · exact hlast

/-- Two loops never wait together. -/
theorem LoopWaits.unique (hf : LoopWaits ts f i) (hg : LoopWaits ts g i) : f = g := by
  rcases Nat.lt_trichotomy f g with hlt | heq | hlt
  · exact absurd hg.2.1 (hf.2.2 g hg.1 hlt).1
  · exact heq
  · exact absurd hf.2.1 (hg.2.2 f hf.1 hlt).1

/-- A loop is taken by the first `{` behind it, or this one passes it by. -/
theorem TakesLoop.firstBrace_or (h : TakesLoop ts f b) :
    FirstBraceAfter ts f b ∨ ∃ first, FirstBraceAfter ts f first ∧ PassesLoop ts first := by
  obtain ⟨⟨hlt, _, hsince⟩, hbrace, _⟩ := h
  have hex : ∃ j, f < j ∧ kindAt ts j = .leftBrace := ⟨b, hlt, hbrace⟩
  obtain ⟨hfirst, hleft⟩ := Nat.find_spec hex
  have hmin : FirstBraceAfter ts f (Nat.find hex) :=
    ⟨hfirst, hleft, fun j hj hfj hjl => Nat.find_min hex hj ⟨hfj, hjl⟩⟩
  rcases Nat.lt_or_eq_of_le (Nat.find_min' hex ⟨hlt, hbrace⟩) with hbefore | heq
  · exact .inr ⟨_, hmin, (hsince _ hbefore hfirst).2 hleft⟩
  · exact .inl (heq ▸ hmin)

theorem FirstBraceAfter.unique {b' : Nat} (h : FirstBraceAfter ts f b)
    (h' : FirstBraceAfter ts f b') : b = b' := by
  rcases Nat.lt_trichotomy b b' with hlt | heq | hlt
  · exact absurd h.2.1 (h'.2.2 b hlt h.1)
  · exact heq
  · exact absurd h'.2.1 (h.2.2 b' hlt h'.1)

/-- The loop waited for is the one that waits. -/
def AwaitsBinding (ts : List Token) (i : Nat) (awaited : Option Nat) : Prop :=
  ∀ n, awaited = some n ↔ ∃ f, n = f + 1 ∧ LoopWaits ts f i

namespace AwaitsBinding

variable {awaited : Option Nat}

/-- A token at which no loop starts, and that is no `{` or passes loops by. -/
theorem quiet (h : AwaitsBinding ts i awaited) (hloop : ¬ LoopAt ts i)
    (hpass : kindAt ts i = .leftBrace → PassesLoop ts i) : AwaitsBinding ts (i + 1) awaited := by
  intro n
  rw [h n]
  refine exists_congr fun f => and_congr_right fun _ => ?_
  rw [LoopWaits.succ_iff]
  exact ⟨fun hf => .inr ⟨hf, hloop, hpass⟩, fun hf => (hf.resolve_left fun hi => hloop hi.2).1⟩

/-- A loop takes the place of any other. -/
theorem loop (hloop : LoopAt ts i) : AwaitsBinding ts (i + 1) (some (i + 1)) := by
  intro n
  rw [Option.some.injEq]
  constructor
  · rintro rfl
    exact ⟨i, rfl, LoopWaits.succ_iff.mpr (.inl ⟨rfl, hloop⟩)⟩
  · rintro ⟨f, rfl, hf⟩
    rcases LoopWaits.succ_iff.mp hf with ⟨rfl, _⟩ | ⟨_, hno, _⟩
    · rfl
    · exact absurd hloop hno

/-- Behind a `{` that passes no loop by, none waits. -/
theorem taken (hl : kindAt ts i = .leftBrace) (hpass : ¬ PassesLoop ts i) :
    AwaitsBinding ts (i + 1) none := by
  refine fun n => ⟨nofun, ?_⟩
  rintro ⟨f, rfl, hf⟩
  rcases LoopWaits.succ_iff.mp hf with ⟨_, hloop⟩ | ⟨_, _, hpass'⟩
  · have hk := hl.symm.trans hloop.1
    cases hk
  · exact absurd (hpass' hl) hpass

end AwaitsBinding

/-! ## Bodies of classes -/

/-- The body of a class is the first `{` behind its word. -/
theorem firstBrace_of_classBody (hts : EndsInEof ts) {k : Nat} {h : ClassHeader}
    (hh : classHeaderAt ts k = some h) (hb : h.body = some b) : FirstBraceAfter ts k b :=
  (leadsTo_of_classBody hts hh hb).firstBrace

theorem classHeaderAt_eq_none_of_ne (hts : EndsInEof ts) (h : kindAt ts i ≠ .kwClass) :
    classHeaderAt ts i = none := by
  cases hh : classHeaderAt ts i with
  | none => rfl
  | some header => exact absurd ((classHeaderAt_eq_some_iff hts).mp hh).word_kind h

/-- In front of token `i`, the class waited for is the one of the last header behind, if its body is
still to come. -/
structure AwaitsClass (ts : List Token) (i : Nat) (awaited : Option (Nat × String)) : Prop where
  sound : ∀ {b : Nat} {name : String}, awaited = some (b, name) →
    ∃ k < i, (classHeaderAt ts k).bind (·.body) = some b ∧ ∀ j < i, k < j → kindAt ts j ≠ .kwClass
  complete : ∀ {k b : Nat}, k < i → (classHeaderAt ts k).bind (·.body) = some b → i ≤ b →
    (∀ j < i, k < j → kindAt ts j ≠ .kwClass) → ∃ name, awaited = some (b, name)

namespace AwaitsClass

variable {awaited : Option (Nat × String)}

/-- A token that is no `class`. -/
theorem quiet (h : AwaitsClass ts i awaited) (hts : EndsInEof ts) (hk : kindAt ts i ≠ .kwClass) :
    AwaitsClass ts (i + 1) awaited := by
  constructor
  · intro b name hawaited
    obtain ⟨k, hlt, hb, hlast⟩ := h.sound hawaited
    refine ⟨k, by omega, hb, fun j hj hkj => ?_⟩
    rcases Nat.lt_succ_iff_lt_or_eq.mp hj with hj | rfl
    · exact hlast j hj hkj
    · exact hk
  · intro k b hlt hb hle hlast
    rcases Nat.lt_succ_iff_lt_or_eq.mp hlt with hlt | rfl
    · exact h.complete hlt hb (by omega) fun j hj => hlast j (by omega)
    · rw [classHeaderAt_eq_none_of_ne hts hk] at hb
      cases hb

/-- A `class` takes the place of any other, whether it has a body or not. -/
theorem header (hk : kindAt ts i = .kwClass) :
    AwaitsClass ts (i + 1)
      ((classHeaderAt ts i).bind fun h => h.body.map fun b => (b, h.name)) := by
  constructor
  · intro b name hawaited
    obtain ⟨h, hh, hmap⟩ := Option.bind_eq_some_iff.mp hawaited
    obtain ⟨body, hbody, hpair⟩ := Option.map_eq_some_iff.mp hmap
    obtain ⟨rfl, _⟩ := Prod.mk.inj hpair
    exact ⟨i, Nat.lt_succ_self i, by rw [hh]; exact hbody, fun j hj hij => by omega⟩
  · intro k b hlt hb hle hlast
    rcases Nat.lt_succ_iff_lt_or_eq.mp hlt with hlt | rfl
    · exact absurd hk (hlast i (Nat.lt_succ_self i) hlt)
    · obtain ⟨h, hh, hbody⟩ := Option.bind_eq_some_iff.mp hb
      exact ⟨h.name, by rw [hh, Option.bind_some, hbody, Option.map_some]⟩

/-- Behind a `{` no class waits for its body. -/
theorem opened (hts : EndsInEof ts) (hl : kindAt ts i = .leftBrace) :
    AwaitsClass ts (i + 1) none := by
  refine ⟨nofun, fun {k b} hlt hb hle hlast => ?_⟩
  obtain ⟨h, hh, hbody⟩ := Option.bind_eq_some_iff.mp hb
  have hword := ((classHeaderAt_eq_some_iff hts).mp hh).word_kind
  rcases Nat.lt_succ_iff_lt_or_eq.mp hlt with hlt | rfl
  · exact absurd hl ((firstBrace_of_classBody hts hh hbody).2.2 i hle hlt)
  · cases hl.symm.trans hword

/-- At a `{` the class waited for is the one whose body opens there. -/
theorem filter_eq_none_iff (h : AwaitsClass ts i awaited) :
    awaited.filter (·.1 == i) = none ↔ ¬ ClassBodyAt ts i := by
  rw [Option.filter_eq_none_iff]
  constructor
  · rintro hnone ⟨k, hlt, hb, hlast⟩
    obtain ⟨name, hawaited⟩ := h.complete hlt hb (Nat.le_refl i) hlast
    exact hnone (i, name) hawaited (beq_self_eq_true i)
  · rintro hbody ⟨b, name⟩ hawaited hb
    obtain rfl : b = i := by simpa using hb
    obtain ⟨k, hlt, hb, hlast⟩ := h.sound hawaited
    exact hbody ⟨k, hlt, hb, hlast⟩

end AwaitsClass

/-- At a `{` the header waited for is the one whose body opens there. -/
theorem AwaitsBody.filter_eq_none_iff (hts : EndsInEof ts) {awaited : Option (Nat × List Param)}
    (h : AwaitsBody ts i awaited) :
    awaited.filter (·.1 == i) = none ↔ ¬ ∃ k < i, (callableAt ts k).bind (·.body) = some i := by
  rw [Option.filter_eq_none_iff]
  constructor
  · rintro hnone ⟨k, hlt, hb⟩
    obtain ⟨header, hh, hbody⟩ := Option.bind_eq_some_iff.mp hb
    exact hnone _ (h.complete hlt hh hbody (Nat.le_refl i)) (beq_self_eq_true i)
  · rintro hbody ⟨b, ps⟩ hawaited hb
    obtain rfl : b = i := by simpa using hb
    obtain ⟨k, header, hh, hb⟩ := h.sound hawaited
    exact hbody ⟨k, (firstBrace_of_body hts hh hb).1, by rw [hh]; exact hb⟩

end Waiting

/-! ## What scopes hold of loops -/

theorem Scope.mem_foldl_define {α : Type} {f : α → Variable} {xs : List α} {s : Scope}
    {w : Variable} (h : w ∈ (xs.foldl (fun s a => s.define (f a)) s).bindings) :
    w ∈ s.bindings ∨ ∃ a ∈ xs, w = f a := by
  induction xs generalizing s with
  | nil => exact .inl h
  | cons a xs ih =>
    rcases ih h with h | ⟨b, hb, rfl⟩
    · rcases Scope.mem_define.mp h with h | ⟨rfl, _⟩
      · exact .inl h
      · exact .inr ⟨a, List.mem_cons_self, rfl⟩
    · exact .inr ⟨b, List.mem_cons_of_mem a hb, rfl⟩

namespace Resolve

/-- The scope of the block holds the variables of the loops that the block takes, and of no
others. -/
def HoldsLoops (doc : Document) (block : Block) (scope : Scope) : Prop :=
  ∀ f, LoopAt doc.tokens f → (bindingVariable (doc.token (f + 1)) ∈ scope.bindings ↔
    ∃ b, block = .braces b ∧ TakesLoop doc.tokens f b)

section Loops

variable {doc : Document} {f i : Nat} {scope : Scope}

/-- The variable of a loop is told by its place. -/
theorem index_of_bindingVariable (hdoc : doc.Streamed) (hf : LoopAt doc.tokens f) {v : Variable}
    (hname : doc.kind (i + 1) ≠ .eof) (hplace : v.declaredAt = (doc.token (i + 1)).span)
    (h : bindingVariable (doc.token (f + 1)) = v) : f = i := by
  have hspan : (doc.token (f + 1)).span = (doc.token (i + 1)).span := by
    rw [← hplace, ← h]
    rfl
  have hflen := hdoc.endsInEof.succ_lt_of_eq hf.2.1 nofun
  have hilen := hdoc.endsInEof.succ_lt hname
  have hindex := hdoc.index_eq_of_start_eq (by omega) (by omega)
    (congrArg (fun s : Span => s.start.offset) hspan)
  omega

/-- A scope that opens with no variable of a loop, at a `{` that takes none. -/
theorem holdsLoops_of_not_takes (hscope : ∀ f, LoopAt doc.tokens f →
      bindingVariable (doc.token (f + 1)) ∉ scope.bindings)
    (htakes : ∀ f, ¬ TakesLoop doc.tokens f i) : HoldsLoops doc (.braces i) scope := by
  intro f hf
  refine iff_of_false (hscope f hf) ?_
  rintro ⟨b, hb, htake⟩
  obtain rfl := Block.braces.inj hb
  exact htakes f htake

/-- The scope of a `{` that takes a loop. -/
theorem holdsLoops_of_takes (hdoc : doc.Streamed) (htake : TakesLoop doc.tokens f i)
    (kind : ScopeKind) :
    HoldsLoops doc (.braces i)
      ((⟨kind, []⟩ : Scope).define (bindingVariable (doc.token (f + 1)))) := by
  have hf := htake.1.2.1
  intro g hg
  rw [Scope.mem_define]
  constructor
  · rintro (hmem | ⟨heq, _⟩)
    · cases hmem
    · have hname : doc.kind (f + 1) ≠ .eof := by
        rw [show doc.kind (f + 1) = .identifier from hf.2.1]
        nofun
      obtain rfl := index_of_bindingVariable hdoc hg hname rfl heq
      exact ⟨i, rfl, htake⟩
  · rintro ⟨b, hb, htake'⟩
    obtain rfl := Block.braces.inj hb
    obtain rfl := htake.1.unique htake'.1
    exact .inr ⟨rfl, rfl⟩

/-- A variable that `let` or `var` declares is not that of a loop. -/
theorem HoldsLoops.define {block : Block} (h : HoldsLoops doc block scope) (hdoc : doc.Streamed)
    {isMutable : Bool} (hword : doc.kind i = binderWord isMutable)
    (hname : doc.kind (i + 1) = .identifier) {v : Variable}
    (hplace : v.declaredAt = (doc.token (i + 1)).span) : HoldsLoops doc block (scope.define v) := by
  intro f hf
  rw [← h f hf, Scope.mem_define]
  refine or_iff_left ?_
  rintro ⟨heq, _⟩
  obtain rfl := index_of_bindingVariable hdoc hf (by rw [hname]; nofun) hplace heq
  have hk := hf.1.symm.trans hword
  cases isMutable <;> cases hk

end Loops

/-! ## The walk -/

/-- The state just before token `i` has the variables of loops in the scopes of the blocks that take
them, and waits for the bodies and blocks that are to come. -/
structure State.Keeps (doc : Document) (i : Nat) (st : State) : Prop where
  scopes : List.Forall₂ (HoldsLoops doc) (openBlocks doc.tokens i) st.scopes.scopes
  body : AwaitsBody doc.tokens i st.awaitedBody
  classBody : AwaitsClass doc.tokens i st.awaitedClass
  binding : AwaitsBinding doc.tokens i st.awaitedBinding

namespace State.Keeps

variable {doc : Document} {i : Nat} {st : State}

theorem initial (doc : Document) : State.Keeps doc 0 {} where
  scopes := by
    refine .cons (fun f _ => iff_of_false nofun ?_) .nil
    rintro ⟨b, hb, _⟩
    cases hb
  body := ⟨nofun, fun hlt => absurd hlt (Nat.not_lt_zero _)⟩
  classBody := ⟨nofun, fun hlt => absurd hlt (Nat.not_lt_zero _)⟩
  binding := by
    refine fun n => ⟨nofun, ?_⟩
    rintro ⟨f, _, hlt, _⟩
    exact absurd hlt (Nat.not_lt_zero _)

/-- A `{` that opens the body of a function or constructor. -/
theorem openFunction (h : st.Keeps doc i) (hts : EndsInEof doc.tokens)
    (hl : doc.kind i = .leftBrace)
    (hbody : ∃ k < i, (callableAt doc.tokens k).bind (·.body) = some i) (params : List Param) :
    (st.openFunction params).Keeps doc (i + 1) where
  scopes := by
    have hscopes : (st.openFunction params).scopes.scopes =
        params.foldl (fun s p => s.define (parameterVariable p)) (⟨.function, []⟩ : Scope) ::
          st.scopes.scopes :=
      ScopeStack.scopes_foldl_define parameterVariable params
        (ScopeStack.scopes_push st.scopes .function)
    rw [openBlocks_of_leftBrace hl, hscopes]
    refine .cons (holdsLoops_of_not_takes (fun f _ hmem => ?_) fun f htake => ?_) h.scopes
    · rcases Scope.mem_foldl_define hmem with hmem | ⟨p, _, heq⟩
      · cases hmem
      · have hkind := congrArg Variable.kind heq
        cases hkind
    · exact htake.2.2 (.inl hbody)
  body := .opened hts hl
  classBody := h.classBody.quiet hts (by rw [show kindAt doc.tokens i = _ from hl]; nofun)
  binding := by
    refine h.binding.quiet (fun hloop => ?_) fun _ => .inl hbody
    cases (show kindAt doc.tokens i = _ from hl).symm.trans hloop.1

/-- Any other `{`. -/
theorem openBlock (h : st.Keeps doc i) (hdoc : doc.Streamed) (hl : doc.kind i = .leftBrace)
    (hbody : ¬ ∃ k < i, (callableAt doc.tokens k).bind (·.body) = some i) :
    (st.openBlock doc i).Keeps doc (i + 1) := by
  have hts := hdoc.endsInEof
  have hkind : kindAt doc.tokens i = .leftBrace := hl
  have hclass := h.classBody.filter_eq_none_iff
  -- a block that takes no loop starts empty
  have hempty : (∀ f, ¬ TakesLoop doc.tokens f i) →
      List.Forall₂ (HoldsLoops doc) (openBlocks doc.tokens (i + 1))
        (st.scopes.push .block).scopes := by
    intro htakes
    rw [openBlocks_of_leftBrace hl, ScopeStack.scopes_push]
    exact .cons (holdsLoops_of_not_takes (fun f _ => nofun) htakes) h.scopes
  unfold State.openBlock
  split
  · rename_i b name hfilter
    have hpass : PassesLoop doc.tokens i := by
      refine .inr (Decidable.not_not.mp fun hnot => ?_)
      rw [hclass.mpr hnot] at hfilter
      cases hfilter
    refine ⟨hempty fun f htake => htake.2.2 hpass, .opened hts hl, .opened hts hl, ?_⟩
    refine h.binding.quiet (fun hloop => ?_) fun _ => hpass
    cases hkind.symm.trans hloop.1
  · rename_i n hfilter hn
    have hpass : ¬ PassesLoop doc.tokens i := not_or.mpr ⟨hbody, hclass.mp hfilter⟩
    obtain ⟨f, rfl, hwaits⟩ := (h.binding n).mp hn
    refine ⟨?_, .opened hts hl, .opened hts hl, .taken hkind hpass⟩
    have hscopes := ScopeStack.scopes_define (ScopeStack.scopes_push st.scopes .block)
      (bindingVariable (doc.token (f + 1)))
    rw [openBlocks_of_leftBrace hl, hscopes]
    exact .cons (holdsLoops_of_takes hdoc ⟨hwaits, hkind, hpass⟩ .block) h.scopes
  · rename_i hfilter hnone
    have hpass : ¬ PassesLoop doc.tokens i := not_or.mpr ⟨hbody, hclass.mp hfilter⟩
    refine ⟨hempty fun f htake => ?_, .opened hts hl, .opened hts hl, ?_⟩
    · have hawaited := (h.binding (f + 1)).mpr ⟨f, rfl, htake.1⟩
      rw [hnone] at hawaited
      cases hawaited
    · show AwaitsBinding doc.tokens (i + 1) st.awaitedBinding
      rw [hnone]
      exact .taken hkind hpass

theorem openScope (h : st.Keeps doc i) (hdoc : doc.Streamed) (hl : doc.kind i = .leftBrace) :
    (st.openScope doc i).Keeps doc (i + 1) := by
  have hbody := h.body.filter_eq_none_iff hdoc.endsInEof
  unfold State.openScope
  split
  · rename_i b params hfilter
    refine h.openFunction hdoc.endsInEof hl (Decidable.not_not.mp fun hnot => ?_) params
    rw [hbody.mpr hnot] at hfilter
    cases hfilter
  · rename_i hfilter
    exact h.openBlock hdoc hl (hbody.mp hfilter)

/-- A token that is no brace and no `class`, and at which no header with a body and no loop
starts. -/
theorem quiet (h : st.Keeps doc i) (hts : EndsInEof doc.tokens) (hl : doc.kind i ≠ .leftBrace)
    (hr : doc.kind i ≠ .rightBrace) (hclass : doc.kind i ≠ .kwClass)
    (hheader : ∀ header, callableAt doc.tokens i = some header → header.body = none)
    (hloop : ¬ LoopAt doc.tokens i) : st.Keeps doc (i + 1) where
  scopes := by
    rw [openBlocks_of_ne hl hr]
    exact h.scopes
  body := h.body.quiet hheader
  classBody := h.classBody.quiet hts hclass
  binding := h.binding.quiet hloop fun hk => absurd hk hl

theorem closeScope (h : st.Keeps doc i) (hts : EndsInEof doc.tokens)
    (hr : doc.kind i = .rightBrace) : st.closeScope.Keeps doc (i + 1) where
  scopes := ScopeStack.forall₂_pop h.scopes hr
  body := by
    have hkind : kindAt doc.tokens i = .rightBrace := hr
    have hnone := Follows.callableAt_eq_none_of_ne hts (i := i) (by simp [hkind]) (by simp [hkind])
    exact h.body.quiet (by simp [hnone])
  classBody := h.classBody.quiet hts (by rw [show kindAt doc.tokens i = _ from hr]; nofun)
  binding := by
    have hkind : kindAt doc.tokens i = .rightBrace := hr
    exact h.binding.quiet (by simp [LoopAt, hkind]) (by simp [hkind])

theorem expectBody (h : st.Keeps doc i) (hts : EndsInEof doc.tokens)
    (hword : doc.kind i = .kwFn ∨ doc.kind i = .kwConstructor) :
    (st.expectBody (callableAt doc.tokens i)).Keeps doc (i + 1) := by
  have hl : doc.kind i ≠ .leftBrace := by rcases hword with hk | hk <;> simp [hk]
  have hr : doc.kind i ≠ .rightBrace := by rcases hword with hk | hk <;> simp [hk]
  have hclass : doc.kind i ≠ .kwClass := by rcases hword with hk | hk <;> simp [hk]
  have hloop : ¬ LoopAt doc.tokens i := by
    rintro ⟨hfor, _⟩
    have hfor : doc.kind i = .kwFor := hfor
    rcases hword with hk | hk <;> simp [hk] at hfor
  unfold State.expectBody
  split
  · rename_i header hh
    split
    · rename_i b hb
      refine ⟨?_, .header hts hh hb, h.classBody.quiet hts hclass,
        h.binding.quiet hloop fun hk => absurd hk hl⟩
      rw [openBlocks_of_ne hl hr]
      exact h.scopes
    · rename_i hb
      refine h.quiet hts hl hr hclass (fun header' hh' => ?_) hloop
      rw [hh] at hh'
      rw [← Option.some.inj hh', hb]
  · rename_i hh
    exact h.quiet hts hl hr hclass (by simp [hh]) hloop

theorem expectClass (h : st.Keeps doc i) (hts : EndsInEof doc.tokens)
    (hk : doc.kind i = .kwClass) :
    (st.expectClass (classHeaderAt doc.tokens i)).Keeps doc (i + 1) := by
  have hkind : kindAt doc.tokens i = .kwClass := hk
  have hnone := Follows.callableAt_eq_none_of_ne hts (i := i) (by simp [hkind]) (by simp [hkind])
  refine ⟨?_, h.body.quiet (by simp [hnone]), .header hk,
    h.binding.quiet (by simp [LoopAt, hkind]) (by simp [hkind])⟩
  rw [openBlocks_of_ne (by simp [hkind]) (by simp [hkind])]
  exact h.scopes

theorem expectLoop (h : st.Keeps doc i) (hts : EndsInEof doc.tokens) (hk : doc.kind i = .kwFor) :
    (st.expectLoop doc i).Keeps doc (i + 1) := by
  have hkind : kindAt doc.tokens i = .kwFor := hk
  have hnone := Follows.callableAt_eq_none_of_ne hts (i := i) (by simp [hkind]) (by simp [hkind])
  unfold State.expectLoop
  split
  · rename_i hloop
    refine ⟨?_, h.body.quiet (by simp [hnone]), h.classBody.quiet hts (by simp [hkind]),
      .loop ⟨hkind, hloop⟩⟩
    rw [openBlocks_of_ne (by simp [hkind]) (by simp [hkind])]
    exact h.scopes
  · rename_i hloop
    exact h.quiet hts (by simp [hk]) (by simp [hk]) (by simp [hk]) (by simp [hnone])
      fun hl => hloop hl.2

theorem declare (h : st.Keeps doc i) (hdoc : doc.Streamed) {isMutable : Bool}
    (hk : doc.kind i = binderWord isMutable) :
    (st.declare doc (varDeclAt doc.tokens i)).Keeps doc (i + 1) := by
  have hts := hdoc.endsInEof
  have hne : ∀ {k : Kind}, k ≠ .kwLet → k ≠ .kwVar → doc.kind i ≠ k := by
    intro k hlet hvar heq
    rw [hk] at heq
    cases isMutable with
    | false => exact hlet heq.symm
    | true => exact hvar heq.symm
  have hnone : callableAt doc.tokens i = none :=
    Follows.callableAt_eq_none_of_ne hts (hne nofun nofun) (hne nofun nofun)
  have hquiet := h.quiet hts (hne nofun nofun) (hne nofun nofun) (hne nofun nofun)
    (by simp [hnone]) fun hloop => hne (k := .kwFor) nofun nofun hloop.1
  unfold State.declare
  split
  · rename_i d hd
    obtain ⟨stop, hread⟩ := (varDeclAt_eq_some_iff hts).mp hd
    refine ⟨?_, hquiet.body, hquiet.classBody, hquiet.binding⟩
    have hscopes := hquiet.scopes
    cases hblocks : openBlocks doc.tokens (i + 1) with
    | nil => simp [openBlocks] at hblocks
    | cons block blocks =>
      rw [hblocks] at hscopes
      obtain ⟨top, rest, htop, hrest, hstack⟩ := List.forall₂_cons_left_iff.mp hscopes
      rw [ScopeStack.scopes_define hstack]
      exact .cons (htop.define hdoc hk hread.name_kind hread.nameSpan_eq) hrest
  · exact hquiet

/-- **One token of the walk.** -/
theorem step (h : st.Keeps doc i) (hdoc : doc.Streamed) : (st.step doc i).Keeps doc (i + 1) := by
  have hts := hdoc.endsInEof
  unfold State.step
  split
  · rename_i hk
    exact h.openScope hdoc hk
  · rename_i hk
    exact h.closeScope hts hk
  · rename_i hk
    rw [← Follows.callableAt_of_kwFn hts hk]
    exact h.expectBody hts (.inl hk)
  · rename_i hk
    rw [← Follows.callableAt_of_kwConstructor hts hk]
    exact h.expectBody hts (.inr hk)
  · rename_i hk
    exact h.expectClass hts hk
  · rename_i hk
    exact h.expectLoop hts hk
  · rename_i hk
    exact h.declare hdoc (show doc.kind i = binderWord false from hk)
  · rename_i hk
    exact h.declare hdoc (show doc.kind i = binderWord true from hk)
  · rename_i hleft hright hfn hconstructor hclass hfor _ _
    exact h.quiet hts hleft hright hclass
      (by simp [Follows.callableAt_eq_none_of_ne hts hfn hconstructor]) fun hloop => hfor hloop.1

end State.Keeps

/-- **The walk has the names of loops in the blocks that take them.** -/
theorem stateBefore_keeps {doc : Document} (hdoc : doc.Streamed) (i : Nat) :
    (stateBefore doc i).Keeps doc i := by
  induction i with
  | zero => exact .initial doc
  | succ i ih => exact ih.step hdoc

/-! ## Names in scopes -/

/-- In front of token `i` the scope of the block holds the variable of the loop at token `f`. -/
def BoundIn (doc : Document) (f i : Nat) (block : Block) : Prop :=
  ∃ p ∈ (openBlocks doc.tokens i).zip (stateBefore doc i).scopes.scopes,
    p.1 = block ∧ bindingVariable (doc.token (f + 1)) ∈ p.2.bindings

instance (doc : Document) (f i : Nat) (block : Block) : Decidable (BoundIn doc f i block) :=
  inferInstanceAs (Decidable (∃ p ∈ _, _))

theorem boundIn_iff {doc : Document} (hdoc : doc.Streamed) {f i : Nat} (hf : LoopAt doc.tokens f)
    {block : Block} : BoundIn doc f i block ↔
      block.OpenAt doc.tokens i ∧ ∃ b, block = .braces b ∧ TakesLoop doc.tokens f b := by
  obtain ⟨hlen, hpairs⟩ := List.forall₂_iff_zip.mp (stateBefore_keeps hdoc i).scopes
  constructor
  · rintro ⟨⟨block, scope⟩, hmem, rfl, hbound⟩
    exact ⟨mem_openBlocks_iff.mp (List.of_mem_zip hmem).1, (hpairs hmem f hf).mp hbound⟩
  · rintro ⟨hopen, htake⟩
    obtain ⟨n, hn, hblock⟩ := List.mem_iff_getElem.mp (mem_openBlocks_iff.mpr hopen)
    have hzip : (block, (stateBefore doc i).scopes.scopes[n]) ∈
        (openBlocks doc.tokens i).zip (stateBefore doc i).scopes.scopes := by
      rw [← hblock]
      exact List.mem_iff_getElem.mpr ⟨n, by rw [List.length_zip]; omega, List.getElem_zip⟩
    exact ⟨_, hzip, rfl, (hpairs hzip f hf).mpr htake⟩

/-- **The name of a loop goes to the block that takes it.** The walk has one scope for each open
block, and the variable of the loop is in the scope of the block that takes it, as long as this is
open, and in no other. That is the first block behind the loop alone exactly if a first block that
passes the loop by leaves it to none. -/
theorem boundIn_iff_takesLoop (uri text : String) (f : Nat)
    (hf : LoopAt (Document.ofText uri text).tokens f) :
    let doc := Document.ofText uri text
    (∀ i, (stateBefore doc i).scopes.depth = (openBlocks doc.tokens i).length) ∧
    (∀ i block, BoundIn doc f i block ↔
      block.OpenAt doc.tokens i ∧ ∃ b, block = .braces b ∧ TakesLoop doc.tokens f b) ∧
    ((∀ i block, BoundIn doc f i block →
        ∃ b, block = .braces b ∧ FirstBraceAfter doc.tokens f b) ↔
      ∀ first, FirstBraceAfter doc.tokens f first → PassesLoop doc.tokens first →
        ∀ b, ¬ TakesLoop doc.tokens f b) := by
  intro doc
  have hdoc : doc.Streamed := Document.streamed_ofText uri text
  have hbound : ∀ i block, BoundIn doc f i block ↔
      block.OpenAt doc.tokens i ∧ ∃ b, block = .braces b ∧ TakesLoop doc.tokens f b :=
    fun i block => boundIn_iff hdoc hf
  refine ⟨?_, hbound, ?_, ?_⟩
  · intro i
    have hlen := (stateBefore_keeps hdoc i).scopes.length_eq
    rw [hlen, ScopeStack.scopes, List.length_append]
    rfl
  · intro honly first hfirst hpass b htake
    -- behind the `{` that takes the loop, its block is open
    have hopen : (Block.braces b).OpenAt doc.tokens (b + 1) :=
      Block.openAt_succ_iff.mpr (.inl ⟨rfl, htake.2.1⟩)
    have hin := (hbound (b + 1) (.braces b)).mpr ⟨hopen, b, rfl, htake⟩
    obtain ⟨b', hb, hfirst'⟩ := honly (b + 1) (.braces b) hin
    obtain rfl := Block.braces.inj hb
    obtain rfl := hfirst.unique hfirst'
    exact htake.2.2 hpass
  · intro hleft i block hin
    obtain ⟨_, b, rfl, htake⟩ := (hbound i block).mp hin
    rcases htake.firstBrace_or with hfirst | ⟨first, hfirst, hpass⟩
    · exact ⟨b, rfl, hfirst⟩
    · exact absurd htake (hleft first hfirst hpass b)

/-- A loop with a block of its own has its name there. -/
theorem boundIn_own_block :
    let doc := Document.ofText "m" "for i in xs \x7b\n\x7d"
    LoopAt doc.tokens 0 ∧ FirstBraceAfter doc.tokens 0 4 ∧ BoundIn doc 0 5 (.braces 4) := by
  intro doc
  have hloop : LoopAt doc.tokens 0 := by decide +kernel
  obtain ⟨_, hbound, _⟩ := boundIn_iff_takesLoop "m" _ 0 hloop
  have htake : TakesLoop doc.tokens 0 4 := by decide +kernel
  have hopen : (Block.braces 4).OpenAt doc.tokens 5 :=
    Block.openAt_succ_iff.mpr (.inl ⟨rfl, htake.2.1⟩)
  exact ⟨hloop, by decide +kernel, (hbound 5 (.braces 4)).mpr ⟨hopen, 4, rfl, htake⟩⟩

/-- The first `{` behind the loop opens the body of a function. The name goes to the block of an
`if` further down, which cannot declare it. -/
theorem boundIn_other_block :
    let text := "for i in xs\nfn g() \x7b\n\x7d\nif (x) \x7b\n    let i = 1\n\x7d"
    let doc := Document.ofText "m" text
    LoopAt doc.tokens 0 ∧ FirstBraceAfter doc.tokens 0 8 ∧ BoundIn doc 0 15 (.braces 14) ∧
      Reports (check doc (SymbolTable.collect doc.tokens).1) (doc.token 16).span
        (redeclared "i" 1) := by
  decide +kernel

end Resolve

end AuroraLint
