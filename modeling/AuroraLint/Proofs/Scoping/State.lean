import AuroraLint.Proofs.Located.Resolve
import AuroraLint.Proofs.Scoping.Declares

/-!
# The scopes of the walk are the open blocks

* `AwaitsBody`, `AwaitsLoop` : what the walk waits for is what lies behind it and is still open.
* `Resolve.State.Follows`    : the state of the walk knows the open blocks and what is waited for.

Main statement: `Resolve.stateBefore_follows`. The step lemma is `State.Follows.step`; at a `{` the
header or loop that is waited for is the one whose block opens there.
-/

set_option autoImplicit false

namespace AuroraLint

/-! ## What is waited for -/

/-- In front of token `i`, the body waited for is that of the header behind whose body is still to
come. -/
structure AwaitsBody (ts : List Token) (i : Nat) (awaited : Option (Nat × List Param)) : Prop where
  sound : ∀ {b : Nat} {ps : List Param}, awaited = some (b, ps) →
    ∃ k h, callableAt ts k = some h ∧ h.body = some b
  complete : ∀ {k b : Nat} {h : FnHeader}, k < i → callableAt ts k = some h → h.body = some b →
    i ≤ b → awaited = some (b, h.params)

/-- In front of token `i`, the loop waited for is the one behind whose block is still to come. -/
structure AwaitsLoop (ts : List Token) (i : Nat) (awaited : Option Nat) : Prop where
  sound : ∀ {n : Nat}, awaited = some n →
    ∃ f, n = f + 1 ∧ f < i ∧ LoopAt ts f ∧ ∀ j < i, f < j → kindAt ts j ≠ .leftBrace
  complete : ∀ {f b : Nat}, f < i → LoopAt ts f → FirstBraceAfter ts f b → i ≤ b →
    awaited = some (f + 1)

section Awaiting

variable {ts : List Token} {i : Nat}

namespace AwaitsBody

variable {awaited : Option (Nat × List Param)}

/-- A token at which no header with a body starts. -/
theorem quiet (h : AwaitsBody ts i awaited)
    (hheader : ∀ header, callableAt ts i = some header → header.body = none) :
    AwaitsBody ts (i + 1) awaited := by
  refine ⟨h.sound, fun {k b header} hlt hh hb hle => ?_⟩
  rcases Nat.lt_succ_iff_lt_or_eq.mp hlt with hlt | rfl
  · exact h.complete hlt hh hb (by omega)
  · rw [hheader header hh] at hb
    cases hb

/-- A header with a body takes the place of any other: two that wait would share a body. -/
theorem header (hts : EndsInEof ts) {header : FnHeader} {b : Nat}
    (hh : callableAt ts i = some header) (hb : header.body = some b) :
    AwaitsBody ts (i + 1) (some (b, header.params)) := by
  constructor
  · intro b' ps heq
    obtain ⟨rfl, rfl⟩ := Prod.mk.inj (Option.some.inj heq)
    exact ⟨i, header, hh, hb⟩
  · intro k b' header' hlt hh' hb' hle
    obtain ⟨hib, hbrace, hfirst⟩ := firstBrace_of_body hts hh hb
    obtain ⟨hkb, hbrace', hfirst'⟩ := firstBrace_of_body hts hh' hb'
    obtain rfl : b = b' := by
      rcases Nat.lt_trichotomy b b' with hlt' | heq | hlt'
      · exact absurd hbrace (hfirst' b hlt' (by omega))
      · exact heq
      · exact absurd hbrace' (hfirst b' hlt' (by omega))
    obtain ⟨rfl, rfl⟩ := callableAt_body_inj hts hh hb hh' hb'
    rfl

/-- Behind a `{` no body is waited for. -/
theorem opened (hts : EndsInEof ts) (hl : kindAt ts i = .leftBrace) :
    AwaitsBody ts (i + 1) none := by
  refine ⟨nofun, fun {k b header} hlt hh hb hle => ?_⟩
  obtain ⟨hword, _⟩ := callableAt_eq_some hts hh
  rcases Nat.lt_succ_iff_lt_or_eq.mp hlt with hlt | rfl
  · exact absurd hl ((firstBrace_of_body hts hh hb).2.2 i hle hlt)
  · simp [hl] at hword

end AwaitsBody

namespace AwaitsLoop

variable {awaited : Option Nat}

/-- A token that is no `{` and at which no loop starts. -/
theorem quiet (h : AwaitsLoop ts i awaited) (hl : kindAt ts i ≠ .leftBrace)
    (hloop : ¬ LoopAt ts i) : AwaitsLoop ts (i + 1) awaited := by
  constructor
  · intro n hn
    obtain ⟨f, rfl, hlt, hf, hfirst⟩ := h.sound hn
    refine ⟨f, rfl, by omega, hf, fun j hj hfj => ?_⟩
    rcases Nat.lt_succ_iff_lt_or_eq.mp hj with hj | rfl
    · exact hfirst j hj hfj
    · exact hl
  · intro f b hlt hf hb hle
    rcases Nat.lt_succ_iff_lt_or_eq.mp hlt with hlt | rfl
    · exact h.complete hlt hf hb (by omega)
    · exact absurd hf hloop

/-- A loop takes the place of any other: of two that wait, one would start before the block of the
other. -/
theorem loop (hts : EndsInEof ts) (hloops : PlainLoops ts) (hloop : LoopAt ts i) :
    AwaitsLoop ts (i + 1) (some (i + 1)) := by
  constructor
  · intro n hn
    obtain rfl := Option.some.inj hn
    exact ⟨i, rfl, Nat.lt_succ_self i, hloop, fun j hj hij => by omega⟩
  · intro f b hlt hf hb hle
    rcases Nat.lt_succ_iff_lt_or_eq.mp hlt with hlt | rfl
    · have hflen := hts.succ_lt_of_eq hf.1 nofun
      have hblen := hts.succ_lt_of_eq hb.2.1 nofun
      exact absurd hloop ((hloops f (by omega) hf b (by omega) hb).2 i hle hlt)
    · rfl

/-- Behind a `{` no loop is waited for. -/
theorem opened (hl : kindAt ts i = .leftBrace) : AwaitsLoop ts (i + 1) none := by
  refine ⟨nofun, fun {f b} hlt hf hb hle => ?_⟩
  rcases Nat.lt_succ_iff_lt_or_eq.mp hlt with hlt | rfl
  · exact absurd hl (hb.2.2 i hle hlt)
  · have := hf.1
    simp [hl] at this

/-- The loop that waits at a `{` waits for the block that opens there. -/
theorem firstBrace (h : AwaitsLoop ts i awaited) (hl : kindAt ts i = .leftBrace) {n : Nat}
    (hn : awaited = some n) : ∃ f, n = f + 1 ∧ LoopAt ts f ∧ FirstBraceAfter ts f i := by
  obtain ⟨f, rfl, hlt, hloop, hfirst⟩ := h.sound hn
  exact ⟨f, rfl, hloop, hlt, hl, hfirst⟩

/-- No loop waits at the body of a function, constructor or class. -/
theorem eq_none (h : AwaitsLoop ts i awaited) (hts : EndsInEof ts) (hloops : PlainLoops ts)
    (hl : kindAt ts i = .leftBrace) (hbody : IsBody ts i) : awaited = none := by
  cases hn : awaited with
  | none => rfl
  | some n =>
    obtain ⟨f, rfl, hloop, hfirst⟩ := h.firstBrace hl hn
    exact absurd hbody (hloops.not_body hts hloop hfirst)

end AwaitsLoop

end Awaiting

/-! ## The state of the walk -/

namespace Resolve

/-- The state just before token `i` has the scopes of the open blocks, and waits for the bodies and
blocks of the headers and loops that lie behind. -/
structure State.Follows (ts : List Token) (i : Nat) (st : State) : Prop where
  scopes : st.scopes.Holds ts i
  body : AwaitsBody ts i st.awaitedBody
  loop : AwaitsLoop ts i st.awaitedBinding
  class_sound : ∀ {b : Nat} {name : String}, st.awaitedClass = some (b, name) → IsBody ts b

namespace State.Follows

variable {ts : List Token} {doc : Document} {i : Nat} {st : State}

theorem initial (ts : List Token) : State.Follows ts 0 {} where
  scopes := by
    refine .cons ⟨nofun, fun hd => ?_⟩ .nil
    cases hd with
    | word hlt => exact absurd hlt (Nat.not_lt_zero _)
  body := ⟨nofun, fun hlt => absurd hlt (Nat.not_lt_zero _)⟩
  loop := ⟨nofun, fun hlt => absurd hlt (Nat.not_lt_zero _)⟩
  class_sound := nofun

theorem callableAt_of_kwFn (hts : EndsInEof ts) (hk : kindAt ts i = .kwFn) :
    callableAt ts i = fnHeaderAt ts i := by
  have hnone : constructorHeaderAt ts i = none := by
    cases hh : constructorHeaderAt ts i with
    | none => rfl
    | some h =>
      have := ((constructorHeaderAt_eq_some_iff hts).mp hh).word_kind
      simp [hk] at this
  rw [callableAt, hnone, Option.or_none]

theorem callableAt_of_kwConstructor (hts : EndsInEof ts) (hk : kindAt ts i = .kwConstructor) :
    callableAt ts i = constructorHeaderAt ts i := by
  have hnone : fnHeaderAt ts i = none := by
    cases hh : fnHeaderAt ts i with
    | none => rfl
    | some h =>
      have := ((fnHeaderAt_eq_some_iff hts).mp hh).word_kind
      simp [hk] at this
  rw [callableAt, hnone, Option.none_or]

theorem callableAt_eq_none_of_ne (hts : EndsInEof ts) (hfn : kindAt ts i ≠ .kwFn)
    (hconstructor : kindAt ts i ≠ .kwConstructor) : callableAt ts i = none := by
  cases hh : callableAt ts i with
  | none => rfl
  | some h =>
    rcases (callableAt_eq_some hts hh).1 with hk | hk
    · exact absurd hk hfn
    · exact absurd hk hconstructor

/-- A `{` that opens the body of the header waited for. -/
theorem openFunction (h : st.Follows doc.tokens i) (hdoc : doc.Streamed)
    (hloops : PlainLoops doc.tokens) (hl : doc.kind i = .leftBrace) {k : Nat} {header : FnHeader}
    (hh : callableAt doc.tokens k = some header) (hb : header.body = some i) :
    (st.openFunction header.params).Follows doc.tokens (i + 1) where
  scopes := by
    refine h.scopes.opened hdoc.endsInEof hl (Scope.holds_params hdoc hloops hh hb .function) ?_
    exact ScopeStack.scopes_foldl_define parameterVariable header.params
      (ScopeStack.scopes_push st.scopes .function)
  body := .opened hdoc.endsInEof hl
  loop := by
    have hnone := h.loop.eq_none hdoc.endsInEof hloops hl (isBody_of_callable hdoc.endsInEof hh hb)
    show AwaitsLoop doc.tokens (i + 1) st.awaitedBinding
    rw [hnone]
    exact .opened hl
  class_sound := h.class_sound

/-- Any other `{`. -/
theorem openBlock (h : st.Follows doc.tokens i) (hts : EndsInEof doc.tokens)
    (hloops : PlainLoops doc.tokens) (hl : doc.kind i = .leftBrace)
    (hbody : ∀ k header, callableAt doc.tokens k = some header → header.body ≠ some i) :
    (st.openBlock doc i).Follows doc.tokens (i + 1) := by
  have hempty : st.awaitedBinding = none →
      (st.scopes.push .block).Holds doc.tokens (i + 1) := by
    intro hnone
    refine h.scopes.opened hts hl (Scope.holds_empty hbody (fun f hf hfi => ?_) .block) rfl
    have := h.loop.complete hfi.1 hf hfi (Nat.le_refl i)
    rw [hnone] at this
    cases this
  unfold State.openBlock
  split
  · rename_i b name hclass
    obtain ⟨hawaited, hb⟩ := Option.filter_eq_some_iff.mp hclass
    obtain rfl : b = i := by simpa using hb
    have hnone := h.loop.eq_none hts hloops hl (h.class_sound hawaited)
    refine ⟨hempty hnone, .opened hts hl, ?_, nofun⟩
    show AwaitsLoop doc.tokens (b + 1) st.awaitedBinding
    rw [hnone]
    exact .opened hl
  · rename_i n _ hn
    obtain ⟨f, rfl, hloop, hfirst⟩ := h.loop.firstBrace hl hn
    refine ⟨?_, .opened hts hl, .opened hl, nofun⟩
    exact h.scopes.opened hts hl (Scope.holds_binding hts hloops hloop hfirst .block)
      (ScopeStack.scopes_define (ScopeStack.scopes_push st.scopes .block) _)
  · rename_i _ hnone
    refine ⟨hempty hnone, .opened hts hl, ?_, nofun⟩
    show AwaitsLoop doc.tokens (i + 1) st.awaitedBinding
    rw [hnone]
    exact .opened hl

theorem openScope (h : st.Follows doc.tokens i) (hdoc : doc.Streamed)
    (hloops : PlainLoops doc.tokens) (hl : doc.kind i = .leftBrace) :
    (st.openScope doc i).Follows doc.tokens (i + 1) := by
  unfold State.openScope
  split
  · rename_i b ps hbody
    obtain ⟨hawaited, hi⟩ := Option.filter_eq_some_iff.mp hbody
    obtain rfl : b = i := by simpa using hi
    obtain ⟨k, header, hh, hb⟩ := h.body.sound hawaited
    have hlt := (firstBrace_of_body hdoc.endsInEof hh hb).1
    have hcomplete := h.body.complete hlt hh hb (Nat.le_refl b)
    obtain rfl : ps = header.params := by
      rw [hawaited] at hcomplete
      exact (Prod.mk.inj (Option.some.inj hcomplete)).2
    exact h.openFunction hdoc hloops hl hh hb
  · rename_i hbody
    refine h.openBlock hdoc.endsInEof hloops hl fun k header hh hb => ?_
    have hlt := (firstBrace_of_body hdoc.endsInEof hh hb).1
    rw [h.body.complete hlt hh hb (Nat.le_refl i)] at hbody
    simp [Option.filter] at hbody

/-- A token that is no `{` and at which no header with a body and no loop starts. -/
theorem quiet (h : st.Follows ts i) (hscopes : st.scopes.Holds ts (i + 1))
    (hl : kindAt ts i ≠ .leftBrace)
    (hheader : ∀ header, callableAt ts i = some header → header.body = none)
    (hloop : ¬ LoopAt ts i) : st.Follows ts (i + 1) :=
  ⟨hscopes, h.body.quiet hheader, h.loop.quiet hl hloop, h.class_sound⟩

theorem closeScope (h : st.Follows ts i) (hts : EndsInEof ts) (hr : kindAt ts i = .rightBrace) :
    st.closeScope.Follows ts (i + 1) := by
  have hnone : callableAt ts i = none :=
    callableAt_eq_none_of_ne hts (by simp [hr]) (by simp [hr])
  refine ⟨h.scopes.closed hts hr, h.body.quiet (by simp [hnone]), h.loop.quiet (by simp [hr]) ?_,
    h.class_sound⟩
  simp [LoopAt, hr]

theorem expectBody (h : st.Follows ts i) (hts : EndsInEof ts)
    (hword : kindAt ts i = .kwFn ∨ kindAt ts i = .kwConstructor) :
    (st.expectBody (callableAt ts i)).Follows ts (i + 1) := by
  have hl : kindAt ts i ≠ .leftBrace := by rcases hword with hk | hk <;> simp [hk]
  have hr : kindAt ts i ≠ .rightBrace := by rcases hword with hk | hk <;> simp [hk]
  have hloop : ¬ LoopAt ts i := by rcases hword with hk | hk <;> simp [LoopAt, hk]
  have hscopes : st.scopes.Holds ts (i + 1) := by
    refine h.scopes.quiet hts hl hr fun m hm => ?_
    rcases hword with hk | hk <;> rw [hk] at hm <;> cases m <;> cases hm
  unfold State.expectBody
  split
  · rename_i header hh
    split
    · rename_i b hb
      exact ⟨hscopes, .header hts hh hb, h.loop.quiet hl hloop, h.class_sound⟩
    · rename_i hb
      refine h.quiet hscopes hl (fun header' hh' => ?_) hloop
      rw [hh] at hh'
      rw [← Option.some.inj hh', hb]
  · rename_i hh
    exact h.quiet hscopes hl (by simp [hh]) hloop

theorem expectClass (h : st.Follows ts i) (hts : EndsInEof ts) (hk : kindAt ts i = .kwClass) :
    (st.expectClass (classHeaderAt ts i)).Follows ts (i + 1) := by
  have hnone : callableAt ts i = none :=
    callableAt_eq_none_of_ne hts (by simp [hk]) (by simp [hk])
  have hscopes : st.scopes.Holds ts (i + 1) := by
    refine h.scopes.quiet hts (by simp [hk]) (by simp [hk]) fun m hm => ?_
    rw [hk] at hm
    cases m <;> cases hm
  refine ⟨hscopes, h.body.quiet (by simp [hnone]), h.loop.quiet (by simp [hk]) ?_, ?_⟩
  · simp [LoopAt, hk]
  · intro b name hb
    obtain ⟨header, hheader, hawaited⟩ := Option.bind_eq_some_iff.mp hb
    obtain ⟨body, hbody, hpair⟩ := Option.map_eq_some_iff.mp hawaited
    obtain ⟨rfl, rfl⟩ := Prod.mk.inj hpair
    have hr := (classHeaderAt_eq_some_iff hts).mp hheader
    have hend : i + 2 ≤ listEnd ts (i + 2) ∧ _ :=
      listEnd_bounds hts (hts.succ_lt_of_eq hr.name_kind nofun)
    refine ⟨i, ?_, .inr (by rw [hheader]; exact hbody)⟩
    rw [(hr.body_spec hbody).1, hr.last_eq]
    omega

theorem expectLoop (h : st.Follows doc.tokens i) (hts : EndsInEof doc.tokens)
    (hloops : PlainLoops doc.tokens) (hk : doc.kind i = .kwFor) :
    (st.expectLoop doc i).Follows doc.tokens (i + 1) := by
  have hkind : kindAt doc.tokens i = .kwFor := hk
  have hnone : callableAt doc.tokens i = none :=
    callableAt_eq_none_of_ne hts (by simp [hkind]) (by simp [hkind])
  have hscopes : st.scopes.Holds doc.tokens (i + 1) := by
    refine h.scopes.quiet hts (by simp [hkind]) (by simp [hkind]) fun m hm => ?_
    rw [hkind] at hm
    cases m <;> cases hm
  unfold State.expectLoop
  split
  · rename_i hloop
    exact ⟨hscopes, h.body.quiet (by simp [hnone]), .loop hts hloops ⟨hkind, hloop⟩, h.class_sound⟩
  · rename_i hloop
    exact h.quiet hscopes (by simp [hkind]) (by simp [hnone]) fun hl => hloop hl.2

theorem declare (h : st.Follows doc.tokens i) (hdoc : doc.Streamed) (hst : st.Located doc i)
    {isMutable : Bool} (hk : doc.kind i = binderWord isMutable) :
    (st.declare doc (varDeclAt doc.tokens i)).Follows doc.tokens (i + 1) := by
  have hts := hdoc.endsInEof
  have hkind : kindAt doc.tokens i = binderWord isMutable := hk
  have hl : kindAt doc.tokens i ≠ .leftBrace := by rw [hkind]; cases isMutable <;> nofun
  have hr : kindAt doc.tokens i ≠ .rightBrace := by rw [hkind]; cases isMutable <;> nofun
  have hnone : callableAt doc.tokens i = none :=
    callableAt_eq_none_of_ne hts (by rw [hkind]; cases isMutable <;> nofun)
      (by rw [hkind]; cases isMutable <;> nofun)
  have hloop : ¬ LoopAt doc.tokens i := by
    intro hloop
    rw [hloop.1] at hkind
    cases isMutable <;> cases hkind
  unfold State.declare
  split
  · rename_i d hd
    obtain ⟨stop, hread⟩ := (varDeclAt_eq_some_iff hts).mp hd
    have hlt := hts.succ_lt_of_eq hread.name_kind nofun
    refine ⟨?_, h.body.quiet (by simp [hnone]), h.loop.quiet hl hloop, h.class_sound⟩
    refine h.scopes.declared hts hread.word_kind hread.name_kind hread.name_eq rfl
      hread.nameSpan_eq fun hw => ?_
    exact Nat.le_trans (hst.scopes.lookupCurrent hw).2 (hdoc.start_le (Nat.le_succ i) (by omega))
  · rename_i hd
    refine h.quiet (h.scopes.quiet hts hl hr fun m hm hname => ?_) hl (by simp [hnone]) hloop
    have hsome := Reading.varDecl_of_name hts hm hname
    rw [varDeclAt, hsome] at hd
    cases hd

/-- **One token of the walk.** -/
theorem step (h : st.Follows doc.tokens i) (hdoc : doc.Streamed) (hst : st.Located doc i)
    (hloops : PlainLoops doc.tokens) : (st.step doc i).Follows doc.tokens (i + 1) := by
  have hts := hdoc.endsInEof
  unfold State.step
  split
  · rename_i hk
    exact h.openScope hdoc hloops hk
  · rename_i hk
    exact h.closeScope hts hk
  · rename_i hk
    rw [← callableAt_of_kwFn hts hk]
    exact h.expectBody hts (.inl hk)
  · rename_i hk
    rw [← callableAt_of_kwConstructor hts hk]
    exact h.expectBody hts (.inr hk)
  · rename_i hk
    exact h.expectClass hts hk
  · rename_i hk
    exact h.expectLoop hts hloops hk
  · rename_i hk
    exact h.declare hdoc hst (show doc.kind i = binderWord false from hk)
  · rename_i hk
    exact h.declare hdoc hst (show doc.kind i = binderWord true from hk)
  · rename_i hleft hright hfn hconstructor hclass hfor hlet hvar
    refine h.quiet (h.scopes.quiet hts hleft hright fun m hm => ?_) hleft
      (by simp [callableAt_eq_none_of_ne hts hfn hconstructor]) fun hloop => hfor hloop.1
    cases m with
    | false => exact absurd hm hlet
    | true => exact absurd hm hvar

end State.Follows

/-- **The scopes before every token are those of the open blocks.** -/
theorem stateBefore_follows {doc : Document} (hdoc : doc.Streamed) (hloops : PlainLoops doc.tokens)
    {i : Nat} (hi : i < doc.tokens.length) : (stateBefore doc i).Follows doc.tokens i := by
  induction i with
  | zero => exact .initial doc.tokens
  | succ i ih => exact (ih (by omega)).step hdoc (stateBefore_located hdoc (by omega)) hloops

end Resolve

end AuroraLint
