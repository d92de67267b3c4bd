import AuroraLint.Proofs.LoopBinding

/-!
# The scopes of functions

While a header is walked through, its body is kept in one slot, which the next header overwrites.
No header can take the slot from another: inside the list of a header no other one has a body.

* `firstOfEachName`       : the parameters that a scope gets from a list of them.
* `Resolve.functionScope` : the scope that a body starts with.
* `Resolve.openedAt`      : the scope that the walk opens at a `{`.

Main statements: `State.awaitedBody_step` — what one token does to the slot;
`awaitedBody_eq_some_iff` — so the slot holds the body that is to come, of the one header behind;
`Resolve.opensBodies_ofText` — the walk opens the scope of a function at the bodies of headers, each
with the parameters of its header, and at no other `{`.
-/

set_option autoImplicit false

namespace AuroraLint

/-! ## Parameters in a scope -/

/-- The first parameter of each name, in order. -/
def firstOfEachName : List Param → List Param
  | [] => []
  | p :: ps => p :: (firstOfEachName ps).filter fun q => q.name != p.name

/-- Of parameters that are defined one after the other, a scope gets the first of each name that it
does not have. -/
theorem Scope.foldl_define_params (ps : List Param) (s : Scope) :
    ps.foldl (fun s p => s.define (Resolve.parameterVariable p)) s =
      ⟨s.kind, s.bindings ++ ((firstOfEachName ps).filter fun p => (s.find? p.name).isNone).map
        Resolve.parameterVariable⟩ := by
  induction ps generalizing s with
  | nil => simp [firstOfEachName]
  | cons p ps ih =>
    rw [List.foldl_cons, ih, Scope.kind_define, firstOfEachName]
    have hname : (Resolve.parameterVariable p).name = p.name := rfl
    cases htaken : s.find? p.name with
    | some v =>
      have hsame : s.define (Resolve.parameterVariable p) = s := by
        simp only [Scope.define, hname, htaken]
      -- a parameter of that name is left out anyway
      have hfilter : ∀ q : Param, (s.find? q.name).isNone = true → (q.name != p.name) = true := by
        intro q hq
        rw [bne_iff_ne]
        intro heq
        rw [heq, htaken] at hq
        cases hq
      rw [hsame, List.filter_cons_of_neg (by simp [htaken]), List.filter_filter]
      congr 3
      apply List.filter_congr
      intro q _
      cases hq : (s.find? q.name).isNone with
      | true => simp [hfilter q hq]
      | false => rfl
    | none =>
      have hnew : (s.define (Resolve.parameterVariable p)).bindings =
          s.bindings ++ [Resolve.parameterVariable p] := by
        simp only [Scope.define, hname, htaken]
      rw [hnew, List.filter_cons_of_pos (by simp [htaken]), List.filter_filter, List.map_cons,
        List.append_assoc, List.singleton_append]
      congr 4
      apply List.filter_congr
      intro q _
      rw [Scope.find?_define, Option.isNone_or, hname, Bool.eq_iff_iff]
      by_cases hq : p.name = q.name
      · simp [hq]
      · simp [hq, Ne.symm hq]

/-! ## The slot -/

namespace Resolve

/-- The scope that the body of a function with these parameters starts with: the first parameter of
each name, of type `double` where no type is written. -/
def functionScope (ps : List Param) : Scope where
  kind := .function
  bindings := (firstOfEachName ps).map fun p =>
    ⟨p.name, TypeRef.typeOr p.type .double, .parameter, p.span⟩

/-- The body and the parameters that a header at token `i` is waited for with. -/
def bodyOfHeader (ts : List Token) (i : Nat) : Option (Nat × List Param) :=
  (callableAt ts i).bind fun h => h.body.map fun b => (b, h.params)

section Slot

variable {doc : Document} {i b : Nat} {ps : List Param}

theorem bodyOfHeader_eq_some_iff {ts : List Token} :
    bodyOfHeader ts i = some (b, ps) ↔
      ∃ h, callableAt ts i = some h ∧ h.body = some b ∧ h.params = ps := by
  simp [bodyOfHeader, Option.bind_eq_some_iff]

theorem State.awaitedBody_openScope (st : State) : (st.openScope doc i).awaitedBody = none := by
  unfold State.openScope
  split
  · rfl
  · unfold State.openBlock
    simp only
    split <;> rfl

/-- **What one token does to the slot.** A `{` empties it, and a header with a body fills it. -/
theorem State.awaitedBody_step (hts : EndsInEof doc.tokens) (st : State) :
    (st.step doc i).awaitedBody = if doc.kind i = .leftBrace then none
      else (bodyOfHeader doc.tokens i).or st.awaitedBody := by
  have hother : doc.kind i ≠ .kwFn → doc.kind i ≠ .kwConstructor →
      bodyOfHeader doc.tokens i = none := by
    intro hfn hconstructor
    rw [bodyOfHeader, Follows.callableAt_eq_none_of_ne hts hfn hconstructor, Option.bind_none]
  unfold State.step
  split
  · rename_i hk
    rw [if_pos hk, awaitedBody_openScope]
  · rename_i hk
    rw [if_neg (by simp [hk]), hother (by simp [hk]) (by simp [hk])]
    rfl
  · rename_i hk
    rw [if_neg (by simp [hk]), expectBody_eq, bodyOfHeader, Follows.callableAt_of_kwFn hts hk]
  · rename_i hk
    rw [if_neg (by simp [hk]), expectBody_eq, bodyOfHeader,
      Follows.callableAt_of_kwConstructor hts hk]
  · rename_i hk
    rw [if_neg (by simp [hk]), hother (by simp [hk]) (by simp [hk])]
    rfl
  · rename_i hk
    rw [if_neg (by simp [hk]), hother (by simp [hk]) (by simp [hk]), expectLoop_eq]
    rfl
  · rename_i hk
    rw [if_neg (by simp [hk]), hother (by simp [hk]) (by simp [hk]), declare_eq]
    rfl
  · rename_i hk
    rw [if_neg (by simp [hk]), hother (by simp [hk]) (by simp [hk]), declare_eq]
    rfl
  · rename_i hleft _ hfn hconstructor _ _ _ _
    rw [if_neg hleft, hother hfn hconstructor]
    rfl

/-- **The slot holds the body that is to come.** It is filled exactly between a header and its body,
with what this header gives. -/
theorem awaitedBody_eq_some_iff (hdoc : doc.Streamed) :
    (stateBefore doc i).awaitedBody = some (b, ps) ↔
      ∃ k < i, i ≤ b ∧ bodyOfHeader doc.tokens k = some (b, ps) := by
  have hts := hdoc.endsInEof
  constructor
  · intro hawaited
    induction i with
    | zero => cases hawaited
    | succ i ih =>
      rw [stateBefore, State.awaitedBody_step hts] at hawaited
      split at hawaited
      · cases hawaited
      · rename_i hleft
        rcases Option.or_eq_some_iff.mp hawaited with hheader | ⟨_, hbefore⟩
        · obtain ⟨h, hh, hb, _⟩ := bodyOfHeader_eq_some_iff.mp hheader
          exact ⟨i, Nat.lt_succ_self i, (firstBrace_of_body hts hh hb).1, hheader⟩
        · obtain ⟨k, hki, hib, hheader⟩ := ih hbefore
          obtain ⟨h, hh, hb, _⟩ := bodyOfHeader_eq_some_iff.mp hheader
          have hbrace := (firstBrace_of_body hts hh hb).2.1
          have hne : i ≠ b := by
            rintro rfl
            exact hleft hbrace
          exact ⟨k, by omega, by omega, hheader⟩
  · rintro ⟨k, hki, hib, hheader⟩
    obtain ⟨h, hh, hb, rfl⟩ := bodyOfHeader_eq_some_iff.mp hheader
    exact (stateBefore_keeps hdoc i).body.complete hki hh hb hib

end Slot

/-! ## Scopes that open -/

/-- The scope that the walk opens at the `{` at token `b`. -/
def openedAt (doc : Document) (b : Nat) : Scope :=
  (stateBefore doc (b + 1)).scopes.current

section Opening

variable {doc : Document} {b : Nat} {st : State}

theorem State.scopes_openFunction (st : State) (ps : List Param) :
    (st.openFunction ps).scopes.scopes = functionScope ps :: st.scopes.scopes := by
  have hscopes := ScopeStack.scopes_foldl_define parameterVariable ps
    (ScopeStack.scopes_push st.scopes .function)
  have hall : (firstOfEachName ps).filter (fun p =>
      ((⟨.function, []⟩ : Scope).find? p.name).isNone) = firstOfEachName ps := by
    apply List.filter_eq_self.mpr
    intro p _
    rfl
  rw [Scope.foldl_define_params, hall] at hscopes
  exact hscopes

theorem State.scopes_openBlock (st : State) :
    ∃ top : Scope, top.kind = .block ∧
      (st.openBlock doc b).scopes.scopes = top :: st.scopes.scopes := by
  unfold State.openBlock
  simp only
  split
  · exact ⟨_, rfl, rfl⟩
  · rename_i n _ _
    exact ⟨_, Scope.kind_define ⟨.block, []⟩ (bindingVariable (doc.token n)),
      ScopeStack.scopes_define (ScopeStack.scopes_push st.scopes .block) _⟩
  · exact ⟨_, rfl, rfl⟩

theorem stateBefore_succ_of_leftBrace (hb : doc.kind b = .leftBrace) :
    stateBefore doc (b + 1) = (stateBefore doc b).openScope doc b := by
  rw [stateBefore, State.step, hb]

/-- Where the slot names the `{`, the scope of a function opens. -/
theorem scopes_of_awaited (hb : doc.kind b = .leftBrace) {ps : List Param}
    (hawaited : (stateBefore doc b).awaitedBody = some (b, ps)) :
    (stateBefore doc (b + 1)).scopes.scopes =
      functionScope ps :: (stateBefore doc b).scopes.scopes := by
  rw [stateBefore_succ_of_leftBrace hb, State.openScope, hawaited,
    Option.filter_some_pos (by simp)]
  exact State.scopes_openFunction _ ps

/-- Where it does not, the scope of a block opens. -/
theorem scopes_of_not_awaited (hb : doc.kind b = .leftBrace)
    (hawaited : ∀ ps, (stateBefore doc b).awaitedBody ≠ some (b, ps)) :
    ∃ top : Scope, top.kind = .block ∧
      (stateBefore doc (b + 1)).scopes.scopes = top :: (stateBefore doc b).scopes.scopes := by
  have hnone : (stateBefore doc b).awaitedBody.filter (·.1 == b) = none := by
    rw [Option.filter_eq_none_iff]
    rintro ⟨p, ps⟩ hp hpb
    obtain rfl : p = b := by simpa using hpb
    exact hawaited ps hp
  rw [stateBefore_succ_of_leftBrace hb, State.openScope, hnone]
  exact State.scopes_openBlock _

/-- A header fills the slot up to its body. -/
theorem awaitedBody_at_body (hdoc : doc.Streamed) {k : Nat} {h : FnHeader}
    (hh : callableAt doc.tokens k = some h) (hb : h.body = some b) :
    doc.kind b = .leftBrace ∧ (stateBefore doc b).awaitedBody = some (b, h.params) := by
  obtain ⟨hkb, hbrace, _⟩ := firstBrace_of_body hdoc.endsInEof hh hb
  refine ⟨hbrace, (awaitedBody_eq_some_iff hdoc).mpr ⟨k, hkb, Nat.le_refl b, ?_⟩⟩
  exact bodyOfHeader_eq_some_iff.mpr ⟨h, hh, hb, rfl⟩

/-- At the body of a header the scope of its function opens. -/
theorem scopes_at_body (hdoc : doc.Streamed) {k : Nat} {h : FnHeader}
    (hh : callableAt doc.tokens k = some h) (hb : h.body = some b) :
    openedAt doc b = functionScope h.params ∧
      (stateBefore doc (b + 1)).scopes.scopes =
        openedAt doc b :: (stateBefore doc b).scopes.scopes := by
  obtain ⟨hbrace, hslot⟩ := awaitedBody_at_body hdoc hh hb
  have hscopes := scopes_of_awaited hbrace hslot
  have htop : openedAt doc b = functionScope h.params := ScopeStack.current_of_scopes hscopes
  exact ⟨htop, htop ▸ hscopes⟩

/-- At any other `{` the scope of a block opens. -/
theorem scopes_at_block (hdoc : doc.Streamed) (hb : doc.kind b = .leftBrace)
    (hnone : ¬ ∃ k h, callableAt doc.tokens k = some h ∧ h.body = some b) :
    (openedAt doc b).kind = .block ∧
      (stateBefore doc (b + 1)).scopes.scopes =
        openedAt doc b :: (stateBefore doc b).scopes.scopes := by
  have hslot : ∀ ps, (stateBefore doc b).awaitedBody ≠ some (b, ps) := by
    intro ps hps
    obtain ⟨k, _, _, hheader⟩ := (awaitedBody_eq_some_iff hdoc).mp hps
    obtain ⟨h, hh, hbody, _⟩ := bodyOfHeader_eq_some_iff.mp hheader
    exact hnone ⟨k, h, hh, hbody⟩
  obtain ⟨top, hkind, hscopes⟩ := scopes_of_not_awaited hb hslot
  have htop : openedAt doc b = top := ScopeStack.current_of_scopes hscopes
  exact ⟨htop ▸ hkind, htop ▸ hscopes⟩

end Opening

/-- The walk opens the scope of a function at the bodies of functions and constructors alone. -/
structure OpensBodies (doc : Document) : Prop where
  /-- A `{` opens one scope and leaves the others as they are. -/
  opens : ∀ b, doc.kind b = .leftBrace →
    (stateBefore doc (b + 1)).scopes.scopes =
      openedAt doc b :: (stateBefore doc b).scopes.scopes
  /-- It is the scope of a function exactly if a header has its body there. -/
  function_iff : ∀ b, doc.kind b = .leftBrace →
    ((openedAt doc b).kind = .function ↔
      ∃ k h, callableAt doc.tokens k = some h ∧ h.body = some b)
  /-- There is one such header at most. -/
  header_unique : ∀ b k h k' h', callableAt doc.tokens k = some h → h.body = some b →
    callableAt doc.tokens k' = some h' → h'.body = some b → k = k' ∧ h = h'
  /-- The scope holds the parameters of that header and nothing else. -/
  parameters : ∀ b k h, callableAt doc.tokens k = some h → h.body = some b →
    openedAt doc b = functionScope h.params
  /-- A body that is waited for is the next `{`, which takes it. -/
  taken : ∀ i p ps, (stateBefore doc i).awaitedBody = some (p, ps) →
    i ≤ p ∧ doc.kind p = .leftBrace ∧ (∀ j, i ≤ j → j < p → doc.kind j ≠ .leftBrace) ∧
      openedAt doc p = functionScope ps ∧ (stateBefore doc (p + 1)).awaitedBody = none

/-- **The scopes of functions are the bodies of headers.** -/
theorem opensBodies_ofText (uri text : String) : OpensBodies (Document.ofText uri text) := by
  have hdoc : (Document.ofText uri text).Streamed := Document.streamed_ofText uri text
  generalize Document.ofText uri text = doc at hdoc
  have hts := hdoc.endsInEof
  refine ⟨?_, ?_, ?_, ?_, ?_⟩
  · intro b hbrace
    by_cases hbody : ∃ k h, callableAt doc.tokens k = some h ∧ h.body = some b
    · obtain ⟨k, h, hh, hb⟩ := hbody
      exact (scopes_at_body hdoc hh hb).2
    · exact (scopes_at_block hdoc hbrace hbody).2
  · intro b hbrace
    constructor
    · intro hfunction
      apply Classical.byContradiction
      intro hbody
      rw [(scopes_at_block hdoc hbrace hbody).1] at hfunction
      cases hfunction
    · rintro ⟨k, h, hh, hb⟩
      rw [(scopes_at_body hdoc hh hb).1]
      rfl
  · intro b k h k' h' hh hb hh' hb'
    exact callableAt_body_inj hts hh hb hh' hb'
  · intro b k h hh hb
    exact (scopes_at_body hdoc hh hb).1
  · intro i p ps hslot
    obtain ⟨k, hki, hip, hheader⟩ := (awaitedBody_eq_some_iff hdoc).mp hslot
    obtain ⟨h, hh, hb, rfl⟩ := bodyOfHeader_eq_some_iff.mp hheader
    obtain ⟨_, hbrace, hfirst⟩ := firstBrace_of_body hts hh hb
    refine ⟨hip, hbrace, ?_, (scopes_at_body hdoc hh hb).1, ?_⟩
    · intro j hij hjp
      exact hfirst j hjp (by omega)
    · rw [stateBefore, State.awaitedBody_step hts]
      exact if_pos hbrace

/-- A name that comes twice is defined by its first parameter. -/
example :
    let doc := Document.ofText "m" "fn f(x, y: int, x: bool) \x7b\x7d"
    (openedAt doc 13).bindings.map (fun v => (v.name, v.type, v.kind)) =
      [("x", .double, .parameter), ("y", .int, .parameter)] := by
  decide +kernel

end Resolve

end AuroraLint
