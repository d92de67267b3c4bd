import AuroraLint.Proofs.Located.Tables
import AuroraLint.Resolve

/-!
# Where the errors of the walk point

* `ScopeStack.All`        : a property of every variable of the open scopes.
* `Resolve.State.Located` : the state of the walk holds real spans that start before the walk.

Main statement: `Resolve.check_located`. The step lemma is `State.Located.step`; declared spans get
into the scopes from declarations, from the parameters of the header waited for and from loops.
-/

set_option autoImplicit false

namespace AuroraLint

/-! ## Variables of a scope stack -/

/-- Only a new name adds a variable. -/
theorem Scope.mem_define {s : Scope} {v w : Variable} :
    w ∈ (s.define v).bindings ↔ w ∈ s.bindings ∨ w = v ∧ s.find? v.name = none := by
  unfold Scope.define
  split
  · rename_i hfind
    simp [hfind]
  · rename_i hfind
    simp [hfind]

namespace ScopeStack

/-- Every variable of every open scope satisfies `P`. -/
def All (P : Variable → Prop) (s : ScopeStack) : Prop :=
  ∀ scope ∈ s.scopes, ∀ v ∈ scope.bindings, P v

variable {P Q : Variable → Prop} {s : ScopeStack}

theorem all_empty : ({} : ScopeStack).All P := by
  intro scope hs v hv
  obtain rfl : scope = ⟨.global, []⟩ := by simpa [scopes] using hs
  cases hv

theorem All.mono (h : s.All P) (hPQ : ∀ v, P v → Q v) : s.All Q :=
  fun scope hs v hv => hPQ v (h scope hs v hv)

theorem All.push (h : s.All P) (kind : ScopeKind) : (s.push kind).All P := by
  intro scope hs v hv
  rcases List.mem_cons.mp hs with rfl | hs
  · cases hv
  · exact h scope hs v hv

theorem All.pop (h : s.All P) : s.pop.All P := by
  intro scope hs v hv
  refine h scope ?_ v hv
  simp only [scopes, ScopeStack.pop, List.mem_append] at hs ⊢
  exact hs.imp_left List.mem_of_mem_tail

theorem All.define (h : s.All P) {v : Variable} (hv : P v) : (s.define v).All P := by
  intro scope hs w hw
  unfold ScopeStack.define at hs
  split at hs
  · rename_i hinner
    obtain rfl : scope = s.global.define v := by simpa [scopes, hinner] using hs
    rcases Scope.mem_define.mp hw with hw | ⟨rfl, _⟩
    · exact h s.global (by simp [scopes]) w hw
    · exact hv
  · rename_i top rest hinner
    rcases List.mem_cons.mp hs with rfl | hs
    · rcases Scope.mem_define.mp hw with hw | ⟨rfl, _⟩
      · exact h top (by simp [scopes, hinner]) w hw
      · exact hv
    · exact h scope (by simp only [scopes, hinner]; exact List.mem_cons_of_mem _ hs) w hw

theorem All.foldl_define {α : Type} (f : α → Variable) {xs : List α} (h : s.All P)
    (hxs : ∀ x ∈ xs, P (f x)) : (xs.foldl (fun s x => s.define (f x)) s).All P := by
  induction xs generalizing s with
  | nil => exact h
  | cons x xs ih =>
    exact ih (h.define (hxs x (List.mem_cons_self ..)))
      fun y hy => hxs y (List.mem_cons_of_mem _ hy)

theorem All.lookup (h : s.All P) {name : String} {v : Variable} (hv : s.lookup name = some v) :
    P v := by
  obtain ⟨scope, hs, hfind⟩ := List.exists_of_findSome?_eq_some hv
  exact h scope hs v (List.mem_of_find?_eq_some hfind)

theorem All.lookupCurrent (h : s.All P) {name : String} {v : Variable}
    (hv : s.lookupCurrent name = some v) : P v := by
  refine h s.current ?_ v (List.mem_of_find?_eq_some hv)
  unfold current scopes
  cases s.inner with
  | nil => simp
  | cons top rest => simp

end ScopeStack

namespace Resolve

variable {doc : Document}

/-- A span of the document that starts no later than token `i`. -/
def RealBefore (doc : Document) (i : Nat) (s : Span) : Prop :=
  s.Real doc.source.name doc.source.chars ∧ s.start.offset ≤ (doc.token i).span.start.offset

theorem RealBefore.mono {i j : Nat} {s : Span} (hs : RealBefore doc i s) (h : doc.Streamed)
    (hij : i ≤ j) (hj : j < doc.tokens.length) : RealBefore doc j s :=
  ⟨hs.1, Nat.le_trans hs.2 (h.start_le hij hj)⟩

theorem realBefore_token (h : doc.Streamed) {i j : Nat} (hi : doc.kind i ≠ .eof) (hij : i ≤ j)
    (hj : j < doc.tokens.length) : RealBefore doc j (doc.token i).span :=
  ⟨h.real (h.endsInEof.succ_lt hi), h.start_le hij hj⟩

/-- The state just before token `i` holds only real spans, none of which starts behind the token;
parameters stand before the body they wait for. -/
structure State.Located (doc : Document) (i : Nat) (st : State) : Prop where
  scopes : st.scopes.All fun v => RealBefore doc i v.declaredAt
  body : ∀ b ps, st.awaitedBody = some (b, ps) → ∀ p ∈ ps, RealBefore doc b p.span
  binding : ∀ b, st.awaitedBinding = some b → doc.kind b ≠ .eof ∧ b ≤ i

namespace State.Located

variable {i : Nat} {st : State}

theorem initial : State.Located doc 0 {} :=
  ⟨ScopeStack.all_empty, nofun, nofun⟩

/-- Moving on without a change. -/
theorem next (hst : st.Located doc i) (h : doc.Streamed) (hi : i + 1 < doc.tokens.length) :
    st.Located doc (i + 1) :=
  ⟨hst.scopes.mono fun _ hv => hv.mono h (Nat.le_succ i) hi, hst.body,
    fun b hb => (hst.binding b hb).imp_right (Nat.le_trans · (Nat.le_succ i))⟩

theorem openFunction (hst : st.Located doc i) (h : doc.Streamed) (hi : i + 1 < doc.tokens.length)
    {ps : List Param} (hps : ∀ p ∈ ps, RealBefore doc i p.span) :
    (st.openFunction ps).Located doc (i + 1) := by
  have hnext := hst.next h hi
  refine ⟨?_, nofun, hnext.binding⟩
  exact (hnext.scopes.push .function).foldl_define parameterVariable
    fun p hp => (hps p hp).mono h (Nat.le_succ i) hi

theorem openBlock (hst : st.Located doc i) (h : doc.Streamed) (hi : i + 1 < doc.tokens.length) :
    (st.openBlock doc i).Located doc (i + 1) := by
  have hnext := hst.next h hi
  have hpush := hnext.scopes.push .block
  unfold State.openBlock
  split
  · exact ⟨hpush, nofun, hnext.binding⟩
  · rename_i binding _ hbinding
    obtain ⟨hk, hle⟩ := hnext.binding binding hbinding
    exact ⟨hpush.define (realBefore_token h hk hle hi), nofun, nofun⟩
  · exact ⟨hpush, nofun, hnext.binding⟩

theorem openScope (hst : st.Located doc i) (h : doc.Streamed) (hi : i + 1 < doc.tokens.length) :
    (st.openScope doc i).Located doc (i + 1) := by
  unfold State.openScope
  split
  · rename_i b ps hbody
    obtain ⟨hawaited, hb⟩ := Option.filter_eq_some_iff.mp hbody
    obtain rfl : b = i := by simpa using hb
    exact hst.openFunction h hi (hst.body b ps hawaited)
  · exact hst.openBlock h hi

theorem closeScope (hst : st.Located doc i) (h : doc.Streamed) (hi : i + 1 < doc.tokens.length) :
    st.closeScope.Located doc (i + 1) := by
  have hnext := hst.next h hi
  exact ⟨hnext.scopes.pop, hnext.body, hnext.binding⟩

/-- The parameters of a header stand before its body. -/
theorem expectBody (hst : st.Located doc i) (h : doc.Streamed) (hi : i + 1 < doc.tokens.length)
    {header : Option FnHeader}
    (hheader : ∀ fh, header = some fh → ∃ keyword opener, fh.ReadAt doc.tokens keyword opener) :
    (st.expectBody header).Located doc (i + 1) := by
  have hnext := hst.next h hi
  unfold State.expectBody
  split
  · rename_i fh
    split
    · rename_i body hbody
      obtain ⟨keyword, opener, hr⟩ := hheader fh rfl
      refine ⟨hnext.scopes, ?_, hnext.binding⟩
      intro b ps heq p hp
      obtain ⟨rfl, rfl⟩ := Prod.mk.inj (Option.some.inj heq)
      rw [(hr.body_spec hbody).1]
      exact h.header_params_real hr hp
    · exact hnext
  · exact hnext

theorem expectLoop (hst : st.Located doc i) (h : doc.Streamed) (hi : i + 1 < doc.tokens.length) :
    (st.expectLoop doc i).Located doc (i + 1) := by
  have hnext := hst.next h hi
  unfold State.expectLoop
  split
  · rename_i hkinds
    refine ⟨hnext.scopes, hnext.body, ?_⟩
    intro b hb
    obtain rfl := Option.some.inj hb
    exact ⟨by rw [hkinds.1]; nofun, Nat.le_refl _⟩
  · exact hnext

theorem declare (hst : st.Located doc i) (h : doc.Streamed) (hi : i + 1 < doc.tokens.length) :
    (st.declare doc (varDeclAt doc.tokens i)).Located doc (i + 1) := by
  have hnext := hst.next h hi
  unfold State.declare
  split
  · rename_i d hd
    obtain ⟨stop, hr⟩ := (varDeclAt_eq_some_iff h.endsInEof).mp hd
    refine ⟨hnext.scopes.define ?_, hnext.body, hnext.binding⟩
    have hk : doc.kind (i + 1) ≠ .eof := by
      rw [show doc.kind (i + 1) = _ from hr.name_kind]
      nofun
    show RealBefore doc (i + 1) d.nameSpan
    rw [hr.nameSpan_eq]
    exact realBefore_token h hk (Nat.le_refl _) hi
  · exact hnext

/-- **One token of the walk.** -/
theorem step (hst : st.Located doc i) (h : doc.Streamed) (hi : i + 1 < doc.tokens.length) :
    (st.step doc i).Located doc (i + 1) := by
  unfold State.step
  split
  · exact hst.openScope h hi
  · exact hst.closeScope h hi
  · refine hst.expectBody h hi fun fh hfh => ?_
    exact ⟨_, _, ((fnHeaderAt_eq_some_iff h.endsInEof).mp hfh).readAt⟩
  · refine hst.expectBody h hi fun fh hfh => ?_
    exact ⟨_, _, ((constructorHeaderAt_eq_some_iff h.endsInEof).mp hfh).readAt⟩
  · have hnext := hst.next h hi
    exact ⟨hnext.scopes, hnext.body, hnext.binding⟩
  · exact hst.expectLoop h hi
  · exact hst.declare h hi
  · exact hst.declare h hi
  · exact hst.next h hi

end State.Located

/-- The state before every token is located. -/
theorem stateBefore_located (h : doc.Streamed) {i : Nat} (hi : i < doc.tokens.length) :
    (stateBefore doc i).Located doc i := by
  induction i with
  | zero => exact State.Located.initial
  | succ i ih => exact (ih (by omega)).step h hi

/-! ## Findings -/

section Findings

variable {symbols : SymbolTable} {i : Nat} {st : State}

theorem checkArgument_located (h : doc.Streamed) {arg : Extent} {param : Parameter} {d : Diagnostic}
    (hlt : arg.start < arg.stop) (hstop : arg.stop < doc.tokens.length)
    (hd : checkArgument doc arg param = some d) :
    d.Located doc.source.name doc.source.chars := by
  simp only [checkArgument] at hd
  split at hd
  · cases hd
  · obtain rfl := Option.some.inj hd
    exact Diagnostic.located_error (h.extent_real hlt hstop)

/-- The errors of a call point to the call and to its arguments. -/
theorem checkAgainst_located (h : doc.Streamed) {what : String} {s : Signature}
    (hopen : doc.kind (i + 1) = .leftParen) :
    ∀ d ∈ checkAgainst doc i what s, d.Located doc.source.name doc.source.chars := by
  intro d hd
  unfold checkAgainst at hd
  split at hd
  · cases hd
  · rename_i closer hclose
    obtain ⟨hkind, hlt⟩ := callClose_spec hopen hclose
    have hcloser := h.endsInEof.succ_lt_of_eq hkind nofun
    rcases List.mem_append.mp hd with hd | hd
    · split at hd
      · cases hd
      · obtain rfl := List.mem_singleton.mp hd
        exact Diagnostic.located_error (h.merge_real (by omega) hcloser)
    · obtain ⟨⟨arg, param⟩, hmem, harg⟩ := List.mem_filterMap.mp hd
      obtain ⟨_, hne, hstop⟩ := mem_splitArguments hlt (List.of_mem_zip hmem).1
      exact checkArgument_located h hne (by omega) harg

theorem checkCall_located (h : doc.Streamed) (hid : doc.kind i = .identifier)
    (hopen : doc.kind (i + 1) = .leftParen) :
    ∀ d ∈ checkCall doc symbols st i, d.Located doc.source.name doc.source.chars := by
  have hreal := h.real_of_kind hid nofun
  intro d hd
  unfold checkCall at hd
  split at hd
  · cases hd
  · unfold checkConstructorCall at hd
    simp only at hd
    split at hd
    · obtain rfl := List.mem_singleton.mp hd
      exact Diagnostic.located_error hreal
    · split at hd
      · cases hd
      · exact checkAgainst_located h hopen d hd
  · unfold checkFunctionCall at hd
    simp only at hd
    split at hd
    · obtain rfl := List.mem_singleton.mp hd
      exact (Diagnostic.located_error hreal).withSuggestion _
    · exact checkAgainst_located h hopen d hd

theorem checkInitializer_located (h : doc.Streamed) {decl : VarDecl} {stop : Nat}
    (hr : decl.ReadAt doc.tokens i stop) :
    ∀ d ∈ checkInitializer doc decl, d.Located doc.source.name doc.source.chars := by
  intro d hd
  unfold checkInitializer at hd
  split at hd
  · rename_i t e _ hinit
    simp only at hd
    split at hd
    · cases hd
    · obtain rfl := List.mem_singleton.mp hd
      obtain ⟨_, hlt, hstop⟩ := hr.init_bounds h.endsInEof hinit
      refine Diagnostic.located_error ?_
      rw [hr.nameSpan_eq]
      exact (h.real_of_kind hr.name_kind nofun).merge (h.extent_real hlt hstop)
  · cases hd

theorem checkDeclaration_located (h : doc.Streamed) (hst : st.Located doc i) :
    ∀ d ∈ checkDeclaration doc st i, d.Located doc.source.name doc.source.chars := by
  intro d hd
  unfold checkDeclaration at hd
  split at hd
  · cases hd
  · rename_i decl hdecl
    obtain ⟨stop, hr⟩ := (varDeclAt_eq_some_iff h.endsInEof).mp hdecl
    split at hd
    · rename_i earlier hearlier
      obtain ⟨hreal, hle⟩ := hst.scopes.lookupCurrent hearlier
      have hlt := h.endsInEof.succ_lt_of_eq hr.name_kind nofun
      obtain rfl := List.mem_singleton.mp hd
      rw [hr.nameSpan_eq]
      refine Diagnostic.located_error_withRelated (h.real hlt) hreal ?_
      exact Nat.le_trans hle (h.start_le (Nat.le_succ i) (by omega))
    · exact checkInitializer_located h hr d hd

theorem checkAssignment_located (h : doc.Streamed) (hst : st.Located doc i)
    (hid : doc.kind i = .identifier) :
    ∀ d ∈ checkAssignment doc st i, d.Located doc.source.name doc.source.chars := by
  have hreal := h.real_of_kind hid nofun
  intro d hd
  unfold checkAssignment at hd
  simp only at hd
  split at hd
  · obtain rfl := List.mem_singleton.mp hd
    exact Diagnostic.located_error hreal
  · rename_i v hv
    obtain ⟨hdecl, hle⟩ := hst.scopes.lookup hv
    split at hd
    · cases hd
    · obtain rfl := List.mem_singleton.mp hd
      exact (Diagnostic.located_error_withRelated hreal hdecl hle).withSuggestion _

theorem ne_eof_of_operandName {k : Kind} {name : String} (h : operandName k = some name) :
    k ≠ .eof := by
  rintro rfl
  cases h

theorem checkLiteralOperation_located (h : doc.Streamed) :
    ∀ d ∈ checkLiteralOperation doc i, d.Located doc.source.name doc.source.chars := by
  intro d hd
  unfold checkLiteralOperation at hd
  split at hd
  · split at hd
    · rename_i operand hoperand
      have hlt := h.endsInEof.succ_lt (ne_eof_of_operandName hoperand)
      obtain rfl := List.mem_singleton.mp hd
      exact Diagnostic.located_error (h.merge_real (by omega) hlt)
    · cases hd
  · cases hd

theorem findings_located (h : doc.Streamed) (hst : st.Located doc i) :
    ∀ d ∈ findings doc symbols st i, d.Located doc.source.name doc.source.chars := by
  intro d hd
  unfold findings at hd
  split at hd
  · exact checkDeclaration_located h hst d hd
  · exact checkDeclaration_located h hst d hd
  · rename_i hid
    unfold checkIdentifier at hd
    split at hd
    · rename_i hopen
      exact checkCall_located h hid hopen d hd
    · split at hd
      · exact checkAssignment_located h hst hid d hd
      · cases hd
  · exact checkLiteralOperation_located h d hd
  · cases hd

end Findings

theorem check_located {symbols : SymbolTable} (h : doc.Streamed) :
    ∀ d ∈ check doc symbols, d.Located doc.source.name doc.source.chars := by
  intro d hd
  rw [check_eq] at hd
  obtain ⟨i, hi, hd⟩ := List.mem_flatMap.mp hd
  exact findings_located h (stateBefore_located h (List.mem_range.mp hi)) d hd

end Resolve

end AuroraLint
