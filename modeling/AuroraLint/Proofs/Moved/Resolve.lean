import AuroraLint.Proofs.Moved.Symbols
import AuroraLint.Resolve

/-!
# Scope resolution at other byte offsets

* `Document.Moved` : the same document at its new offsets, as far as the passes look at it.
* `State.mapOffset` : a state of the walk at other offsets.

Main statements: `Document.Moved.stateBefore` — the walk over a moved document goes through the
moved states, by one lemma for each kind of token — and `Document.Moved.resolve` — it reports the
moved errors.
-/

set_option autoImplicit false

namespace AuroraLint

/-- The document `doc'` is `doc` at its new offsets: its tokens are, the text of every expression is
of the same type, and its lines end where those of `doc` do. -/
structure Document.Moved (g : OffsetMap) (doc doc' : Document) : Prop where
  tokens : TokensMoved g doc.tokens doc'.tokens
  endsInEof : EndsInEof doc.tokens
  type_eq : ∀ e : Extent, e.start < e.stop → e.stop < doc.tokens.length →
    (doc'.inferExtent e).1 = (doc.inferExtent e).1
  name_eq : doc'.source.name = doc.source.name
  lineEnd_eq : ∀ line, doc'.source.lineEnd line = (doc.source.lineEnd line).mapOffset g
  lineSpan_eq : ∀ line, doc'.source.lineSpan line = (doc.source.lineSpan line).mapOffset g

namespace Document.Moved

variable {g : OffsetMap} {doc doc' : Document}

theorem kind (h : doc.Moved g doc') (i : Nat) : doc'.kind i = doc.kind i :=
  h.tokens.kindAt i

theorem span (h : doc.Moved g doc') (i : Nat) :
    (doc'.token i).span = (doc.token i).span.mapOffset g :=
  h.tokens.span i

theorem lexeme (h : doc.Moved g doc') {i : Nat} {k : Kind} (hk : doc.kind i = k)
    (hne : k ≠ .stringLiteral) : (doc'.token i).lexeme = (doc.token i).lexeme :=
  h.tokens.lexeme hk hne

theorem inferExtent (h : doc.Moved g doc') {e : Extent} (hlt : e.start < e.stop)
    (hstop : e.stop < doc.tokens.length) :
    doc'.inferExtent e = ((doc.inferExtent e).1, (doc.inferExtent e).2.mapOffset g) :=
  Prod.ext (h.type_eq e hlt hstop) (h.tokens.extentSpan e)

end Document.Moved

/-! ## Scopes -/

/-- The variable at other offsets. -/
def Variable.mapOffset (f : Nat → Nat) (v : Variable) : Variable :=
  { v with declaredAt := v.declaredAt.mapOffset f }

/-- The scope with its variables at other offsets. -/
def Scope.mapOffset (f : Nat → Nat) (s : Scope) : Scope :=
  { s with bindings := s.bindings.map (Variable.mapOffset f) }

/-- The scopes with their variables at other offsets. -/
def ScopeStack.mapOffset (f : Nat → Nat) (s : ScopeStack) : ScopeStack :=
  ⟨s.inner.map (Scope.mapOffset f), s.global.mapOffset f⟩

namespace Scope

variable (f : Nat → Nat) (s : Scope)

theorem find?_mapOffset (name : String) :
    (s.mapOffset f).find? name = (s.find? name).map (Variable.mapOffset f) := by
  rw [find?, find?, mapOffset, List.find?_map]
  rfl

theorem define_mapOffset (v : Variable) :
    (s.mapOffset f).define (v.mapOffset f) = (s.define v).mapOffset f := by
  have hname : (v.mapOffset f).name = v.name := rfl
  unfold define
  rw [hname, find?_mapOffset]
  cases s.find? v.name with
  | none => simp [mapOffset]
  | some _ => rfl

end Scope

namespace ScopeStack

variable (f : Nat → Nat) (s : ScopeStack)

@[simp] theorem push_mapOffset (kind : ScopeKind) :
    (s.mapOffset f).push kind = (s.push kind).mapOffset f := rfl

@[simp] theorem pop_mapOffset : (s.mapOffset f).pop = s.pop.mapOffset f := by
  simp [pop, mapOffset]

@[simp] theorem depth_mapOffset : (s.mapOffset f).depth = s.depth := by
  simp [depth, mapOffset]

@[simp] theorem define_mapOffset (v : Variable) :
    (s.mapOffset f).define (v.mapOffset f) = (s.define v).mapOffset f := by
  obtain ⟨inner, global⟩ := s
  cases inner with
  | nil => simp [define, mapOffset, Scope.define_mapOffset]
  | cons top rest => simp [define, mapOffset, Scope.define_mapOffset]

@[simp] theorem lookupCurrent_mapOffset (name : String) :
    (s.mapOffset f).lookupCurrent name = (s.lookupCurrent name).map (Variable.mapOffset f) := by
  have hcurrent : (s.mapOffset f).current = s.current.mapOffset f := by
    obtain ⟨inner, global⟩ := s
    cases inner <;> rfl
  rw [lookupCurrent, hcurrent, Scope.find?_mapOffset]
  rfl

@[simp] theorem lookup_mapOffset (name : String) :
    (s.mapOffset f).lookup name = (s.lookup name).map (Variable.mapOffset f) := by
  have hscopes : (s.mapOffset f).scopes = s.scopes.map (Scope.mapOffset f) := by
    simp [scopes, mapOffset]
  rw [lookup, lookup, hscopes, List.findSome?_map, List.map_findSome?]
  congr 1
  funext scope
  exact scope.find?_mapOffset f name

end ScopeStack

namespace Resolve

@[simp] theorem parameterVariable_mapOffset (f : Nat → Nat) (p : Param) :
    parameterVariable (p.mapOffset f) = (parameterVariable p).mapOffset f := by
  simp [parameterVariable, Variable.mapOffset, Param.mapOffset, Param.toParameter]

theorem defineParams_mapOffset (f : Nat → Nat) (s : ScopeStack) (ps : List Param) :
    (ps.map (Param.mapOffset f)).foldl (fun s p => s.define (parameterVariable p)) (s.mapOffset f) =
      (ps.foldl (fun s p => s.define (parameterVariable p)) s).mapOffset f := by
  induction ps generalizing s with
  | nil => rfl
  | cons p ps ih => simp [ih]

/-! ## One token of the walk -/

/-- A body waited for, its parameters at other offsets. -/
def mapAwaited (f : Nat → Nat) (awaited : Nat × List Param) : Nat × List Param :=
  (awaited.1, awaited.2.map (Param.mapOffset f))

namespace State

/-- The state at other offsets. -/
def mapOffset (f : Nat → Nat) (st : State) : State :=
  { st with
    scopes := st.scopes.mapOffset f
    awaitedBody := st.awaitedBody.map (mapAwaited f) }

/-- A block takes the loop name that waits, or leaves it. -/
theorem awaitedBinding_openScope (doc : Document) (st : State) (i : Nat) :
    (st.openScope doc i).awaitedBinding = st.awaitedBinding ∨
      (st.openScope doc i).awaitedBinding = none := by
  unfold openScope
  split
  · exact .inl rfl
  · unfold openBlock
    split
    · exact .inl rfl
    · exact .inr rfl
    · exact .inl rfl

theorem awaitedBinding_expectBody (st : State) (header : Option FnHeader) :
    (st.expectBody header).awaitedBinding = st.awaitedBinding := by
  rw [expectBody_eq]

theorem awaitedBinding_declare (doc : Document) (st : State) (decl : Option VarDecl) :
    (st.declare doc decl).awaitedBinding = st.awaitedBinding := by
  rw [declare_eq]

/-- The loop name waited for is a name. -/
def AwaitsName (doc : Document) (st : State) : Prop :=
  ∀ b, st.awaitedBinding = some b → doc.kind b = .identifier

theorem AwaitsName.of_eq {doc : Document} {st st' : State} (h : st.AwaitsName doc)
    (heq : st'.awaitedBinding = st.awaitedBinding) : st'.AwaitsName doc :=
  fun b hb => h b (heq ▸ hb)

theorem AwaitsName.of_eq_none {doc : Document} {st : State} (h : st.awaitedBinding = none) :
    st.AwaitsName doc := by
  intro b hb
  rw [h] at hb
  cases hb

theorem AwaitsName.step {doc : Document} {st : State} (h : st.AwaitsName doc) (i : Nat) :
    (st.step doc i).AwaitsName doc := by
  unfold State.step
  split
  · rcases awaitedBinding_openScope doc st i with heq | hnone
    · exact h.of_eq heq
    · exact .of_eq_none hnone
  · exact h
  · exact h.of_eq (awaitedBinding_expectBody ..)
  · exact h.of_eq (awaitedBinding_expectBody ..)
  · exact h
  · unfold expectLoop
    split
    · rename_i hkinds
      intro b hb
      obtain rfl := Option.some.inj hb
      exact hkinds.1
    · exact h
  · exact h.of_eq (awaitedBinding_declare ..)
  · exact h.of_eq (awaitedBinding_declare ..)
  · exact h

end State

end Resolve

namespace Document.Moved

open Resolve

variable {g : OffsetMap} {doc doc' : Document}

theorem declaredVariable (h : doc.Moved g doc') {d : VarDecl} {i stop : Nat}
    (hr : d.ReadAt doc.tokens i stop) :
    declaredVariable doc' (d.mapOffset g) = (declaredVariable doc d).mapOffset g := by
  have htype : declaredType doc' (d.mapOffset g) = declaredType doc d := by
    unfold declaredType
    simp only [VarDecl.mapOffset]
    cases hty : d.type with
    | some t => rfl
    | none =>
      cases hinit : d.init with
      | none => rfl
      | some e =>
        obtain ⟨_, hlt, hstop⟩ := hr.init_bounds h.endsInEof hinit
        exact h.type_eq e hlt hstop
  rw [Resolve.declaredVariable, htype]
  rfl

theorem bindingVariable (h : doc.Moved g doc') {i : Nat} (hk : doc.kind i = .identifier) :
    bindingVariable (doc'.token i) = (bindingVariable (doc.token i)).mapOffset g := by
  simp only [Resolve.bindingVariable, Variable.mapOffset, h.span, h.lexeme hk (by decide)]

theorem openBlock (h : doc.Moved g doc') {st : State} (hst : st.AwaitsName doc) (i : Nat) :
    (st.mapOffset g).openBlock doc' i = (st.openBlock doc i).mapOffset g := by
  have hclass : (st.mapOffset g).awaitedClass = st.awaitedClass := rfl
  have hbinding : (st.mapOffset g).awaitedBinding = st.awaitedBinding := rfl
  unfold State.openBlock
  rw [hclass, hbinding]
  cases st.awaitedClass.filter (·.1 == i) with
  | some found => simp [State.mapOffset]
  | none =>
    cases hb : st.awaitedBinding with
    | none => rfl
    | some binding => simp [State.mapOffset, h.bindingVariable (hst binding hb)]

theorem openScope (h : doc.Moved g doc') {st : State} (hst : st.AwaitsName doc) (i : Nat) :
    (st.mapOffset g).openScope doc' i = (st.openScope doc i).mapOffset g := by
  have hawaited : (st.mapOffset g).awaitedBody.filter (·.1 == i) =
      (st.awaitedBody.filter (·.1 == i)).map (mapAwaited g) := by
    rw [State.mapOffset, Option.filter_map]
    rfl
  unfold State.openScope
  rw [hawaited]
  cases st.awaitedBody.filter (·.1 == i) with
  | none => exact h.openBlock hst i
  | some found =>
    simp [State.openFunction, State.mapOffset, mapAwaited, defineParams_mapOffset]

theorem expectBody (st : State) (header : Option FnHeader) :
    (st.mapOffset g).expectBody (header.map (FnHeader.mapOffset g)) =
      (st.expectBody header).mapOffset g := by
  cases header with
  | none => rfl
  | some header =>
    have hbody : (header.mapOffset g).body = header.body := rfl
    simp only [State.expectBody, Option.map_some, hbody]
    cases header.body with
    | none => rfl
    | some body => rfl

theorem declare (h : doc.Moved g doc') (st : State) (i : Nat) :
    (st.mapOffset g).declare doc' (varDeclAt doc'.tokens i) =
      (st.declare doc (varDeclAt doc.tokens i)).mapOffset g := by
  rw [h.tokens.varDeclAt h.endsInEof]
  cases hd : varDeclAt doc.tokens i with
  | none => rfl
  | some d =>
    obtain ⟨stop, hr⟩ := (varDeclAt_eq_some_iff h.endsInEof).mp hd
    simp [State.declare, State.mapOffset, h.declaredVariable hr]

theorem expectLoop (h : doc.Moved g doc') (st : State) (i : Nat) :
    (st.mapOffset g).expectLoop doc' i = (st.expectLoop doc i).mapOffset g := by
  unfold State.expectLoop
  rw [h.kind, h.kind]
  split
  · rfl
  · rfl

/-- **One token of the walk.** -/
theorem step (h : doc.Moved g doc') {st : State} (hst : st.AwaitsName doc) (i : Nat) :
    (st.mapOffset g).step doc' i = (st.step doc i).mapOffset g := by
  unfold State.step
  rw [h.kind]
  split
  · exact h.openScope hst i
  · simp [State.closeScope, State.mapOffset]
  · rw [h.tokens.fnHeaderAt h.endsInEof]
    exact expectBody ..
  · rw [h.tokens.constructorHeaderAt h.endsInEof]
    exact expectBody ..
  · rw [h.tokens.classHeaderAt h.endsInEof]
    cases classHeaderAt doc.tokens i <;> rfl
  · exact h.expectLoop st i
  · exact h.declare st i
  · exact h.declare st i
  · rfl

/-- The walk over a moved document goes through the moved states. -/
theorem stateBefore (h : doc.Moved g doc') (i : Nat) :
    stateBefore doc' i = (stateBefore doc i).mapOffset g ∧ (stateBefore doc i).AwaitsName doc := by
  induction i with
  | zero => exact ⟨rfl, .of_eq_none rfl⟩
  | succ i ih =>
    obtain ⟨heq, hname⟩ := ih
    rw [Resolve.stateBefore, heq]
    exact ⟨h.step hname i, hname.step i⟩

/-! ## Calls -/

theorem lookupCallable {symbols symbols' : SymbolTable} (hs : symbols.Moved g symbols')
    (st : State) (name : String) :
    lookupCallable symbols' (st.mapOffset g) name =
      (lookupCallable symbols st name).map (Signature.mapOffset g) := by
  have hclasses : (st.mapOffset g).classes = st.classes := rfl
  unfold Resolve.lookupCallable
  rw [hclasses, hs.functions, hs.method?]
  cases st.classes.head? with
  | none =>
    simp only [Option.bind_none, Option.map_or, Option.map_none, Option.orElse_eq_orElse,
      Option.orElse_eq_or]
  | some found =>
    obtain ⟨className, depth⟩ := found
    simp only [Option.bind_some, hs.classMethod? className name, Option.map_or,
      Option.orElse_eq_orElse, Option.orElse_eq_or]

theorem checkArguments (h : doc.Moved g doc') (args : List Extent) (params : List Parameter)
    (hargs : ∀ e ∈ args, e.start < e.stop ∧ e.stop < doc.tokens.length) :
    checkArguments doc' args params =
      (checkArguments doc args params).map (Diagnostic.mapOffset g) := by
  unfold Resolve.checkArguments
  rw [List.map_filterMap]
  refine List.filterMap_congr fun ⟨arg, param⟩ hmem => ?_
  obtain ⟨hlt, hstop⟩ := hargs arg (List.of_mem_zip hmem).1
  simp only [checkArgument, h.inferExtent hlt hstop]
  split <;> rfl

theorem checkAgainst (h : doc.Moved g doc') {i : Nat} (hopen : doc.kind (i + 1) = .leftParen)
    (what : String) (s : Signature) :
    checkAgainst doc' i what (s.mapOffset g) =
      (checkAgainst doc i what s).map (Diagnostic.mapOffset g) := by
  unfold Resolve.checkAgainst
  rw [h.tokens.callClose]
  cases hclose : callClose doc.tokens (i + 1) with
  | none => rfl
  | some closer =>
    obtain ⟨hkind, hlt⟩ := callClose_spec hopen hclose
    have hcloser := h.endsInEof.succ_lt_of_eq hkind (by decide)
    have hin : ∀ e ∈ splitArguments doc.tokens (i + 1) closer,
        e.start < e.stop ∧ e.stop < doc.tokens.length := by
      intro e he
      have := mem_splitArguments hlt he
      omega
    have hargs := h.checkArguments (splitArguments doc.tokens (i + 1) closer) s.params hin
    have harity : (s.mapOffset g).arity = s.arity := rfl
    have hparams : (s.mapOffset g).params = s.params := rfl
    simp only [h.tokens.splitArguments, harity, hparams, hargs, List.map_append, h.span]
    split
    · rfl
    · simp

theorem checkFunctionCall (h : doc.Moved g doc') {symbols symbols' : SymbolTable}
    (hs : symbols.Moved g symbols') (st : State) {i : Nat} (hid : doc.kind i = .identifier)
    (hopen : doc.kind (i + 1) = .leftParen) :
    checkFunctionCall doc' symbols' (st.mapOffset g) i =
      (checkFunctionCall doc symbols st i).map (Diagnostic.mapOffset g) := by
  simp only [Resolve.checkFunctionCall, h.lexeme hid (by decide), lookupCallable hs]
  cases Resolve.lookupCallable symbols st (doc.token i).lexeme with
  | none => simp [h.span]
  | some s => exact h.checkAgainst hopen _ s

theorem checkConstructorCall (h : doc.Moved g doc') {symbols symbols' : SymbolTable}
    (hs : symbols.Moved g symbols') {i : Nat} (hid : doc.kind i = .identifier)
    (hopen : doc.kind (i + 1) = .leftParen) :
    checkConstructorCall doc' symbols' i =
      (checkConstructorCall doc symbols i).map (Diagnostic.mapOffset g) := by
  simp only [Resolve.checkConstructorCall, h.lexeme hid (by decide)]
  rcases hs.class?_cases (doc.token i).lexeme with ⟨hc, hc'⟩ | ⟨c, c', hc, hc', hmoved⟩
  · simp [hc, hc', h.span]
  · have hctor : c'.constructor? = c.constructor?.map (Signature.mapOffset g) :=
      hmoved.methods ClassInfo.constructorName
    simp only [hc, hc', hctor]
    cases c.constructor? with
    | none => rfl
    | some s => exact h.checkAgainst hopen _ s

theorem callForm (h : doc.Moved g doc') (i : Nat) : callForm doc' i = callForm doc i := by
  cases i with
  | zero => rfl
  | succ i => simp only [Resolve.callForm, h.kind]

theorem checkCall (h : doc.Moved g doc') {symbols symbols' : SymbolTable}
    (hs : symbols.Moved g symbols') (st : State) {i : Nat} (hid : doc.kind i = .identifier)
    (hopen : doc.kind (i + 1) = .leftParen) :
    checkCall doc' symbols' (st.mapOffset g) i =
      (checkCall doc symbols st i).map (Diagnostic.mapOffset g) := by
  unfold Resolve.checkCall
  rw [h.callForm]
  split
  · rfl
  · exact h.checkConstructorCall hs hid hopen
  · exact h.checkFunctionCall hs st hid hopen

/-! ## Declarations, assignments and literals -/

theorem checkInitializer (h : doc.Moved g doc') {d : VarDecl} {i stop : Nat}
    (hr : d.ReadAt doc.tokens i stop) :
    checkInitializer doc' (d.mapOffset g) =
      (checkInitializer doc d).map (Diagnostic.mapOffset g) := by
  unfold Resolve.checkInitializer
  simp only [VarDecl.mapOffset]
  cases d.type with
  | none => rfl
  | some t =>
    cases hinit : d.init with
    | none => rfl
    | some e =>
      obtain ⟨_, hlt, hstop⟩ := hr.init_bounds h.endsInEof hinit
      simp only [Option.map_some, TypeRef.mapOffset, h.inferExtent hlt hstop]
      split
      · rfl
      · simp

theorem checkDeclaration (h : doc.Moved g doc') (st : State) (i : Nat) :
    checkDeclaration doc' (st.mapOffset g) i =
      (checkDeclaration doc st i).map (Diagnostic.mapOffset g) := by
  unfold Resolve.checkDeclaration
  rw [h.tokens.varDeclAt h.endsInEof]
  cases hd : varDeclAt doc.tokens i with
  | none => rfl
  | some d =>
    obtain ⟨stop, hr⟩ := (varDeclAt_eq_some_iff h.endsInEof).mp hd
    have hname : (d.mapOffset g).name = d.name := rfl
    have hscopes : (st.mapOffset g).scopes = st.scopes.mapOffset g := rfl
    simp only [Option.map_some, hname, hscopes, ScopeStack.lookupCurrent_mapOffset]
    cases st.scopes.lookupCurrent d.name with
    | none => exact h.checkInitializer hr
    | some earlier => simp [Variable.mapOffset, VarDecl.mapOffset]

theorem checkAssignment (h : doc.Moved g doc') (st : State) {i : Nat}
    (hid : doc.kind i = .identifier) :
    checkAssignment doc' (st.mapOffset g) i =
      (checkAssignment doc st i).map (Diagnostic.mapOffset g) := by
  have hscopes : (st.mapOffset g).scopes = st.scopes.mapOffset g := rfl
  simp only [Resolve.checkAssignment, h.lexeme hid (by decide), h.span, hscopes,
    ScopeStack.lookup_mapOffset]
  cases st.scopes.lookup (doc.token i).lexeme with
  | none => rfl
  | some v =>
    have hkind : (v.mapOffset g).kind = v.kind := rfl
    simp only [Option.map_some, hkind]
    split
    · rfl
    · simp [Variable.mapOffset]

theorem checkLiteralOperation (h : doc.Moved g doc') (i : Nat) :
    checkLiteralOperation doc' i =
      (checkLiteralOperation doc i).map (Diagnostic.mapOffset g) := by
  unfold Resolve.checkLiteralOperation
  rw [h.kind, h.kind]
  split
  · rename_i harith
    have hlexeme : (doc'.token (i + 1)).lexeme = (doc.token (i + 1)).lexeme :=
      h.lexeme rfl fun hk => by simp [hk, Kind.isArithmetic] at harith
    cases operandName (doc.kind (i + 2)) with
    | none => rfl
    | some operand => simp [hlexeme, h.span]
  · rfl

theorem isStatementStart (h : doc.Moved g doc') (i : Nat) :
    isStatementStart doc' i = isStatementStart doc i := by
  rw [Resolve.isStatementStart, Resolve.isStatementStart, h.tokens.startsLine, h.kind]

/-- The errors at a token, in the moved state before it. -/
theorem findings (h : doc.Moved g doc') {symbols symbols' : SymbolTable}
    (hs : symbols.Moved g symbols') (st : State) (i : Nat) :
    findings doc' symbols' (st.mapOffset g) i =
      (findings doc symbols st i).map (Diagnostic.mapOffset g) := by
  unfold Resolve.findings
  rw [h.kind]
  split
  · exact h.checkDeclaration st i
  · exact h.checkDeclaration st i
  · rename_i hid
    unfold checkIdentifier
    rw [h.kind, h.isStatementStart]
    split
    · rename_i hopen
      exact h.checkCall hs st hid hopen
    · split
      · exact h.checkAssignment st hid
      · rfl
  · exact h.checkLiteralOperation i
  · rfl

/-- **Over a moved document the walk reports the moved errors.** -/
theorem resolve (h : doc.Moved g doc') {symbols symbols' : SymbolTable}
    (hs : symbols.Moved g symbols') :
    Resolve.check doc' symbols' =
      (Resolve.check doc symbols).map (Diagnostic.mapOffset g) := by
  rw [check_eq, check_eq, List.map_flatMap, h.tokens.length_eq]
  simp only [(h.stateBefore _).1, h.findings hs]

end Document.Moved

end AuroraLint
