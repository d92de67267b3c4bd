import AuroraLint.Proofs.Continued.Symbols
import AuroraLint.Proofs.Moved.Resolve
import AuroraLint.Proofs.Respelled.Types
import AuroraLint.Proofs.Symbols

/-!
# Scope resolution in a document that goes on

The walk over a document goes through the same states when a declaration is written below it, and
finds the same at each token, calls of the declared function apart.

* `Document.Continued`    : two documents of which the second goes on where the first one ends.
* `Resolve.CallsFunction` : a token is the name in a call of a function.

Main statements: `Document.Continued.stateBefore` — the states are the same, by one lemma for each
kind of token; `Document.Continued.findings` — so are the findings, but that a call of the new
function is checked against it.
-/

set_option autoImplicit false

namespace AuroraLint

/-- The document `doc'` goes on where `doc` ends, after the tokens `front`; the text of every
expression of `doc` is of the same type in it. -/
structure Document.Continued (front : List Token) (doc doc' : Document) : Prop where
  tokens : AuroraLint.Continued front doc.tokens doc'.tokens
  type_eq : ∀ e : Extent, e.start < e.stop → e.stop ≤ front.length →
    (doc'.inferExtent e).1 = (doc.inferExtent e).1

/-- The text of a real span is the same when the document goes on. -/
theorem Source.slice_append {file text : String} {span : Span} (more : String)
    (h : span.Real file text.toList) :
    slice ⟨file, text ++ more⟩ span.start span.stop = slice ⟨file, text⟩ span.start span.stop := by
  obtain ⟨front, hfront, hstart⟩ := h.start_true
  obtain ⟨reach, ⟨back, hback⟩, hstop⟩ := h.stop_true
  have hlt := h.start_lt_stop
  rw [hstart, hstop, Position.ofFront_offset, Position.ofFront_offset] at hlt
  obtain ⟨mid, rfl⟩ := Text.prefix_of_byteSize_le hfront ⟨back, hback⟩ (Nat.le_of_lt hlt)
  have hchars : (⟨file, text⟩ : Source).chars = front ++ (mid ++ back) := by
    rw [← List.append_assoc, hback]
    rfl
  have hchars' : (⟨file, text ++ more⟩ : Source).chars =
      front ++ (mid ++ (back ++ more.toList)) := by
    rw [Source.chars, String.toList_append, ← hback]
    simp
  rw [hstart, hstop, Source.slice_eq hchars rfl rfl, Source.slice_eq hchars' rfl rfl]

/-- A text that goes on is a document that goes on, if its tokens do. -/
theorem Document.continued_ofText {uri text more : String} {front : List Token}
    (h : AuroraLint.Continued front (ofText uri text).tokens (ofText uri (text ++ more)).tokens) :
    Document.Continued front (ofText uri text) (ofText uri (text ++ more)) := by
  refine ⟨h, fun e hlt hstop => ?_⟩
  have hreal : (e.span (ofText uri text).tokens).Real uri text.toList :=
    (streamed_ofText uri text).extent_real hlt (by rw [h.length_eq]; omega)
  simp only [inferExtent, h.extentSpan hlt hstop]
  exact congrArg Ty.infer (Source.slice_append more hreal)

namespace Document.Continued

open Resolve

variable {front : List Token} {doc doc' : Document} {i : Nat}

theorem token (h : doc.Continued front doc') (hi : i < front.length) : doc'.token i = doc.token i :=
  h.tokens.tokenAt hi

theorem kind (h : doc.Continued front doc') (hi : i < front.length) : doc'.kind i = doc.kind i :=
  h.tokens.kindAt hi

theorem inferExtent (h : doc.Continued front doc') {e : Extent} (hlt : e.start < e.stop)
    (hstop : e.stop ≤ front.length) : doc'.inferExtent e = doc.inferExtent e :=
  Prod.ext (h.type_eq e hlt hstop) (h.tokens.extentSpan hlt hstop)

theorem initExtent (h : doc.Continued front doc') {d : VarDecl} {stop : Nat}
    (hd : d.ReadAt doc.tokens i stop) {e : Extent} (he : d.init = some e) :
    doc'.inferExtent e = doc.inferExtent e := by
  obtain ⟨_, hlt, hstop⟩ := hd.init_bounds h.tokens.endsInEof he
  rw [h.tokens.length_eq] at hstop
  exact h.inferExtent hlt (Nat.le_of_lt_succ hstop)

/-! ## States -/

theorem declare (h : doc.Continued front doc') (st : State) (hi : i < front.length) :
    st.declare doc' (varDeclAt doc'.tokens i) = st.declare doc (varDeclAt doc.tokens i) := by
  rw [h.tokens.varDeclAt hi]
  cases hd : varDeclAt doc.tokens i with
  | none => rfl
  | some d =>
    obtain ⟨stop, hr⟩ := (varDeclAt_eq_some_iff h.tokens.endsInEof).mp hd
    have htype : declaredType doc' d = declaredType doc d := by
      unfold declaredType
      split
      · rfl
      · rename_i e _ hinit
        rw [h.initExtent hr hinit]
      · rfl
    simp only [State.declare, declaredVariable, htype]

theorem openScope (h : doc.Continued front doc') {st : State} (hst : st.AwaitsName doc) (i : Nat) :
    st.openScope doc' i = st.openScope doc i := by
  unfold State.openScope State.openBlock
  cases st.awaitedBody.filter (·.1 == i) with
  | some found => rfl
  | none =>
    cases st.awaitedClass.filter (·.1 == i) with
    | some found => rfl
    | none =>
      cases hb : st.awaitedBinding with
      | none => rfl
      | some binding => simp only [h.token (h.tokens.lt_length (hst binding hb) nofun)]

theorem expectLoop (h : doc.Continued front doc') (st : State) (hi : i < front.length) :
    st.expectLoop doc' i = st.expectLoop doc i := by
  have hname : doc'.kind (i + 1) = .identifier ↔ doc.kind (i + 1) = .identifier :=
    h.tokens.kindAt_eq_iff hi nofun nofun
  unfold State.expectLoop
  by_cases hid : doc.kind (i + 1) = .identifier
  · have hlt := h.tokens.lt_length hid nofun
    have hin : doc'.kind (i + 2) = .kwIn ↔ doc.kind (i + 2) = .kwIn :=
      h.tokens.kindAt_eq_iff hlt nofun nofun
    simp only [hname, hin]
  · simp only [hname, hid, false_and]

/-- **One token of the walk.** -/
theorem step (h : doc.Continued front doc') {st : State} (hst : st.AwaitsName doc)
    (hi : i < front.length) : st.step doc' i = st.step doc i := by
  unfold State.step
  rw [h.kind hi, h.tokens.fnHeaderAt hi, h.tokens.constructorHeaderAt hi,
    h.tokens.classHeaderAt hi, h.openScope hst, h.expectLoop st hi, h.declare st hi]

/-- The walk goes through the same states up to the end of the document. -/
theorem stateBefore (h : doc.Continued front doc') (hi : i ≤ front.length) :
    stateBefore doc' i = stateBefore doc i ∧ (stateBefore doc i).AwaitsName doc := by
  induction i with
  | zero => exact ⟨rfl, .of_eq_none rfl⟩
  | succ i ih =>
    obtain ⟨heq, hname⟩ := ih (by omega)
    rw [Resolve.stateBefore, heq]
    exact ⟨h.step hname hi, hname.step i⟩

/-! ## Declarations, assignments and literals -/

theorem checkDeclaration (h : doc.Continued front doc') (st : State) (hi : i < front.length) :
    checkDeclaration doc' st i = checkDeclaration doc st i := by
  unfold Resolve.checkDeclaration
  rw [h.tokens.varDeclAt hi]
  cases hd : varDeclAt doc.tokens i with
  | none => rfl
  | some d =>
    obtain ⟨stop, hr⟩ := (varDeclAt_eq_some_iff h.tokens.endsInEof).mp hd
    have hinit : checkInitializer doc' d = checkInitializer doc d := by
      unfold checkInitializer
      split
      · rename_i e _ hinit
        rw [h.initExtent hr hinit]
      · rfl
    simp only [hinit]

theorem checkAssignment (h : doc.Continued front doc') (st : State) (hi : i < front.length) :
    checkAssignment doc' st i = checkAssignment doc st i := by
  simp only [Resolve.checkAssignment, h.token hi]

theorem checkLiteralOperation (h : doc.Continued front doc') (hi : i < front.length) :
    checkLiteralOperation doc' i = checkLiteralOperation doc i := by
  have harith : (doc'.kind (i + 1)).isArithmetic = (doc.kind (i + 1)).isArithmetic :=
    h.tokens.kindAt_congr hi Kind.isArithmetic rfl
  unfold Resolve.checkLiteralOperation
  rw [harith]
  split
  · rename_i hop
    have hlt : i + 1 < front.length := by
      refine h.tokens.lt_length rfl fun heof => ?_
      rw [show doc.kind (i + 1) = .eof from heof] at hop
      cases hop
    have hoperand : operandName (doc'.kind (i + 2)) = operandName (doc.kind (i + 2)) :=
      h.tokens.kindAt_congr hlt operandName rfl
    rw [hoperand]
    cases hname : operandName (doc.kind (i + 2)) with
    | none => rfl
    | some operand =>
      have hlt' : i + 2 < front.length := by
        refine h.tokens.lt_length rfl fun heof => ?_
        rw [show doc.kind (i + 2) = .eof from heof] at hname
        cases hname
      simp only [h.token hi, h.token hlt, h.token hlt']
  · rfl

theorem isStatementStart (h : doc.Continued front doc') (hi : i < front.length) :
    isStatementStart doc' i = isStatementStart doc i := by
  rw [Resolve.isStatementStart, Resolve.isStatementStart, h.tokens.startsLine hi,
    h.kind (show i - 1 < front.length by omega)]

/-! ## Calls -/

theorem callForm (h : doc.Continued front doc') (hi : i < front.length) :
    callForm doc' i = callForm doc i := by
  cases i with
  | zero => rfl
  | succ i => simp only [Resolve.callForm, h.kind (show i < front.length by omega)]

theorem checkAgainst (h : doc.Continued front doc') (hopen : doc.kind (i + 1) = .leftParen)
    (what : String) (s : Signature) : checkAgainst doc' i what s = checkAgainst doc i what s := by
  have hi := h.tokens.lt_length hopen nofun
  unfold Resolve.checkAgainst
  rw [h.tokens.callClose hopen]
  cases hclose : callClose doc.tokens (i + 1) with
  | none => rfl
  | some closer =>
    obtain ⟨hkind, hlt⟩ := callClose_spec hopen hclose
    have hcloser := h.tokens.lt_length hkind nofun
    have hargs : checkArguments doc' (splitArguments doc.tokens (i + 1) closer) s.params =
        checkArguments doc (splitArguments doc.tokens (i + 1) closer) s.params := by
      unfold checkArguments
      refine List.filterMap_congr fun ⟨arg, param⟩ hmem => ?_
      obtain ⟨_, hstart, hstop⟩ := mem_splitArguments hlt (List.of_mem_zip hmem).1
      simp only [checkArgument, h.inferExtent hstart (by omega)]
    simp only [h.tokens.splitArguments (Nat.le_of_lt hcloser), hargs, h.token hcloser,
      h.token (show i < front.length by omega)]

end Document.Continued

namespace Resolve

variable {doc : Document} {symbols : SymbolTable} {st : State} {name : String} {i : Nat}

/-- Token `i` is the name in a call of the function `name`. -/
def CallsFunction (doc : Document) (name : String) (i : Nat) : Prop :=
  doc.kind i = .identifier ∧ doc.kind (i + 1) = .leftParen ∧ callForm doc i = .function ∧
    (doc.token i).lexeme = name

instance (doc : Document) (name : String) (i : Nat) : Decidable (CallsFunction doc name i) :=
  inferInstanceAs (Decidable (_ ∧ _ ∧ _ ∧ _))

/-- A function is looked up before all methods. -/
theorem lookupCallable_withFunction (symbols : SymbolTable) (st : State) (name other : String)
    (s : Signature) :
    lookupCallable (symbols.withFunction name s) st other =
      if name = other then some s else lookupCallable symbols st other := by
  have hfunction : (symbols.withFunction name s).function? other =
      if name = other then some s else symbols.function? other :=
    SymbolTable.function?_insert symbols name other s
  unfold lookupCallable
  rw [hfunction]
  split
  · rfl
  · rfl

/-- A name that is no function's and no method's refers to nothing, in whichever class. -/
theorem lookupCallable_eq_none (hfunction : symbols.function? name = none)
    (hmethod : symbols.method? name = none) : lookupCallable symbols st name = none := by
  have hclass : ∀ className, (symbols.class? className).bind (·.method? name) = none := by
    intro className
    rw [SymbolTable.method?_eq, List.findSome?_eq_none_iff] at hmethod
    cases hc : symbols.class? className with
    | none => rfl
    | some c =>
      have hkey : className ∈ symbols.classes.keys := by
        rw [Std.TreeMap.mem_keys, ← Std.TreeMap.isSome_getElem?_iff_mem]
        exact Option.isSome_of_eq_some hc
      rw [← hc]
      exact hmethod className hkey
  unfold lookupCallable
  rw [hfunction, hmethod]
  cases st.classes.head? with
  | none => rfl
  | some found =>
    show (none <|> (symbols.class? found.1).bind (·.method? name) <|> none) = none
    rw [hclass]
    rfl

theorem findings_eq_checkFunctionCall (h : CallsFunction doc name i) :
    findings doc symbols st i = checkFunctionCall doc symbols st i := by
  obtain ⟨hid, hopen, hform, _⟩ := h
  rw [findings, hid]
  simp only [checkIdentifier, hopen, if_true, checkCall, hform]

end Resolve

namespace Document.Continued

open Resolve

variable {front : List Token} {doc doc' : Document} {i : Nat}

theorem callsFunction (h : doc.Continued front doc') (name : String) (hi : i < front.length) :
    CallsFunction doc' name i ↔ CallsFunction doc name i := by
  have hopen : doc'.kind (i + 1) = .leftParen ↔ doc.kind (i + 1) = .leftParen :=
    h.tokens.kindAt_eq_iff hi nofun nofun
  simp only [CallsFunction, h.kind hi, hopen, h.callForm hi, h.token hi]

theorem checkCall (h : doc.Continued front doc') (symbols : SymbolTable) (st : State)
    {name : String} (s : Signature) (hi : i < front.length) (hopen : doc.kind (i + 1) = .leftParen)
    (hname : ¬ (Resolve.callForm doc i = .function ∧ (doc.token i).lexeme = name)) :
    checkCall doc' (symbols.withFunction name s) st i = checkCall doc symbols st i := by
  have hclass : ∀ c, (symbols.withFunction name s).class? c = symbols.class? c := fun _ => rfl
  unfold Resolve.checkCall
  rw [h.callForm hi]
  cases hform : Resolve.callForm doc i with
  | notCalled => rfl
  | constructor =>
    simp only [checkConstructorCall, h.token hi, hclass, h.checkAgainst hopen]
  | function =>
    have hne : name ≠ (doc.token i).lexeme := fun heq => hname ⟨hform, heq.symm⟩
    simp only [checkFunctionCall, h.token hi, lookupCallable_withFunction, if_neg hne,
      h.checkAgainst hopen]

/-- **The findings at a token**, with one function more in the symbol table: a call of it is checked
against it, and all else is found as before. -/
theorem findings (h : doc.Continued front doc') (symbols : SymbolTable) (st : State)
    (name : String) (s : Signature) (hi : i < front.length) :
    findings doc' (symbols.withFunction name s) st i =
      if CallsFunction doc name i then Resolve.checkAgainst doc i s!"Function '{name}'" s
      else findings doc symbols st i := by
  by_cases hcalls : CallsFunction doc name i
  · rw [if_pos hcalls, findings_eq_checkFunctionCall ((h.callsFunction name hi).mpr hcalls)]
    obtain ⟨_, hopen, _, hname⟩ := hcalls
    simp only [checkFunctionCall, h.token hi, hname, lookupCallable_withFunction, if_true,
      h.checkAgainst hopen]
  · rw [if_neg hcalls]
    unfold Resolve.findings
    rw [h.kind hi]
    split
    · exact h.checkDeclaration st hi
    · exact h.checkDeclaration st hi
    · rename_i hid
      have hopen : doc'.kind (i + 1) = .leftParen ↔ doc.kind (i + 1) = .leftParen :=
        h.tokens.kindAt_eq_iff hi (by decide) (by decide)
      have hassign : (doc'.kind (i + 1)).isAssignment = (doc.kind (i + 1)).isAssignment :=
        h.tokens.kindAt_congr hi Kind.isAssignment rfl
      simp only [checkIdentifier, hopen, hassign, h.isStatementStart hi, h.checkAssignment st hi]
      split
      · rename_i hparen
        exact h.checkCall symbols st s hi hparen fun hform => hcalls ⟨hid, hparen, hform⟩
      · rfl
    · exact h.checkLiteralOperation hi
    · rfl

end Document.Continued

end AuroraLint
