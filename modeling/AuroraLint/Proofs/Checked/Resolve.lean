import AuroraLint.Proofs.Checked.Collect
import AuroraLint.Proofs.Checked.Source
import AuroraLint.Proofs.Located.Resolve

/-!
# The walk never fails

* `Checked.step`     : one token of the walk, with every index, difference and cut checked.
* `Checked.findings` : what is wrong at a token, likewise.

Main statement: `walk_eq_ok`. What the walk looks up later is in the state: the index of a loop's
name, which `Resolve.State.Located` keeps within the tokens.
-/

set_option autoImplicit false

namespace AuroraLint.Checked

open Resolve

/-! ## Scopes -/

/-- The innermost scope, looked up as the last of all. -/
def current (s : ScopeStack) : Checked Scope := do
  let top ← sub s.depth 1
  item s.scopes.reverse top

/-- As `ScopeStack.lookupCurrent`. -/
def lookupCurrent (s : ScopeStack) (name : String) : Checked (Option Variable) := do
  let scope ← current s
  return scope.find? name

/-- As `ScopeStack.define`; the variable of a name that is taken is looked up. -/
def define (s : ScopeStack) (v : Variable) : Checked ScopeStack := do
  let scope ← current s
  if (scope.find? v.name).isSome then do
    let _ ← orFault .name (scope.find? v.name)
    return s
  else return s.define v

/-- Defines the variables of parameters one after the other. -/
def defineParams (s : ScopeStack) : List Param → Checked ScopeStack
  | [] => pure s
  | p :: ps => do
    let s ← define s (parameterVariable p)
    defineParams s ps

/-- The global scope is never closed, so there is an innermost one. -/
theorem current_eq_ok (s : ScopeStack) : current s = .ok s.current := by
  rw [current, sub_eq_ok s.depth_pos, ok_bind]
  refine item_eq_ok ?_
  cases s with
  | mk inner global =>
    cases inner with
    | nil => rfl
    | cons top rest =>
      simp [ScopeStack.depth, ScopeStack.scopes, ScopeStack.current]

theorem lookupCurrent_eq_ok (s : ScopeStack) (name : String) :
    lookupCurrent s name = .ok (s.lookupCurrent name) := by
  rw [lookupCurrent, current_eq_ok, ok_bind]
  rfl

theorem define_of_taken {s : ScopeStack} {v w : Variable} (h : s.current.find? v.name = some w) :
    s.define v = s := by
  cases s with
  | mk inner global =>
    cases inner with
    | nil =>
      have hfind : global.find? v.name = some w := h
      simp [ScopeStack.define, Scope.define, hfind]
    | cons top rest =>
      have hfind : top.find? v.name = some w := h
      simp [ScopeStack.define, Scope.define, hfind]

theorem define_eq_ok (s : ScopeStack) (v : Variable) : define s v = .ok (s.define v) := by
  rw [define, current_eq_ok, ok_bind]
  cases hfind : s.current.find? v.name with
  | none => rfl
  | some w =>
    rw [define_of_taken hfind]
    rfl

theorem defineParams_eq_ok (s : ScopeStack) (ps : List Param) :
    defineParams s ps = .ok (ps.foldl (fun s p => s.define (parameterVariable p)) s) := by
  induction ps generalizing s with
  | nil => rfl
  | cons p ps ih =>
    rw [defineParams, define_eq_ok, ok_bind, ih]
    rfl

/-! ## The state -/

/-- As `State.openBlock`, with the token of a loop's name looked up. -/
def openBlock (doc : Document) (st : State) (i : Nat) : Checked State :=
  let opened :=
    { st with awaitedBody := none, awaitedClass := none, scopes := st.scopes.push .block }
  match st.awaitedClass.filter (·.1 == i), st.awaitedBinding with
  | some (_, name), _ => pure { opened with classes := (name, opened.scopes.depth) :: st.classes }
  | none, some binding => do
    let t ← item doc.tokens binding
    let scopes ← define opened.scopes (bindingVariable t)
    return { opened with awaitedBinding := none, scopes }
  | none, none => pure opened

/-- As `State.openScope`. -/
def openScope (doc : Document) (st : State) (i : Nat) : Checked State :=
  match st.awaitedBody.filter (·.1 == i) with
  | some (_, params) => do
    let scopes ← defineParams (st.scopes.push .function) params
    return { st with awaitedBody := none, scopes }
  | none => openBlock doc st i

/-- The type of an initial value and its span, if there is one. -/
def initialized (doc : Document) (d : VarDecl) : Checked (Option (Ty × Span)) :=
  match d.init with
  | some e => do
    let inferred ← inferExtent doc e
    return some inferred
  | none => pure none

/-- As `State.declare`. -/
def declare (doc : Document) (st : State) (decl : Option VarDecl) : Checked State :=
  match decl with
  | some d => do
    let init ← initialized doc d
    let type :=
      match d.type, init with
      | some t, _ => Ty.ofName t.text
      | none, some (type, _) => type
      | none, none => .double
    let kind := if d.isMutable then .varBound else .letBound
    let scopes ← define st.scopes ⟨d.name, type, kind, d.nameSpan⟩
    return { st with scopes }
  | none => pure st

/-- As `State.step`. -/
def step (doc : Document) (st : State) (i : Nat) : Checked State := do
  let t ← item doc.tokens i
  match t.kind with
  | .leftBrace => openScope doc st i
  | .rightBrace => return st.closeScope
  | .kwFn => do
    let header ← fnHeaderAt doc.tokens i
    return st.expectBody header
  | .kwConstructor => do
    let header ← constructorHeaderAt doc.tokens i
    return st.expectBody header
  | .kwClass => do
    let header ← classHeaderAt doc.tokens i
    return st.expectClass header
  | .kwFor => return st.expectLoop doc i
  | .kwLet | .kwVar => do
    let decl ← varDeclAt doc.tokens i
    declare doc st decl
  | _ => return st

section

variable {doc : Document} {i : Nat} {st : State}

theorem openBlock_eq_ok (h : doc.Streamed) (hst : st.Located doc i) :
    openBlock doc st i = .ok (st.openBlock doc i) := by
  unfold openBlock State.openBlock
  cases st.awaitedClass.filter (·.1 == i) with
  | some found => rfl
  | none =>
    cases hbinding : st.awaitedBinding with
    | none => rfl
    | some binding =>
      have hlt := h.endsInEof.succ_lt (hst.binding binding hbinding).1
      simp only [token_eq_ok (show binding < doc.tokens.length by omega), ok_bind, define_eq_ok]
      rfl

theorem openScope_eq_ok (h : doc.Streamed) (hst : st.Located doc i) :
    openScope doc st i = .ok (st.openScope doc i) := by
  unfold openScope State.openScope
  cases st.awaitedBody.filter (·.1 == i) with
  | some found =>
    simp only [defineParams_eq_ok, ok_bind]
    rfl
  | none => exact openBlock_eq_ok h hst

theorem initialized_eq_ok (h : doc.Streamed) {d : VarDecl} {stop : Nat}
    (hr : d.ReadAt doc.tokens i stop) : initialized doc d = .ok (d.init.map doc.inferExtent) := by
  unfold initialized
  cases hinit : d.init with
  | none => rfl
  | some e =>
    obtain ⟨_, hlt, hstop⟩ := hr.init_bounds h.endsInEof hinit
    simp only [inferExtent_eq_ok h hlt hstop, ok_bind]
    rfl

theorem declare_eq_ok (h : doc.Streamed) :
    declare doc st (AuroraLint.varDeclAt doc.tokens i) =
      .ok (st.declare doc (AuroraLint.varDeclAt doc.tokens i)) := by
  cases hdecl : AuroraLint.varDeclAt doc.tokens i with
  | none => rfl
  | some d =>
    obtain ⟨stop, hr⟩ := (varDeclAt_eq_some_iff h.endsInEof).mp hdecl
    simp only [declare, State.declare, initialized_eq_ok h hr, ok_bind, define_eq_ok,
      declaredVariable, declaredType]
    cases d.type with
    | some t => rfl
    | none => cases d.init <;> rfl

theorem step_eq_ok (h : doc.Streamed) (hst : st.Located doc i) (hi : i < doc.tokens.length) :
    step doc st i = .ok (st.step doc i) := by
  have hts := h.endsInEof
  rw [step, State.step, token_eq_ok hi, ok_bind, Document.kind, kindAt]
  cases (tokenAt doc.tokens i).kind with
  | leftBrace => exact openScope_eq_ok h hst
  | kwFn =>
    simp only [fnHeaderAt_eq_ok hts hi, ok_bind]
    rfl
  | kwConstructor =>
    simp only [constructorHeaderAt_eq_ok hts hi, ok_bind]
    rfl
  | kwClass =>
    simp only [classHeaderAt_eq_ok hts, ok_bind]
    rfl
  | kwLet | kwVar =>
    simp only [varDeclAt_eq_ok hts, ok_bind]
    exact declare_eq_ok h
  | _ => rfl

end

/-! ## Calls -/

/-- As `Resolve.checkArgument`. -/
def checkArgument (doc : Document) (arg : Extent) (param : Parameter) :
    Checked (Option Diagnostic) := do
  let (actual, span) ← inferExtent doc arg
  return if param.type.accepts actual then none
    else some (.error s!"Type mismatch: expected '{param.type.render}', got '{actual.render}'" span)

/-- As `Resolve.checkAgainst`. -/
def checkAgainst (doc : Document) (i : Nat) (what : String) (s : Signature) :
    Checked (List Diagnostic) := do
  let close ← callClose doc.tokens (i + 1)
  match close with
  | none => return []
  | some closer => do
    let args ← splitArguments doc.tokens (i + 1) closer
    let name ← item doc.tokens i
    let last ← item doc.tokens closer
    let arity :=
      if args.length = s.arity then []
      else
        [.error s!"{what} expects {s.arity} argument(s), but got {args.length}"
          (name.span.merge last.span)]
    let types ← filterMap (fun (arg, param) => checkArgument doc arg param) (args.zip s.params)
    return arity ++ types

/-- As `Resolve.checkFunctionCall`. -/
def checkFunctionCall (doc : Document) (symbols : SymbolTable) (st : State) (i : Nat) :
    Checked (List Diagnostic) := do
  let name ← item doc.tokens i
  match lookupCallable symbols st name.lexeme with
  | none =>
    return [(Diagnostic.error s!"Undefined function '{name.lexeme}'" name.span).withSuggestion
      s!"declare it with `fn {name.lexeme}(...)` or `extern {name.lexeme}(...)`"]
  | some s => checkAgainst doc i s!"Function '{name.lexeme}'" s

/-- As `Resolve.checkConstructorCall`. -/
def checkConstructorCall (doc : Document) (symbols : SymbolTable) (i : Nat) :
    Checked (List Diagnostic) := do
  let name ← item doc.tokens i
  match symbols.class? name.lexeme with
  | none => return [.error s!"Undefined class '{name.lexeme}'" name.span]
  | some c =>
    match c.constructor? with
    | none => return []
    | some s => checkAgainst doc i s!"Constructor of class '{name.lexeme}'" s

/-- As `Resolve.callForm`. -/
def callForm (doc : Document) : Nat → Checked CallForm
  | 0 => pure .function
  | i + 1 => do
    let previous ← item doc.tokens i
    match previous.kind with
    | .kwFn | .kwExtern | .kwClass | .dot => return .notCalled
    | .kwNew => return .constructor
    | _ => return .function

/-- As `Resolve.checkCall`. -/
def checkCall (doc : Document) (symbols : SymbolTable) (st : State) (i : Nat) :
    Checked (List Diagnostic) := do
  let form ← callForm doc i
  match form with
  | .notCalled => return []
  | .constructor => checkConstructorCall doc symbols i
  | .function => checkFunctionCall doc symbols st i

section

variable {doc : Document} {symbols : SymbolTable} {st : State} {i : Nat}

theorem checkArgument_eq_ok (h : doc.Streamed) {arg : Extent} (param : Parameter)
    (hlt : arg.start < arg.stop) (hstop : arg.stop < doc.tokens.length) :
    checkArgument doc arg param = .ok (Resolve.checkArgument doc arg param) := by
  rw [checkArgument, inferExtent_eq_ok h hlt hstop, ok_bind]
  rfl

theorem checkAgainst_eq_ok (h : doc.Streamed) (hopen : doc.kind (i + 1) = .leftParen)
    (what : String) (s : Signature) :
    checkAgainst doc i what s = .ok (Resolve.checkAgainst doc i what s) := by
  rw [checkAgainst, Resolve.checkAgainst, callClose_eq_ok hopen, ok_bind]
  cases hclose : AuroraLint.callClose doc.tokens (i + 1) with
  | none => rfl
  | some closer =>
    obtain ⟨hkind, hlt⟩ := callClose_spec hopen hclose
    have hcloser := h.endsInEof.succ_lt_of_eq hkind nofun
    have htypes : filterMap (fun (arg, param) => checkArgument doc arg param)
        ((AuroraLint.splitArguments doc.tokens (i + 1) closer).zip s.params) =
          .ok (checkArguments doc (AuroraLint.splitArguments doc.tokens (i + 1) closer) s.params) := by
      refine filterMap_eq_ok fun pair hpair => ?_
      obtain ⟨_, hne, hstop⟩ := mem_splitArguments hlt (List.of_mem_zip hpair).1
      exact checkArgument_eq_ok h _ hne (by omega)
    simp only [splitArguments_eq_ok hlt (show closer ≤ doc.tokens.length by omega), ok_bind,
      token_eq_ok (show i < doc.tokens.length by omega),
      token_eq_ok (show closer < doc.tokens.length by omega), htypes]
    rfl

theorem callForm_eq_ok (hi : i < doc.tokens.length) :
    callForm doc i = .ok (Resolve.callForm doc i) := by
  cases i with
  | zero => rfl
  | succ i =>
    rw [callForm, Resolve.callForm, token_eq_ok (by omega), ok_bind, Document.kind, kindAt]
    cases (tokenAt doc.tokens i).kind <;> rfl

theorem checkCall_eq_ok (h : doc.Streamed) (hopen : doc.kind (i + 1) = .leftParen) :
    checkCall doc symbols st i = .ok (Resolve.checkCall doc symbols st i) := by
  have hi : i < doc.tokens.length := by
    have := h.endsInEof.succ_lt_of_eq hopen nofun
    omega
  rw [checkCall, Resolve.checkCall, callForm_eq_ok hi, ok_bind]
  cases Resolve.callForm doc i with
  | notCalled => rfl
  | constructor =>
    simp only [checkConstructorCall, Resolve.checkConstructorCall, Document.token, token_eq_ok hi,
      ok_bind]
    cases symbols.class? (tokenAt doc.tokens i).lexeme with
    | none => rfl
    | some c =>
      simp only
      cases c.constructor? with
      | none => rfl
      | some s => exact checkAgainst_eq_ok h hopen _ s
  | function =>
    simp only [checkFunctionCall, Resolve.checkFunctionCall, Document.token, token_eq_ok hi,
      ok_bind]
    cases lookupCallable symbols st (tokenAt doc.tokens i).lexeme with
    | none => rfl
    | some s => exact checkAgainst_eq_ok h hopen _ s

end

/-! ## Variables and literals -/

/-- As `Resolve.checkInitializer`. -/
def checkInitializer (doc : Document) (d : VarDecl) : Checked (List Diagnostic) := do
  let init ← initialized doc d
  match d.type, init with
  | some t, some (actual, span) =>
    let declared := Ty.ofName t.text
    return if declared.accepts actual then []
      else
        [.error s!"Type mismatch: cannot assign '{actual.render}' to '{declared.render}'"
          (d.nameSpan.merge span)]
  | _, _ => return []

/-- As `Resolve.checkDeclaration`. -/
def checkDeclaration (doc : Document) (st : State) (i : Nat) : Checked (List Diagnostic) := do
  let decl ← varDeclAt doc.tokens i
  match decl with
  | none => return []
  | some d => do
    let taken ← lookupCurrent st.scopes d.name
    match taken with
    | some earlier =>
      let message := s!"Variable '{d.name}' is already declared at line {earlier.declaredAt.line}"
      return [(Diagnostic.error message d.nameSpan).withRelated earlier.declaredAt
        "Previous declaration here"]
    | none => checkInitializer doc d

/-- As `Resolve.checkAssignment`. -/
def checkAssignment (doc : Document) (st : State) (i : Nat) : Checked (List Diagnostic) := do
  let t ← item doc.tokens i
  let name := t.lexeme
  match st.scopes.lookup name with
  | none => return [.error s!"Undefined variable '{name}'" t.span]
  | some v =>
    if v.kind.isAssignable then return []
    else
      let message := s!"Cannot assign to immutable variable '{name}'. Declared with 'let' at " ++
        s!"line {v.declaredAt.line}. Use 'var' for mutable variables."
      return [((Diagnostic.error message t.span).withRelated v.declaredAt
        "Declared here").withSuggestion s!"declare it as `var {name}`"]

/-- As `Resolve.checkLiteralOperation`. -/
def checkLiteralOperation (doc : Document) (i : Nat) : Checked (List Diagnostic) :=
  if (doc.kind (i + 1)).isArithmetic then
    match operandName (doc.kind (i + 2)) with
    | some operand => do
      let literal ← item doc.tokens i
      let other ← item doc.tokens (i + 2)
      let operator ← item doc.tokens (i + 1)
      let message := s!"Cannot perform arithmetic operation '{operator.lexeme}' " ++
        s!"on string and {operand}"
      return [.error message (literal.span.merge other.span)]
    | none => pure []
  else pure []

/-- As `AuroraLint.startsLine`. -/
def startsLine (ts : List Token) (i : Nat) : Checked Bool :=
  if i = 0 then pure true
  else do
    let before ← sub i 1
    let previous ← item ts before
    let t ← item ts i
    return previous.line != t.line

/-- As `Resolve.isStatementStart`. -/
def isStatementStart (doc : Document) (i : Nat) : Checked Bool := do
  let starts ← startsLine doc.tokens i
  if starts then return true
  else do
    let before ← sub i 1
    let previous ← item doc.tokens before
    match previous.kind with
    | .semicolon | .leftBrace | .rightBrace => return true
    | _ => return false

section

variable {doc : Document} {symbols : SymbolTable} {st : State} {i : Nat}

theorem checkInitializer_eq_ok (h : doc.Streamed) {d : VarDecl} {stop : Nat}
    (hr : d.ReadAt doc.tokens i stop) :
    checkInitializer doc d = .ok (Resolve.checkInitializer doc d) := by
  rw [checkInitializer, Resolve.checkInitializer, initialized_eq_ok h hr, ok_bind]
  cases d.type with
  | none => rfl
  | some t => cases d.init <;> rfl

theorem checkDeclaration_eq_ok (h : doc.Streamed) :
    checkDeclaration doc st i = .ok (Resolve.checkDeclaration doc st i) := by
  rw [checkDeclaration, Resolve.checkDeclaration, varDeclAt_eq_ok h.endsInEof, ok_bind]
  cases hdecl : AuroraLint.varDeclAt doc.tokens i with
  | none => rfl
  | some d =>
    obtain ⟨stop, hr⟩ := (varDeclAt_eq_some_iff h.endsInEof).mp hdecl
    simp only [lookupCurrent_eq_ok, ok_bind]
    cases st.scopes.lookupCurrent d.name with
    | some earlier => rfl
    | none => exact checkInitializer_eq_ok h hr

theorem checkAssignment_eq_ok (hi : i < doc.tokens.length) :
    checkAssignment doc st i = .ok (Resolve.checkAssignment doc st i) := by
  unfold checkAssignment Resolve.checkAssignment Document.token
  rw [token_eq_ok hi, ok_bind]
  dsimp only
  cases st.scopes.lookup (tokenAt doc.tokens i).lexeme with
  | none => rfl
  | some v =>
    dsimp only
    by_cases hassignable : v.kind.isAssignable = true
    · rw [if_pos hassignable, if_pos hassignable]
      rfl
    · rw [if_neg hassignable, if_neg hassignable]
      rfl

theorem checkLiteralOperation_eq_ok (h : doc.Streamed) :
    checkLiteralOperation doc i = .ok (Resolve.checkLiteralOperation doc i) := by
  unfold checkLiteralOperation Resolve.checkLiteralOperation
  split
  · cases hoperand : operandName (doc.kind (i + 2)) with
    | none => rfl
    | some operand =>
      have hlt := h.endsInEof.succ_lt (ne_eof_of_operandName hoperand)
      simp only [token_eq_ok (show i < doc.tokens.length by omega), ok_bind,
        token_eq_ok (show i + 1 < doc.tokens.length by omega),
        token_eq_ok (show i + 2 < doc.tokens.length by omega)]
      rfl
  · rfl

theorem startsLine_eq_ok {ts : List Token} (hi : i < ts.length) :
    startsLine ts i = .ok (AuroraLint.startsLine ts i) := by
  cases i with
  | zero => rfl
  | succ i =>
    rw [startsLine, if_neg (Nat.succ_ne_zero i), sub_eq_ok (by omega), ok_bind,
      token_eq_ok (by omega), ok_bind, token_eq_ok hi, ok_bind]
    rfl

/-- The first token starts its line, so there is a token before any that does not. -/
theorem isStatementStart_eq_ok (hi : i < doc.tokens.length) :
    isStatementStart doc i = .ok (Resolve.isStatementStart doc i) := by
  rw [isStatementStart, Resolve.isStatementStart, startsLine_eq_ok hi, ok_bind]
  cases hstarts : AuroraLint.startsLine doc.tokens i with
  | true => rfl
  | false =>
    have hpos : 1 ≤ i := by
      apply Classical.byContradiction
      intro hzero
      obtain rfl : i = 0 := by omega
      cases hstarts
    rw [if_neg Bool.false_ne_true, sub_eq_ok hpos, ok_bind, token_eq_ok (by omega), ok_bind,
      Bool.false_or, Document.kind, kindAt]
    cases (tokenAt doc.tokens (i - 1)).kind <;> rfl

end

/-! ## The whole walk -/

/-- As `Resolve.checkIdentifier`. -/
def checkIdentifier (doc : Document) (symbols : SymbolTable) (st : State) (i : Nat) :
    Checked (List Diagnostic) :=
  if doc.kind (i + 1) = .leftParen then checkCall doc symbols st i
  else if (doc.kind (i + 1)).isAssignment then do
    let starts ← isStatementStart doc i
    if starts then checkAssignment doc st i else return []
  else pure []

/-- As `Resolve.findings`. -/
def findings (doc : Document) (symbols : SymbolTable) (st : State) (i : Nat) :
    Checked (List Diagnostic) := do
  let t ← item doc.tokens i
  match t.kind with
  | .kwLet | .kwVar => checkDeclaration doc st i
  | .identifier => checkIdentifier doc symbols st i
  | .stringLiteral => checkLiteralOperation doc i
  | _ => return []

/-- As `Resolve.walk`. -/
def walk (doc : Document) (symbols : SymbolTable) (st : State) (i : Nat) :
    Nat → Checked (List Diagnostic)
  | 0 => pure []
  | n + 1 => do
    let found ← findings doc symbols st i
    let next ← step doc st i
    let others ← walk doc symbols next (i + 1) n
    return found ++ others

section

variable {doc : Document} {symbols : SymbolTable} {st : State} {i : Nat}

theorem checkIdentifier_eq_ok (h : doc.Streamed) (hi : i < doc.tokens.length) :
    checkIdentifier doc symbols st i = .ok (Resolve.checkIdentifier doc symbols st i) := by
  unfold checkIdentifier Resolve.checkIdentifier
  by_cases hopen : doc.kind (i + 1) = .leftParen
  · rw [if_pos hopen, if_pos hopen]
    exact checkCall_eq_ok h hopen
  · rw [if_neg hopen, if_neg hopen, isStatementStart_eq_ok hi, checkAssignment_eq_ok hi]
    cases (doc.kind (i + 1)).isAssignment with
    | false => rfl
    | true => cases Resolve.isStatementStart doc i <;> rfl

theorem findings_eq_ok (h : doc.Streamed) (hi : i < doc.tokens.length) :
    findings doc symbols st i = .ok (Resolve.findings doc symbols st i) := by
  rw [findings, Resolve.findings, token_eq_ok hi, ok_bind, Document.kind, kindAt]
  cases (tokenAt doc.tokens i).kind with
  | kwLet | kwVar => exact checkDeclaration_eq_ok h
  | identifier => exact checkIdentifier_eq_ok h hi
  | stringLiteral => exact checkLiteralOperation_eq_ok h
  | _ => rfl

/-- The state stays located along the walk, so every step finds what it looks up. -/
theorem walk_eq_ok (h : doc.Streamed) {n : Nat} (hn : i + n = doc.tokens.length)
    (hst : 0 < n → st.Located doc i) :
    walk doc symbols st i n = .ok (Resolve.walk doc symbols st i n) := by
  induction n generalizing i st with
  | zero => rfl
  | succ n ih =>
    have hlocated := hst (Nat.succ_pos n)
    rw [walk, findings_eq_ok h (by omega), ok_bind, step_eq_ok h hlocated (by omega), ok_bind,
      ih (by omega) (fun hpos => hlocated.step h (by omega)), ok_bind]
    rfl

theorem check_eq_ok (h : doc.Streamed) :
    walk doc symbols {} 0 doc.tokens.length = .ok (Resolve.check doc symbols) :=
  walk_eq_ok h (Nat.zero_add _) fun _ => State.Located.initial

end

end AuroraLint.Checked
