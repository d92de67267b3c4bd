import AuroraLint.Proofs.Scoping

/-!
# Names of declarations

The walk comes to the name of a declaration twice: with the `let` or `var` in front of it, where the
name is defined, and with the name itself, which can look like the target of an assignment.

* `ReadsAsAssignment` : the name of a declaration starts a line and has an assignment operator
  behind it.
* `Resolve.HeldByLet` : behind a declaration, its block has the name from a `let`.

Main statement: `Resolve.reports_at_declared_name` — at such a name nothing is ever undefined, and
an assignment to an immutable variable is found exactly if both of the above hold.
-/

set_option autoImplicit false

namespace AuroraLint

/-- The declaration with its word at token `i` goes on like an assignment on a line below the
word. -/
def ReadsAsAssignment (ts : List Token) (i : Nat) : Prop :=
  (tokenAt ts (i + 1)).line ≠ (tokenAt ts i).line ∧ (kindAt ts (i + 2)).isAssignment = true

instance (ts : List Token) (i : Nat) : Decidable (ReadsAsAssignment ts i) :=
  inferInstanceAs (Decidable (_ ∧ _))

/-! ## The scope behind a declaration -/

/-- A name that is defined is found in the innermost scope: as it was there, or as defined now. -/
theorem ScopeStack.lookup_define (s : ScopeStack) (v : Variable) :
    (s.define v).lookup v.name = some ((s.lookupCurrent v.name).getD v) := by
  have hfind : ∀ scope : Scope,
      (scope.define v).find? v.name = some ((scope.find? v.name).getD v) := by
    intro scope
    rw [Scope.find?_define, if_pos rfl]
    cases scope.find? v.name <;> rfl
  obtain ⟨inner, global⟩ := s
  cases inner with
  | nil => simp [lookup, scopes, define, lookupCurrent, current, hfind]
  | cons top rest => simp [lookup, scopes, define, lookupCurrent, current, hfind]

namespace Resolve

/-- Behind the declaration with its word at token `i`, the innermost scope has the name from a `let`
on the line: it had it before, or this is such a `let`. -/
def HeldByLet (doc : Document) (i : Nat) (isMutable : Bool) (line : Nat) : Prop :=
  match (stateBefore doc i).scopes.lookupCurrent (doc.token (i + 1)).lexeme with
  | some v => v.kind = .letBound ∧ v.declaredAt.line = line
  | none => isMutable = false ∧ (doc.token (i + 1)).line = line

instance (doc : Document) (i : Nat) (isMutable : Bool) (line : Nat) :
    Decidable (HeldByLet doc i isMutable line) :=
  match h : (stateBefore doc i).scopes.lookupCurrent (doc.token (i + 1)).lexeme with
  | some v =>
    decidable_of_iff (v.kind = .letBound ∧ v.declaredAt.line = line) (by rw [HeldByLet, h])
  | none =>
    decidable_of_iff (isMutable = false ∧ (doc.token (i + 1)).line = line) (by rw [HeldByLet, h])

section Declared

variable {doc : Document} {symbols : SymbolTable} {i : Nat} {isMutable : Bool}

/-- The name of a declaration is found in the state behind the word. -/
theorem lookup_declared (hts : EndsInEof doc.tokens) (hword : doc.kind i = binderWord isMutable)
    (hname : doc.kind (i + 1) = .identifier) :
    ∃ v, (stateBefore doc (i + 1)).scopes.lookup (doc.token (i + 1)).lexeme = some v ∧
      ∀ line, v.kind = .letBound ∧ v.declaredAt.line = line ↔ HeldByLet doc i isMutable line := by
  obtain ⟨decl, hdecl, hn, hspan, hmutable⟩ : ∃ decl, varDeclAt doc.tokens i = some decl ∧
      decl.name = (doc.token (i + 1)).lexeme ∧ decl.nameSpan = (doc.token (i + 1)).span ∧
      decl.isMutable = isMutable :=
    ⟨_, congrArg Prod.fst (Reading.varDecl_of_name hts hword hname), rfl, rfl, rfl⟩
  have hstep : stateBefore doc (i + 1) = (stateBefore doc i).declare doc (some decl) := by
    rw [stateBefore, State.step, hword, hdecl]
    cases isMutable <;> rfl
  have hlookup := ScopeStack.lookup_define (stateBefore doc i).scopes (declaredVariable doc decl)
  refine ⟨_, by rw [hstep, ← hn]; exact hlookup, fun line => ?_⟩
  rw [HeldByLet, ← hn]
  simp only [declaredVariable, hspan, hmutable]
  cases (stateBefore doc i).scopes.lookupCurrent decl.name with
  | some v => rfl
  | none => cases isMutable <;> simp [Span.line, Token.line]

/-- Behind a `let` or `var`, a name starts a statement only where it starts a line. -/
theorem isStatementStart_declared (hword : doc.kind i = binderWord isMutable) :
    isStatementStart doc (i + 1) = true ↔ (doc.token (i + 1)).line ≠ (doc.token i).line := by
  unfold isStatementStart
  rw [Nat.add_sub_cancel, hword]
  cases isMutable <;> simp [startsLine, binderWord, ne_comm, Document.token]

/-- What is found at the name of a declaration: an error of a call or of an assignment. -/
theorem findings_declared (st : State) (hword : doc.kind i = binderWord isMutable)
    (hname : doc.kind (i + 1) = .identifier) :
    findings doc symbols st (i + 1) =
      if doc.kind (i + 2) = .leftParen then checkCall doc symbols st (i + 1)
      else if ReadsAsAssignment doc.tokens i then checkAssignment doc st (i + 1)
      else [] := by
  unfold findings
  rw [hname]
  simp only [checkIdentifier, Bool.and_eq_true, isStatementStart_declared hword]
  congr 1
  exact if_congr and_comm rfl rfl

/-- Whatever is said of a declared name is said of its assignment. -/
theorem reports_declared_iff (hdoc : doc.Streamed) (hword : doc.kind i = binderWord isMutable)
    (hname : doc.kind (i + 1) = .identifier) {message : String}
    (hmessage : (∃ x, message = undefined x) ∨ ∃ x line, message = immutable x line) :
    Reports (check doc symbols) (doc.token (i + 1)).span message ↔
      ReadsAsAssignment doc.tokens i ∧
        Reports (checkAssignment doc (stateBefore doc (i + 1)) (i + 1)) (doc.token (i + 1)).span
          message := by
  have hlen := hdoc.endsInEof.succ_lt_of_eq hname nofun
  rw [reports_iff_findings hdoc (by omega) hmessage, findings_declared _ hword hname]
  split
  · rename_i hcall
    refine iff_of_false ?_ ?_
    · rintro ⟨d, hd, _, rfl⟩
      have hforeign := foreign_of_checkCall hd
      rcases hmessage with ⟨x, hx⟩ | ⟨x, line, hx⟩
      · exact hforeign.2.1 x hx
      · exact hforeign.2.2 x line hx
    · rintro ⟨⟨_, hop⟩, _⟩
      have hparen : kindAt doc.tokens (i + 2) = .leftParen := hcall
      rw [hparen] at hop
      cases hop
  · split
    · rename_i hreads
      rw [and_iff_right hreads]
    · rename_i hreads
      exact iff_of_false (not_reports_nil _ _) fun h => hreads h.1

end Declared

/-- **What is reported at the name of a declaration.** It is never undefined. It is reported as a
variable that cannot be assigned exactly if it starts a line below its word, has an assignment
operator behind it, and its block has it from a `let`, the declaration itself being one or an earlier
one that it repeats; so a declaration is never mistaken for an assignment exactly where one of these
fails. -/
theorem reports_at_declared_name (uri text : String) (symbols : SymbolTable) (i : Nat)
    (isMutable : Bool)
    (hword : (Document.ofText uri text).kind i = binderWord isMutable)
    (hname : (Document.ofText uri text).kind (i + 1) = .identifier) :
    let doc := Document.ofText uri text
    let name := doc.token (i + 1)
    (∀ x, ¬ Reports (check doc symbols) name.span (undefined x)) ∧
      (∀ line, Reports (check doc symbols) name.span (immutable name.lexeme line) ↔
        ReadsAsAssignment doc.tokens i ∧ HeldByLet doc i isMutable line) ∧
      ((∀ x line, ¬ Reports (check doc symbols) name.span (immutable x line)) ↔
        (ReadsAsAssignment doc.tokens i → ∀ line, ¬ HeldByLet doc i isMutable line)) := by
  intro doc name
  have hdoc : doc.Streamed := Document.streamed_ofText uri text
  obtain ⟨v, hv, hlet⟩ := lookup_declared hdoc.endsInEof hword hname
  have himmutable : ∀ line, Reports (check doc symbols) name.span (immutable name.lexeme line) ↔
      ReadsAsAssignment doc.tokens i ∧ HeldByLet doc i isMutable line := by
    intro line
    rw [reports_declared_iff hdoc hword hname (.inr ⟨_, _, rfl⟩),
      reports_immutable_checkAssignment_iff, hv, ← hlet]
    simp
  refine ⟨fun x hreports => ?_, himmutable, fun hnone hreads line hheld => ?_,
    fun hnone x line hreports => ?_⟩
  · obtain ⟨_, hreports⟩ := (reports_declared_iff hdoc hword hname (.inl ⟨_, rfl⟩)).mp hreports
    by_cases hkind : v.kind = .letBound
    · rw [checkAssignment_of_letBound hv hkind, reports_singleton] at hreports
      exact undefined_ne_immutable _ _ _ hreports.2.symm
    · rw [checkAssignment_of_assignable hv hkind] at hreports
      exact not_reports_nil _ _ hreports
  · exact hnone _ line ((himmutable line).mpr ⟨hreads, hheld⟩)
  · obtain ⟨hreads, hreports⟩ :=
      (reports_declared_iff hdoc hword hname (.inr ⟨_, _, rfl⟩)).mp hreports
    by_cases hkind : v.kind = .letBound
    · exact hnone hreads _ ((hlet _).mp ⟨hkind, rfl⟩)
    · rw [checkAssignment_of_assignable hv hkind] at hreports
      exact not_reports_nil _ _ hreports

/-- A `var` that repeats the name of a `let`: what follows the name is taken for an assignment to the
variable on line 1. -/
theorem reports_at_declared_name_repeated :
    let doc := Document.ofText "m" "let x = 1\nvar\nx += 2"
    doc.kind 4 = binderWord true ∧ doc.kind 5 = .identifier ∧
      Reports (check doc SymbolTable.builtins) (doc.token 5).span (immutable "x" 1) ∧
      ¬ Reports (check doc SymbolTable.builtins) (doc.token 5).span (undefined "x") := by
  intro doc
  have hword : doc.kind 4 = binderWord true := by decide +kernel
  have hname : doc.kind 5 = .identifier := by decide +kernel
  obtain ⟨hdefined, himmutable, _⟩ :=
    reports_at_declared_name "m" _ SymbolTable.builtins 4 true hword hname
  have hlexeme : (doc.token 5).lexeme = "x" := by decide +kernel
  rw [hlexeme] at himmutable
  refine ⟨hword, hname, (himmutable 1).mpr ⟨?_, ?_⟩, hdefined "x"⟩
  · decide +kernel
  · decide +kernel

/-- A `let` alone on its line: the name below it, the first of the text, is taken for an immutable
variable that is assigned. -/
theorem reports_immutable_at_first_let :
    let doc := Document.ofText "m" "let\nx = 1"
    doc.kind 0 = binderWord false ∧ doc.kind 1 = .identifier ∧
      Reports (check doc SymbolTable.builtins) (doc.token 1).span (immutable "x" 2) := by
  decide +kernel

end Resolve

end AuroraLint
