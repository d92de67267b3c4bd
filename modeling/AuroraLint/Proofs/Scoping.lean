import AuroraLint.Proofs.Scoping.State
import AuroraLint.Resolve

/-!
# Lexical scoping

What the walk reports on declarations and assignments, told by the nesting of blocks alone.

* `DeclaresFirst`      : the first declaration of a name in a block.
* `InnermostDeclaring` : the innermost block around a token that has declared a name.
* `Reports`            : a message at a place of the document.
* `AssignsAt`          : a name is assigned where a statement can start.
* `ReportsLexically`   : the reports that the nesting of blocks asks for, and no others.

Main statement: `Resolve.check_lexical`. The messages that are not about scopes are told apart by
how they start (`Foreign`).
-/

set_option autoImplicit false

namespace AuroraLint

/-! ## First declarations -/

/-- The first declaration of the name in the block, of those in front of token `i`. -/
def DeclaresFirst (ts : List Token) (i : Nat) (block : Block) (x : String) (kind : VariableKind)
    (place : Span) : Prop :=
  Declares ts i block x kind place ∧ ∀ kind' place', Declares ts i block x kind' place' →
    place.start.offset ≤ place'.start.offset

/-- The innermost of the blocks around token `i` that have declared the name in front of it. -/
def InnermostDeclaring (ts : List Token) (i : Nat) (block : Block) (x : String) : Prop :=
  block.OpenAt ts i ∧ (∃ kind place, Declares ts i block x kind place) ∧
    ∀ other : Block, other.OpenAt ts i → (∃ kind place, Declares ts i other x kind place) →
      other ≤ block

theorem InnermostDeclaring.unique {ts : List Token} {i : Nat} {a b : Block} {x : String}
    (ha : InnermostDeclaring ts i a x) (hb : InnermostDeclaring ts i b x) : a = b :=
  Block.le_antisymm (hb.2.2 a ha.1 ha.2.1) (ha.2.2 b hb.1 hb.2.1)

section First

variable {doc : Document} {i : Nat} {block : Block} {x : String} {kind kind' : VariableKind}
  {place place' : Span}

theorem Declares.real (hdoc : doc.Streamed) (h : Declares doc.tokens i block x kind place) :
    place.Real doc.source.name doc.source.chars := by
  cases h with
  | word hlt hword hname hin => exact hdoc.real_of_kind hname nofun
  | parameter hlt hh hb hp =>
    obtain ⟨_, opener, hr, _⟩ := callableAt_eq_some hdoc.endsInEof hh
    exact (hdoc.header_params_real hr hp).1
  | loop hlt hloop hb => exact hdoc.real_of_kind hloop.2.1 nofun

/-- Two first declarations stand at one place. -/
theorem DeclaresFirst.offset_eq (h : DeclaresFirst doc.tokens i block x kind place)
    (h' : DeclaresFirst doc.tokens i block x kind' place') :
    place.start.offset = place'.start.offset :=
  Nat.le_antisymm (h.2 _ _ h'.1) (h'.2 _ _ h.1)

theorem DeclaresFirst.line_eq (hdoc : doc.Streamed)
    (h : DeclaresFirst doc.tokens i block x kind place)
    (h' : DeclaresFirst doc.tokens i block x kind' place') : place.line = place'.line := by
  have heq := (h.1.real hdoc).start_true.eq_of_offset_eq (h'.1.real hdoc).start_true
    (h.offset_eq h')
  rw [Span.line, Span.line, heq]

/-- Parameters and loop names stand in front of their block, and words inside it. -/
theorem Declares.letBound_of_offset_eq (hdoc : doc.Streamed) {x' : String}
    (h : Declares doc.tokens i block x .letBound place)
    (h' : Declares doc.tokens i block x' kind' place')
    (heq : place.start.offset = place'.start.offset) : kind' = .letBound := by
  have hts := hdoc.endsInEof
  generalize hlet : VariableKind.letBound = kind at h
  cases h with
  | parameter => cases hlet
  | loop => cases hlet
  | @word k isMutable block hlt hword hname hin =>
    have hk := hts.succ_lt_of_eq hname nofun
    cases h' with
    | @word k' isMutable' block hlt' hword' hname' hin' =>
      have hk' := hts.succ_lt_of_eq hname' nofun
      have hindex := hdoc.index_eq_of_start_eq (by omega) (by omega) heq
      obtain rfl : k = k' := by omega
      obtain rfl : isMutable = isMutable' := by
        rw [hword] at hword'
        cases isMutable <;> cases isMutable' <;> first | rfl | cases hword'
      rfl
    | @parameter k' b header p hlt' hh hb hp =>
      obtain ⟨_, opener, hr, _⟩ := callableAt_eq_some hts hh
      have hbody := (hr.body_spec hb).1
      have hle := (hdoc.header_params_real hr hp).2
      have hstart := hdoc.start_lt (show header.last + 1 < k + 1 by have := hin.1.1; omega) (by omega)
      omega
    | @loop f b hlt' hloop hb =>
      have hstart := hdoc.start_lt (show f + 1 < k + 1 by have := hin.1.1; have := hb.1; omega)
        (by omega)
      omega

end First

/-! ## Looking names up -/

section Lookup

variable {ts : List Token} {i : Nat} {block : Block} {s : Scope} {x : String} {v : Variable}

theorem Scope.Holds.first (h : s.Holds ts i block) (hv : s.find? x = some v) :
    DeclaresFirst ts i block x v.kind v.declaredAt := by
  refine ⟨h.sound hv, fun kind place hd => ?_⟩
  obtain ⟨w, hw, hle⟩ := h.complete hd
  rw [hv] at hw
  obtain rfl := Option.some.inj hw
  exact hle

theorem Scope.Holds.find?_eq_none_iff (h : s.Holds ts i block) :
    s.find? x = none ↔ ∀ kind place, ¬ Declares ts i block x kind place := by
  constructor
  · intro hnone kind place hd
    obtain ⟨w, hw, _⟩ := h.complete hd
    rw [hnone] at hw
    cases hw
  · intro hnone
    cases hv : s.find? x with
    | none => rfl
    | some v => exact absurd (h.sound hv) (hnone _ _)

/-- The innermost scope is that of the innermost block. -/
theorem ScopeStack.Holds.current {stack : ScopeStack} (h : stack.Holds ts i) :
    ∃ block, Innermost ts i block ∧ stack.current.Holds ts i block := by
  unfold ScopeStack.Holds at h
  cases hblocks : openBlocks ts i with
  | nil => simp [openBlocks] at hblocks
  | cons block blocks =>
    rw [hblocks] at h
    obtain ⟨top, rest, htop, _, hscopes⟩ := List.forall₂_cons_left_iff.mp h
    exact ⟨block, innermost_of_cons hblocks, by rw [current_of_scopes hscopes]; exact htop⟩

/-- A search through scopes finds the first declaration in the innermost block that has one. -/
theorem findSome?_of_holds {blocks : List Block} {scopes : List Scope}
    (h : List.Forall₂ (fun block scope => scope.Holds ts i block) blocks scopes)
    (hblocks : blocks.Pairwise fun inner outer => ¬ inner ≤ outer)
    (hv : scopes.findSome? (·.find? x) = some v) :
    ∃ block ∈ blocks, DeclaresFirst ts i block x v.kind v.declaredAt ∧
      ∀ other ∈ blocks, (∃ kind place, Declares ts i other x kind place) → other ≤ block := by
  induction h with
  | nil => cases hv
  | @cons block scope blocks scopes hs _ ih =>
    rw [List.findSome?_cons] at hv
    cases hfind : scope.find? x with
    | some w =>
      rw [hfind] at hv
      obtain rfl := Option.some.inj hv
      refine ⟨block, List.mem_cons_self, hs.first hfind, fun other hother _ => ?_⟩
      rcases List.mem_cons.mp hother with rfl | hother
      · exact Block.le_refl _
      · exact Block.le_of_not_le (List.rel_of_pairwise_cons hblocks hother)
    | none =>
      rw [hfind] at hv
      obtain ⟨found, hfound, hfirst, hinner⟩ := ih hblocks.of_cons hv
      refine ⟨found, List.mem_cons_of_mem _ hfound, hfirst, fun other hother hd => ?_⟩
      rcases List.mem_cons.mp hother with rfl | hother
      · obtain ⟨kind, place, hd⟩ := hd
        exact absurd hd (hs.find?_eq_none_iff.mp hfind kind place)
      · exact hinner other hother hd

theorem ScopeStack.Holds.lookup {stack : ScopeStack} (h : stack.Holds ts i)
    (hv : stack.lookup x = some v) :
    ∃ block, InnermostDeclaring ts i block x ∧
      DeclaresFirst ts i block x v.kind v.declaredAt := by
  obtain ⟨block, hmem, hfirst, hinner⟩ := findSome?_of_holds h (openBlocks_pairwise ts i) hv
  refine ⟨block, ⟨mem_openBlocks_iff.mp hmem, ⟨_, _, hfirst.1⟩, fun other hother => ?_⟩, hfirst⟩
  exact hinner other (mem_openBlocks_iff.mpr hother)

theorem ScopeStack.Holds.lookup_eq_none_iff {stack : ScopeStack} (h : stack.Holds ts i) :
    stack.lookup x = none ↔ ∀ block : Block, block.OpenAt ts i → ∀ kind place,
      ¬ Declares ts i block x kind place := by
  constructor
  · intro hnone block hopen kind place hd
    obtain ⟨n, hn, hblock⟩ := List.mem_iff_getElem.mp (mem_openBlocks_iff.mpr hopen)
    have hlen := h.length_eq
    have hs := h.get hn (hlen ▸ hn)
    have hfind := List.findSome?_eq_none_iff.mp hnone _ (List.get_mem stack.scopes ⟨n, hlen ▸ hn⟩)
    rw [List.get_eq_getElem, List.get_eq_getElem, hblock] at hs
    exact hs.find?_eq_none_iff.mp hfind kind place hd
  · intro hnone
    cases hv : stack.lookup x with
    | none => rfl
    | some v =>
      obtain ⟨block, hin, hfirst⟩ := h.lookup hv
      exact absurd hfirst.1 (hnone block hin.1 _ _)

end Lookup

/-! ## Messages -/

/-- Some diagnostic of the list has the message and points to the span. -/
def Reports (ds : List Diagnostic) (span : Span) (message : String) : Prop :=
  ∃ d ∈ ds, d.span = some span ∧ d.message = message

instance (ds : List Diagnostic) (span : Span) (message : String) :
    Decidable (Reports ds span message) :=
  inferInstanceAs (Decidable (∃ d ∈ ds, _))

@[simp] theorem not_reports_nil (span : Span) (message : String) : ¬ Reports [] span message := by
  simp [Reports]

@[simp] theorem reports_singleton {d : Diagnostic} {span : Span} {message : String} :
    Reports [d] span message ↔ d.span = some span ∧ d.message = message := by
  simp [Reports]

namespace Resolve

/-- What is said of a declaration of a name that its block declares on an earlier line. -/
def redeclared (x : String) (line : Nat) : String :=
  s!"Variable '{x}' is already declared at line {line}"

/-- What is said of an assignment to a name that no block declares. -/
def undefined (x : String) : String :=
  s!"Undefined variable '{x}'"

/-- What is said of an assignment to a name that a `let` on an earlier line declares. -/
def immutable (x : String) (line : Nat) : String :=
  s!"Cannot assign to immutable variable '{x}'. Declared with 'let' at " ++
    s!"line {line}. Use 'var' for mutable variables."

theorem eq_of_toString_eq {m n : Nat} (h : toString m = toString n) : m = n := by
  rw [Nat.toString_eq_ofList_toDigits, Nat.toString_eq_ofList_toDigits, String.ofList_inj] at h
  have hvalue := congrArg (fun digits => Nat.ofDigitChars 10 digits 0) h
  rwa [Nat.ofDigitChars_ten_toDigits, Nat.ofDigitChars_ten_toDigits] at hvalue

theorem redeclared_inj {x : String} {m n : Nat} (h : redeclared x m = redeclared x n) : m = n :=
  eq_of_toString_eq ((String.append_right_inj _).mp h)

theorem immutable_inj {x : String} {m n : Nat} (h : immutable x m = immutable x n) : m = n := by
  have hline := (String.append_left_inj _).mp ((String.append_right_inj _).mp h)
  exact eq_of_toString_eq ((String.append_right_inj _).mp hline)

/-- The message is none of those on scopes. -/
def Foreign (message : String) : Prop :=
  (∀ x n, message ≠ redeclared x n) ∧ (∀ x, message ≠ undefined x) ∧ ∀ x n, message ≠ immutable x n

theorem getElem?_toList_append {a b : String} {n : Nat} {c : Char} (h : a.toList[n]? = some c) :
    (a ++ b).toList[n]? = some c := by
  rw [String.toList_append, List.getElem?_append_left (List.getElem?_eq_some_iff.mp h).1, h]

theorem redeclared_letter (x : String) (n : Nat) : (redeclared x n).toList[0]? = some 'V' := by
  have h : "Variable '".toList[0]? = some 'V' := by rfl
  exact getElem?_toList_append (getElem?_toList_append (getElem?_toList_append h))

theorem undefined_letters (x : String) :
    (undefined x).toList[0]? = some 'U' ∧ (undefined x).toList[10]? = some 'v' := by
  have h0 : "Undefined variable '".toList[0]? = some 'U' := by rfl
  have h10 : "Undefined variable '".toList[10]? = some 'v' := by rfl
  exact ⟨getElem?_toList_append (getElem?_toList_append h0),
    getElem?_toList_append (getElem?_toList_append h10)⟩

theorem immutable_letters (x : String) (n : Nat) :
    (immutable x n).toList[0]? = some 'C' ∧ (immutable x n).toList[7]? = some 'a' := by
  have h0 : "Cannot assign to immutable variable '".toList[0]? = some 'C' := by rfl
  have h7 : "Cannot assign to immutable variable '".toList[7]? = some 'a' := by rfl
  exact ⟨getElem?_toList_append (getElem?_toList_append (getElem?_toList_append h0)),
    getElem?_toList_append (getElem?_toList_append (getElem?_toList_append h7))⟩

/-- Three letters tell the messages on scopes from all others. -/
theorem foreign_of_letters {message : String} {c : Char} (hc : message.toList[0]? = some c)
    (hr : c ≠ 'V') (hu : c ≠ 'U' ∨ message.toList[10]? ≠ some 'v')
    (hi : c ≠ 'C' ∨ message.toList[7]? ≠ some 'a') : Foreign message := by
  refine ⟨fun x n heq => ?_, fun x heq => ?_, fun x n heq => ?_⟩
  · rw [heq, redeclared_letter] at hc
    exact hr (Option.some.inj hc).symm
  · rw [heq, (undefined_letters x).1] at hc
    rcases hu with hu | hu
    · exact hu (Option.some.inj hc).symm
    · exact hu (heq ▸ (undefined_letters x).2)
  · rw [heq, (immutable_letters x n).1] at hc
    rcases hi with hi | hi
    · exact hi (Option.some.inj hc).symm
    · exact hi (heq ▸ (immutable_letters x n).2)

theorem redeclared_ne_undefined (x y : String) (n : Nat) : redeclared x n ≠ undefined y := by
  intro h
  have hletter := redeclared_letter x n
  rw [h, (undefined_letters y).1] at hletter
  cases hletter

theorem redeclared_ne_immutable (x y : String) (m n : Nat) : redeclared x m ≠ immutable y n := by
  intro h
  have hletter := redeclared_letter x m
  rw [h, (immutable_letters y n).1] at hletter
  cases hletter

theorem undefined_ne_immutable (x y : String) (n : Nat) : undefined x ≠ immutable y n := by
  intro h
  have hletter := (undefined_letters x).1
  rw [h, (immutable_letters y n).1] at hletter
  cases hletter

/-! ## Which finding has which message -/

section Findings

variable {doc : Document} {symbols : SymbolTable} {st : State} {i : Nat} {d : Diagnostic}

/-- What a call is named in its messages starts like no message on scopes. -/
theorem foreign_of_checkAgainst {what : String} {s : Signature} {c : Char}
    (hc : what.toList[0]? = some c) (hr : c ≠ 'V') (hu : c ≠ 'U')
    (hi : c ≠ 'C' ∨ ∃ c', what.toList[7]? = some c' ∧ c' ≠ 'a')
    (hd : d ∈ checkAgainst doc i what s) : Foreign d.message := by
  unfold checkAgainst at hd
  split at hd
  · cases hd
  · rename_i closer hclose
    rcases List.mem_append.mp hd with hd | hd
    · split at hd
      · cases hd
      · obtain rfl := List.mem_singleton.mp hd
        have hopens : ∀ {n : Nat} {c : Char} {a b e f : String}, what.toList[n]? = some c →
            (what ++ a ++ b ++ e ++ f).toList[n]? = some c := fun h =>
          getElem?_toList_append (getElem?_toList_append (getElem?_toList_append
            (getElem?_toList_append h)))
        refine foreign_of_letters (hopens hc) hr (.inl hu) (hi.imp_right ?_)
        rintro ⟨c', hc', hne⟩ heq
        exact hne (Option.some.inj ((hopens hc').symm.trans heq))
    · obtain ⟨⟨arg, param⟩, _, harg⟩ := List.mem_filterMap.mp hd
      simp only [checkArgument] at harg
      split at harg
      · cases harg
      · obtain rfl := Option.some.inj harg
        exact foreign_of_letters (c := 'T') (by simp [Diagnostic.error, toString]) (by decide)
          (.inl (by decide)) (.inl (by decide))

theorem foreign_of_checkCall (hd : d ∈ checkCall doc symbols st i) : Foreign d.message := by
  unfold checkCall at hd
  split at hd
  · cases hd
  · unfold checkConstructorCall at hd
    simp only at hd
    split at hd
    · obtain rfl := List.mem_singleton.mp hd
      exact foreign_of_letters (c := 'U') (by simp [Diagnostic.error, toString]) (by decide)
        (.inr (by simp [Diagnostic.error, toString])) (.inl (by decide))
    · split at hd
      · cases hd
      · exact foreign_of_checkAgainst (c := 'C') (by simp [toString]) (by decide) (by decide)
          (.inr ⟨'c', by simp [toString], by decide⟩) hd
  · unfold checkFunctionCall at hd
    simp only at hd
    split at hd
    · obtain rfl := List.mem_singleton.mp hd
      exact foreign_of_letters (c := 'U')
        (by simp [Diagnostic.withSuggestion, Diagnostic.error, toString]) (by decide)
        (.inr (by simp [Diagnostic.withSuggestion, Diagnostic.error, toString]))
        (.inl (by decide))
    · exact foreign_of_checkAgainst (c := 'F') (by simp [toString]) (by decide) (by decide)
        (.inl (by decide)) hd

theorem foreign_of_checkInitializer {decl : VarDecl} (hd : d ∈ checkInitializer doc decl) :
    Foreign d.message := by
  unfold checkInitializer at hd
  split at hd
  · simp only at hd
    split at hd
    · cases hd
    · obtain rfl := List.mem_singleton.mp hd
      exact foreign_of_letters (c := 'T') (by simp [Diagnostic.error, toString]) (by decide)
        (.inl (by decide)) (.inl (by decide))
  · cases hd

theorem foreign_of_checkLiteralOperation (hd : d ∈ checkLiteralOperation doc i) :
    Foreign d.message := by
  unfold checkLiteralOperation at hd
  split at hd
  · split at hd
    · obtain rfl := List.mem_singleton.mp hd
      exact foreign_of_letters (c := 'C') (by simp [Diagnostic.error, toString]) (by decide)
        (.inl (by decide)) (.inr (by simp [Diagnostic.error, toString]))
    · cases hd
  · cases hd

/-- A finding on scopes is one of three, each with its condition on the state. -/
theorem mem_findings (hts : EndsInEof doc.tokens) (hd : d ∈ findings doc symbols st i) :
    Foreign d.message ∨
    (∃ v, st.scopes.lookupCurrent (doc.token (i + 1)).lexeme = some v ∧
      d.span = some (doc.token (i + 1)).span ∧
      d.message = redeclared (doc.token (i + 1)).lexeme v.declaredAt.line ∧
      doc.kind (i + 1) = .identifier) ∨
    (st.scopes.lookup (doc.token i).lexeme = none ∧ d.span = some (doc.token i).span ∧
      d.message = undefined (doc.token i).lexeme ∧ doc.kind i = .identifier) ∨
    ∃ v, st.scopes.lookup (doc.token i).lexeme = some v ∧ v.kind = .letBound ∧
      d.span = some (doc.token i).span ∧
      d.message = immutable (doc.token i).lexeme v.declaredAt.line ∧ doc.kind i = .identifier := by
  have hdeclaration : d ∈ checkDeclaration doc st i → Foreign d.message ∨
      ∃ v, st.scopes.lookupCurrent (doc.token (i + 1)).lexeme = some v ∧
        d.span = some (doc.token (i + 1)).span ∧
        d.message = redeclared (doc.token (i + 1)).lexeme v.declaredAt.line ∧
        doc.kind (i + 1) = .identifier := by
    intro hd
    unfold checkDeclaration at hd
    split at hd
    · cases hd
    · rename_i decl hdecl
      obtain ⟨stop, hr⟩ := (varDeclAt_eq_some_iff hts).mp hdecl
      have hname : decl.name = (doc.token (i + 1)).lexeme := hr.name_eq
      have hspan : decl.nameSpan = (doc.token (i + 1)).span := hr.nameSpan_eq
      rw [hname, hspan] at hd
      split at hd
      · rename_i v hv
        obtain rfl := List.mem_singleton.mp hd
        exact .inr ⟨v, hv, rfl, rfl, hr.name_kind⟩
      · exact .inl (foreign_of_checkInitializer hd)
  unfold findings at hd
  split at hd
  · exact (hdeclaration hd).imp_right .inl
  · exact (hdeclaration hd).imp_right .inl
  · rename_i hid
    unfold checkIdentifier at hd
    split at hd
    · exact .inl (foreign_of_checkCall hd)
    · split at hd
      · unfold checkAssignment at hd
        simp only at hd
        split at hd
        · rename_i hnone
          obtain rfl := List.mem_singleton.mp hd
          exact .inr (.inr (.inl ⟨hnone, rfl, rfl, hid⟩))
        · rename_i v hv
          split at hd
          · cases hd
          · rename_i hkind
            obtain rfl := List.mem_singleton.mp hd
            refine .inr (.inr (.inr ⟨v, hv, ?_, rfl, rfl, hid⟩))
            cases hk : v.kind with
            | letBound => rfl
            | varBound | parameter => simp [VariableKind.isAssignable, hk] at hkind
      · cases hd
  · exact .inl (foreign_of_checkLiteralOperation hd)
  · cases hd

theorem mem_check_iff : d ∈ check doc symbols ↔
    ∃ j < doc.tokens.length, d ∈ findings doc symbols (stateBefore doc j) j := by
  simp [check_eq]

theorem findings_eq_checkDeclaration {isMutable : Bool}
    (hword : doc.kind i = binderWord isMutable) :
    findings doc symbols st i = checkDeclaration doc st i := by
  unfold findings
  rw [hword]
  cases isMutable <;> rfl

theorem checkDeclaration_of_taken (hts : EndsInEof doc.tokens) {isMutable : Bool}
    (hword : doc.kind i = binderWord isMutable) (hname : doc.kind (i + 1) = .identifier)
    {v : Variable} (hv : st.scopes.lookupCurrent (doc.token (i + 1)).lexeme = some v) :
    checkDeclaration doc st i =
      [(Diagnostic.error (redeclared (doc.token (i + 1)).lexeme v.declaredAt.line)
        (doc.token (i + 1)).span).withRelated v.declaredAt "Previous declaration here"] := by
  have hread := Reading.varDecl_of_name hts hword hname
  have hv' : st.scopes.lookupCurrent (tokenAt doc.tokens (i + 1)).lexeme = some v := hv
  simp only [checkDeclaration, varDeclAt, hread, hv']
  rfl

/-- A declaration is reported exactly if the innermost scope before it has the name. -/
theorem reports_redeclared_iff (hdoc : doc.Streamed) {isMutable : Bool}
    (hword : doc.kind i = binderWord isMutable) (hname : doc.kind (i + 1) = .identifier)
    (line : Nat) :
    Reports (check doc symbols) (doc.token (i + 1)).span
        (redeclared (doc.token (i + 1)).lexeme line) ↔
      ∃ v, (stateBefore doc i).scopes.lookupCurrent (doc.token (i + 1)).lexeme = some v ∧
        v.declaredAt.line = line := by
  have hts := hdoc.endsInEof
  have hlen := hts.succ_lt_of_eq hname nofun
  constructor
  · rintro ⟨d, hd, hspan, hmessage⟩
    obtain ⟨j, hj, hd⟩ := mem_check_iff.mp hd
    rcases mem_findings hts hd with hforeign | ⟨v, hv, hspan', hmessage', hid⟩ |
      ⟨_, _, hmessage', _⟩ | ⟨v, _, _, _, hmessage', _⟩
    · exact absurd hmessage (hforeign.1 _ _)
    · have heq := Option.some.inj (hspan.symm.trans hspan')
      have hjlen := hts.succ_lt_of_eq hid nofun
      have hindex := hdoc.index_eq_of_start_eq (by omega) (by omega)
        (congrArg (·.start.offset) heq)
      obtain rfl : i = j := by omega
      exact ⟨v, hv, (redeclared_inj (hmessage.symm.trans hmessage')).symm⟩
    · exact absurd (hmessage.symm.trans hmessage') (redeclared_ne_undefined _ _ _)
    · exact absurd (hmessage.symm.trans hmessage') (redeclared_ne_immutable _ _ _ _)
  · rintro ⟨v, hv, rfl⟩
    have hfindings : findings doc symbols (stateBefore doc i) i = _ :=
      (findings_eq_checkDeclaration hword).trans (checkDeclaration_of_taken hts hword hname hv)
    exact ⟨_, mem_check_iff.mpr ⟨i, by omega, by rw [hfindings]; exact List.mem_singleton_self _⟩,
      rfl, rfl⟩

end Findings

/-! ## Assignments -/

/-- A name at token `i` is assigned where a statement can start: an assignment operator follows, and
the name is the first token on its line or stands right behind `;` or a brace. -/
structure AssignsAt (ts : List Token) (i : Nat) : Prop where
  name : kindAt ts i = .identifier
  operator : (kindAt ts (i + 1)).isAssignment = true
  start : (∀ j < i, (tokenAt ts j).line ≠ (tokenAt ts i).line) ∨
    ∃ j, i = j + 1 ∧ kindAt ts j ∈ [.semicolon, .leftBrace, .rightBrace]

section Assignments

variable {doc : Document} {symbols : SymbolTable} {st : State} {i : Nat}

theorem AssignsAt.isStatementStart (h : AssignsAt doc.tokens i) :
    isStatementStart doc i = true := by
  unfold Resolve.isStatementStart
  rw [Bool.or_eq_true]
  rcases h.start with hfirst | ⟨j, rfl, hj⟩
  · left
    cases i with
    | zero => rfl
    | succ j => simpa [startsLine] using hfirst j (Nat.lt_succ_self j)
  · right
    have hj' : doc.kind j ∈ [.semicolon, .leftBrace, .rightBrace] := hj
    simp only [List.mem_cons, List.not_mem_nil, or_false] at hj'
    rw [Nat.add_sub_cancel]
    rcases hj' with hk | hk | hk <;> rw [hk]

theorem AssignsAt.findings_eq (h : AssignsAt doc.tokens i) :
    findings doc symbols st i = checkAssignment doc st i := by
  have hid : doc.kind i = .identifier := h.name
  have hop : (doc.kind (i + 1)).isAssignment = true := h.operator
  have hparen : doc.kind (i + 1) ≠ .leftParen := by
    intro hk
    rw [hk] at hop
    cases hop
  unfold findings
  rw [hid]
  simp only [checkIdentifier, hparen, hop, h.isStatementStart, if_false, Bool.and_self, if_true]

/-- What is said of an assignment at a token is found at that token. -/
theorem reports_iff_findings (hdoc : doc.Streamed) (hi : i < doc.tokens.length) {message : String}
    (hmessage : (∃ x, message = undefined x) ∨ ∃ x line, message = immutable x line) :
    Reports (check doc symbols) (doc.token i).span message ↔
      Reports (findings doc symbols (stateBefore doc i) i) (doc.token i).span message := by
  constructor
  · rintro ⟨d, hd, hspan, rfl⟩
    obtain ⟨j, hj, hd⟩ := mem_check_iff.mp hd
    have hplace : d.span = some (doc.token j).span := by
      rcases mem_findings hdoc.endsInEof hd with hforeign | ⟨v, _, _, hearlier, _⟩ |
        ⟨_, hplace, _⟩ | ⟨v, _, _, hplace, _⟩
      · rcases hmessage with ⟨x, hx⟩ | ⟨x, line, hx⟩
        · exact absurd hx (hforeign.2.1 x)
        · exact absurd hx (hforeign.2.2 x line)
      · rcases hmessage with ⟨x, hx⟩ | ⟨x, line, hx⟩
        · exact absurd (hearlier.symm.trans hx) (redeclared_ne_undefined _ _ _)
        · exact absurd (hearlier.symm.trans hx) (redeclared_ne_immutable _ _ _ _)
      · exact hplace
      · exact hplace
    have heq := Option.some.inj (hspan.symm.trans hplace)
    obtain rfl : i = j := hdoc.index_eq_of_start_eq hi hj (congrArg (·.start.offset) heq)
    exact ⟨d, hd, hspan, rfl⟩
  · rintro ⟨d, hd, hreport⟩
    exact ⟨d, mem_check_iff.mpr ⟨i, hi, hd⟩, hreport⟩

/-- A name that no scope has is undefined. -/
theorem checkAssignment_of_none (h : st.scopes.lookup (doc.token i).lexeme = none) :
    checkAssignment doc st i = [.error (undefined (doc.token i).lexeme) (doc.token i).span] := by
  simp only [checkAssignment, h]
  rfl

/-- A name from a `let` is immutable. -/
theorem checkAssignment_of_letBound {v : Variable}
    (h : st.scopes.lookup (doc.token i).lexeme = some v) (hv : v.kind = .letBound) :
    checkAssignment doc st i =
      [((Diagnostic.error (immutable (doc.token i).lexeme v.declaredAt.line)
        (doc.token i).span).withRelated v.declaredAt "Declared here").withSuggestion
          s!"declare it as `var {(doc.token i).lexeme}`"] := by
  simp only [checkAssignment, h, hv, VariableKind.isAssignable, Bool.false_eq_true, if_false]
  rfl

/-- Any other name can be assigned. -/
theorem checkAssignment_of_assignable {v : Variable}
    (h : st.scopes.lookup (doc.token i).lexeme = some v) (hv : v.kind ≠ .letBound) :
    checkAssignment doc st i = [] := by
  have hassignable : v.kind.isAssignable = true := by
    cases hk : v.kind with
    | letBound => exact absurd hk hv
    | varBound => rfl
    | parameter => rfl
  simp only [checkAssignment, h, hassignable, if_true]

/-- An assignment is undefined exactly if no scope has the name. -/
theorem reports_undefined_checkAssignment_iff :
    Reports (checkAssignment doc st i) (doc.token i).span (undefined (doc.token i).lexeme) ↔
      st.scopes.lookup (doc.token i).lexeme = none := by
  cases h : st.scopes.lookup (doc.token i).lexeme with
  | none =>
    rw [checkAssignment_of_none h, reports_singleton]
    exact iff_of_true ⟨rfl, rfl⟩ rfl
  | some v =>
    refine iff_of_false ?_ nofun
    by_cases hv : v.kind = .letBound
    · rw [checkAssignment_of_letBound h hv, reports_singleton]
      rintro ⟨_, hmessage⟩
      exact undefined_ne_immutable _ _ _ hmessage.symm
    · rw [checkAssignment_of_assignable h hv]
      exact not_reports_nil _ _

/-- An assignment is forbidden exactly if the innermost scope that has the name has it from a
`let`. -/
theorem reports_immutable_checkAssignment_iff (line : Nat) :
    Reports (checkAssignment doc st i) (doc.token i).span (immutable (doc.token i).lexeme line) ↔
      ∃ v, st.scopes.lookup (doc.token i).lexeme = some v ∧ v.kind = .letBound ∧
        v.declaredAt.line = line := by
  cases h : st.scopes.lookup (doc.token i).lexeme with
  | none =>
    rw [checkAssignment_of_none h, reports_singleton]
    refine iff_of_false ?_ nofun
    rintro ⟨_, hmessage⟩
    exact undefined_ne_immutable _ _ _ hmessage
  | some v =>
    simp only [Option.some.injEq, exists_eq_left']
    by_cases hv : v.kind = .letBound
    · rw [checkAssignment_of_letBound h hv, reports_singleton, and_iff_right hv]
      constructor
      · rintro ⟨_, hmessage⟩
        exact immutable_inj hmessage
      · rintro rfl
        exact ⟨rfl, rfl⟩
    · rw [checkAssignment_of_assignable h hv]
      exact iff_of_false (not_reports_nil _ _) fun hlet => hv hlet.1

/-- An assignment is reported as undefined exactly if no scope before it has the name. -/
theorem reports_undefined_iff (hdoc : doc.Streamed) (h : AssignsAt doc.tokens i) :
    Reports (check doc symbols) (doc.token i).span (undefined (doc.token i).lexeme) ↔
      (stateBefore doc i).scopes.lookup (doc.token i).lexeme = none := by
  have hlen := hdoc.endsInEof.succ_lt_of_eq h.name nofun
  rw [reports_iff_findings hdoc (by omega) (.inl ⟨_, rfl⟩), h.findings_eq]
  exact reports_undefined_checkAssignment_iff

/-- An assignment is reported as forbidden exactly if the innermost scope that has the name has it
from a `let`. -/
theorem reports_immutable_iff (hdoc : doc.Streamed) (h : AssignsAt doc.tokens i) (line : Nat) :
    Reports (check doc symbols) (doc.token i).span (immutable (doc.token i).lexeme line) ↔
      ∃ v, (stateBefore doc i).scopes.lookup (doc.token i).lexeme = some v ∧ v.kind = .letBound ∧
        v.declaredAt.line = line := by
  have hlen := hdoc.endsInEof.succ_lt_of_eq h.name nofun
  rw [reports_iff_findings hdoc (by omega) (.inr ⟨_, _, rfl⟩), h.findings_eq]
  exact reports_immutable_checkAssignment_iff line

end Assignments

/-- The diagnostics say of declarations and assignments what the nesting of blocks gives. -/
structure ReportsLexically (doc : Document) (ds : List Diagnostic) : Prop where
  /-- A declaration is reported exactly if its innermost block has declared the name before, with
  the line of the first such declaration. -/
  redeclared_iff : ∀ i isMutable, doc.kind i = binderWord isMutable →
    doc.kind (i + 1) = .identifier → ∀ line,
      (Reports ds (doc.token (i + 1)).span (redeclared (doc.token (i + 1)).lexeme line) ↔
        ∃ block kind place, Innermost doc.tokens i block ∧
          DeclaresFirst doc.tokens i block (doc.token (i + 1)).lexeme kind place ∧
          place.line = line)
  /-- An assignment is reported as undefined exactly if no block around it has declared the name
  before. -/
  undefined_iff : ∀ i, AssignsAt doc.tokens i →
    (Reports ds (doc.token i).span (undefined (doc.token i).lexeme) ↔
      ∀ block : Block, block.OpenAt doc.tokens i → ∀ kind place,
        ¬ Declares doc.tokens i block (doc.token i).lexeme kind place)
  /-- An assignment is reported as forbidden exactly if the innermost block around it that has
  declared the name before did so first by `let`, with the line of that declaration. -/
  immutable_iff : ∀ i, AssignsAt doc.tokens i → ∀ line,
    (Reports ds (doc.token i).span (immutable (doc.token i).lexeme line) ↔
      ∃ block place, InnermostDeclaring doc.tokens i block (doc.token i).lexeme ∧
        DeclaresFirst doc.tokens i block (doc.token i).lexeme .letBound place ∧
        place.line = line)

/-- **Scope resolution is lexical scoping.** In every text whose loops have plain blocks of their
own, the walk reports on declarations and assignments what the nesting of blocks gives. That the
brackets are balanced is not needed: a `}` too many closes nothing, for the walk as for
`Block.OpenAt`. -/
theorem check_lexical (uri text : String) (symbols : SymbolTable)
    (hloops : PlainLoops (Document.ofText uri text).tokens) :
    ReportsLexically (Document.ofText uri text) (check (Document.ofText uri text) symbols) := by
  have hdoc : (Document.ofText uri text).Streamed := Document.streamed_ofText uri text
  generalize Document.ofText uri text = doc at hdoc hloops
  have hts := hdoc.endsInEof
  refine ⟨fun i isMutable hword hname line => ?_, fun i hassign => ?_, fun i hassign line => ?_⟩
  · have hlen := hts.succ_lt_of_eq hname nofun
    obtain ⟨block, hin, hcurrent⟩ :=
      (stateBefore_follows hdoc hloops (show i < doc.tokens.length by omega)).scopes.current
    rw [reports_redeclared_iff hdoc hword hname]
    constructor
    · rintro ⟨v, hv, rfl⟩
      exact ⟨block, v.kind, v.declaredAt, hin, hcurrent.first hv, rfl⟩
    · rintro ⟨block', kind, place, hin', hfirst, rfl⟩
      obtain rfl := hin.unique hin'
      obtain ⟨v, hv, _⟩ := hcurrent.complete hfirst.1
      exact ⟨v, hv, (hcurrent.first hv).line_eq hdoc hfirst⟩
  · have hlen := hts.succ_lt_of_eq hassign.name nofun
    have hscopes := (stateBefore_follows hdoc hloops (show i < doc.tokens.length by omega)).scopes
    exact (reports_undefined_iff hdoc hassign).trans hscopes.lookup_eq_none_iff
  · have hlen := hts.succ_lt_of_eq hassign.name nofun
    have hscopes := (stateBefore_follows hdoc hloops (show i < doc.tokens.length by omega)).scopes
    rw [reports_immutable_iff hdoc hassign]
    constructor
    · rintro ⟨v, hv, hkind, rfl⟩
      obtain ⟨block, hin, hfirst⟩ := hscopes.lookup hv
      exact ⟨block, v.declaredAt, hin, hkind ▸ hfirst, rfl⟩
    · rintro ⟨block, place, hin, hfirst, rfl⟩
      cases hv : (stateBefore doc i).scopes.lookup (doc.token i).lexeme with
      | none => exact absurd hfirst.1 (hscopes.lookup_eq_none_iff.mp hv block hin.1 _ _)
      | some v =>
        obtain ⟨block', hin', hfirst'⟩ := hscopes.lookup hv
        obtain rfl := hin.unique hin'
        exact ⟨v, rfl, hfirst.1.letBound_of_offset_eq hdoc hfirst'.1 (hfirst.offset_eq hfirst'),
          hfirst'.line_eq hdoc hfirst⟩

/-- A function whose parameter is shadowed in a loop: the assignment on line 4 is to the `let` on
line 3, and that is the innermost declaration. -/
theorem check_lexical_in_loop :
    let doc := Document.ofText "m.aur"
      "fn f(x) \x7b\n  for i in x \x7b\n    let x = 1\n    x = 2\n    var x = i\n  \x7d\n\x7d"
    PlainLoops doc.tokens ∧ AssignsAt doc.tokens 15 ∧
      Reports (check doc SymbolTable.builtins) (doc.token 15).span (immutable (doc.token 15).lexeme 3) ∧
      ∃ block place, InnermostDeclaring doc.tokens 15 block (doc.token 15).lexeme ∧
        DeclaresFirst doc.tokens 15 block (doc.token 15).lexeme .letBound place ∧
        place.line = 3 := by
  intro doc
  have hloops : PlainLoops doc.tokens := by decide +kernel
  have hassign : AssignsAt doc.tokens 15 :=
    ⟨by decide +kernel, by decide +kernel, .inl (by decide +kernel)⟩
  have hreports : Reports (check doc SymbolTable.builtins) (doc.token 15).span
      (immutable (doc.token 15).lexeme 3) := by decide +kernel
  exact ⟨hloops, hassign, hreports,
    ((check_lexical _ _ SymbolTable.builtins hloops).immutable_iff 15 hassign 3).mp hreports⟩

end Resolve

end AuroraLint
