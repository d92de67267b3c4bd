import AuroraLint.Analysis
import AuroraLint.Proofs.Continued.External
import AuroraLint.Proofs.Continued.Resolve
import AuroraLint.Proofs.LineByLine
import AuroraLint.Proofs.Scoping

/-!
# Declaring a missing function

An external declaration below a document whose brackets are balanced changes the verdict on the
calls of its name, and nothing else.

* `Resolve.undefinedFunction` : the message on a call that refers to nothing.
* `Resolve.declaredVerdict`   : what becomes of a diagnostic when the function is declared.

Main statement: `Resolve.check_declared`. The tokens of the longer text are those of the text and of
the line (`exists_continued`); of the findings at them only calls of the name change
(`Document.Continued.findings`), and only those have the message (`message_ne_undefinedFunction`).
-/

set_option autoImplicit false

namespace AuroraLint

/-! ## The longer text -/

/-- **A balanced document goes on with the line below it.** -/
theorem exists_continued (uri : String) {text name : String} {params : List String}
    (hname : isIdentifier name = true) (hparams : ∀ p ∈ params, isIdentifier p = true)
    (hbrackets : Brackets.check (Document.ofText uri text).tokens = []) :
    ∃ front ts,
      (Document.ofText uri (text ++ "\n" ++ externLine name params)).tokens = front ++ ts ∧
      ExternTokens params name ts ∧
      Continued front (Document.ofText uri text).tokens
        (Document.ofText uri (text ++ "\n" ++ externLine name params)).tokens := by
  obtain ⟨init, hinit, _⟩ := Lexer.scan_eq_append_ending uri text.toList
  have hbelow := Lexer.tiling_scan uri ([] ++ text.toList ++ ['\n']) (externLine name params).toList
  have hscan := ((Lexer.tiling_scan uri [] text.toList).append_line hbelow).scan_eq
  rw [← Cursor.ofText_eq_between uri text.toList, hinit, List.dropLast_concat] at hscan
  have hchars : (text ++ "\n" ++ externLine name params).toList =
      text.toList ++ '\n' :: (externLine name params).toList := by
    simp [String.toList_append]
  have htokens := Lexer.externTokens_scan uri hname hparams ([] ++ text.toList ++ ['\n'])
  have hts : (Document.ofText uri text).tokens =
      init.map (·.token) ++ [(Lexer.Scanned.ending uri text.toList).token] := by
    show (Lexer.scan (.ofText uri text.toList)).map (·.token) = _
    rw [hinit, List.map_append]
    rfl
  have hts' : (Document.ofText uri (text ++ "\n" ++ externLine name params)).tokens =
      init.map (·.token) ++ (Lexer.scan (.between uri ([] ++ text.toList ++ ['\n'])
        (externLine name params).toList)).map (·.token) := by
    show (Lexer.scan (.ofText uri (text ++ "\n" ++ externLine name params).toList)).map
      (·.token) = _
    rw [hchars, Cursor.ofText_eq_between, hscan, List.map_append]
  refine ⟨_, _, hts', htokens, (Document.streamed_ofText ..).endsInEof,
    (Document.streamed_ofText ..).endsInEof, hbrackets, ⟨_, hts⟩, ?_⟩
  obtain ⟨word, more, hline, hword⟩ := htokens.exists_word
  exact ⟨word, more, by rw [hts', hline], hword⟩

namespace Resolve

/-! ## Messages -/

/-- What is said of a call of a name that refers to nothing. -/
def undefinedFunction (name : String) : String :=
  s!"Undefined function '{name}'"

theorem undefinedFunction_inj {x y : String} (h : undefinedFunction x = undefinedFunction y) :
    x = y :=
  (String.append_right_inj _).mp ((String.append_left_inj _).mp h)

/-- Two letters tell the message from all others. -/
theorem ne_undefinedFunction {message name : String}
    (h : message.toList[0]? ≠ some 'U' ∨ message.toList[10]? ≠ some 'f') :
    message ≠ undefinedFunction name := by
  have h0 : "Undefined function '".toList[0]? = some 'U' := by rfl
  have h10 : "Undefined function '".toList[10]? = some 'f' := by rfl
  rintro rfl
  rcases h with h | h
  · exact h (getElem?_toList_append (getElem?_toList_append h0))
  · exact h (getElem?_toList_append (getElem?_toList_append h10))

section Findings

variable {doc : Document} {symbols : SymbolTable} {st : State} {name : String} {i : Nat}
  {d : Diagnostic}

theorem message_ne_of_checkAgainst {what : String} {s : Signature}
    (hwhat : ∃ c, what.toList[0]? = some c ∧ c ≠ 'U') (hd : d ∈ checkAgainst doc i what s) :
    d.message ≠ undefinedFunction name := by
  obtain ⟨c, hc, hne⟩ := hwhat
  refine ne_undefinedFunction (.inl ?_)
  unfold checkAgainst at hd
  split at hd
  · cases hd
  · rcases List.mem_append.mp hd with hd | hd
    · split at hd
      · cases hd
      · obtain rfl := List.mem_singleton.mp hd
        intro heq
        refine hne (Option.some.inj (Eq.trans (Eq.symm ?_) heq))
        exact getElem?_toList_append (getElem?_toList_append (getElem?_toList_append
          (getElem?_toList_append hc)))
    · obtain ⟨⟨arg, param⟩, _, harg⟩ := List.mem_filterMap.mp hd
      simp only [checkArgument] at harg
      split at harg
      · cases harg
      · obtain rfl := Option.some.inj harg
        simp [Diagnostic.error, toString]

theorem message_ne_of_checkDeclaration (hd : d ∈ checkDeclaration doc st i) :
    d.message ≠ undefinedFunction name := by
  refine ne_undefinedFunction (.inl ?_)
  unfold checkDeclaration at hd
  split at hd
  · cases hd
  · split at hd
    · obtain rfl := List.mem_singleton.mp hd
      simp [Diagnostic.error, Diagnostic.withRelated, toString]
    · unfold checkInitializer at hd
      split at hd
      · simp only at hd
        split at hd
        · cases hd
        · obtain rfl := List.mem_singleton.mp hd
          simp [Diagnostic.error, toString]
      · cases hd

theorem message_ne_of_checkAssignment (hd : d ∈ checkAssignment doc st i) :
    d.message ≠ undefinedFunction name := by
  unfold checkAssignment at hd
  simp only at hd
  split at hd
  · obtain rfl := List.mem_singleton.mp hd
    exact ne_undefinedFunction (.inr (by simp [Diagnostic.error, toString]))
  · split at hd
    · cases hd
    · obtain rfl := List.mem_singleton.mp hd
      exact ne_undefinedFunction (.inl (by
        simp [Diagnostic.error, Diagnostic.withRelated, Diagnostic.withSuggestion, toString]))

theorem message_ne_of_checkLiteralOperation (hd : d ∈ checkLiteralOperation doc i) :
    d.message ≠ undefinedFunction name := by
  unfold checkLiteralOperation at hd
  split at hd
  · split at hd
    · obtain rfl := List.mem_singleton.mp hd
      exact ne_undefinedFunction (.inl (by simp [Diagnostic.error, toString]))
    · cases hd
  · cases hd

/-- A call of another name, or of a constructor. -/
theorem message_ne_of_checkCall
    (hcalls : ¬ (callForm doc i = .function ∧ (doc.token i).lexeme = name))
    (hd : d ∈ checkCall doc symbols st i) : d.message ≠ undefinedFunction name := by
  unfold checkCall at hd
  split at hd
  · cases hd
  · unfold checkConstructorCall at hd
    simp only at hd
    split at hd
    · obtain rfl := List.mem_singleton.mp hd
      exact ne_undefinedFunction (.inr (by simp [Diagnostic.error, toString]))
    · split at hd
      · cases hd
      · exact message_ne_of_checkAgainst ⟨'C', by simp [toString], by decide⟩ hd
  · rename_i hform
    unfold checkFunctionCall at hd
    simp only at hd
    split at hd
    · obtain rfl := List.mem_singleton.mp hd
      exact fun heq => hcalls ⟨hform, undefinedFunction_inj heq⟩
    · exact message_ne_of_checkAgainst ⟨'F', by simp [toString], by decide⟩ hd

/-- **Only calls of a name are reported as calls of an undefined function of that name.** -/
theorem message_ne_undefinedFunction (hcalls : ¬ CallsFunction doc name i)
    (hd : d ∈ findings doc symbols st i) : d.message ≠ undefinedFunction name := by
  unfold findings at hd
  split at hd
  · exact message_ne_of_checkDeclaration hd
  · exact message_ne_of_checkDeclaration hd
  · rename_i hid
    unfold checkIdentifier at hd
    split at hd
    · rename_i hopen
      exact message_ne_of_checkCall (fun hform => hcalls ⟨hid, hopen, hform⟩) hd
    · split at hd
      · exact message_ne_of_checkAssignment hd
      · cases hd
  · exact message_ne_of_checkLiteralOperation hd
  · cases hd

end Findings

/-! ## The verdict on a call -/

/-- What calls of an external function have to agree with whose parameters have no annotation. -/
def externSignature (name : String) (params : List String) : Signature where
  name := name
  params := params.map fun p => ⟨p, .double⟩
  returnType := .double
  origin := .external
  declaredAt := none

/-- What becomes of a diagnostic when the function `name` is declared: that its call is undefined is
replaced by the errors of the call, which has its name at the token that the diagnostic points to,
and any other diagnostic stays. -/
def declaredVerdict (doc : Document) (name : String) (params : List String) (d : Diagnostic) :
    List Diagnostic :=
  if d.message = undefinedFunction name then
    match doc.tokens.findIdx? fun t => d.span == some t.span with
    | some i => checkAgainst doc i s!"Function '{name}'" (externSignature name params)
    | none => []
  else [d]

theorem checkAgainst_congr {doc : Document} {i : Nat} {what : String} {s s' : Signature}
    (h : s.params = s'.params) : checkAgainst doc i what s = checkAgainst doc i what s' := by
  unfold checkAgainst Signature.arity
  rw [h]

section Verdict

variable {doc : Document} {symbols : SymbolTable} {st : State} {name : String}
  {params : List String} {i : Nat}

/-- No two tokens have one span. -/
theorem findIdx?_span (hdoc : doc.Streamed) (hi : i < doc.tokens.length) {span : Option Span}
    (hspan : span = some (doc.token i).span) :
    doc.tokens.findIdx? (fun t => span == some t.span) = some i := by
  refine List.findIdx?_eq_some_iff_getElem.mpr ⟨hi, ?_, fun j hj heq => ?_⟩
  · rw [← tokenAt_eq_getElem hi, hspan]
    exact beq_self_eq_true _
  · rw [← tokenAt_eq_getElem (by omega), hspan, beq_iff_eq, Option.some.injEq] at heq
    have hindex := hdoc.index_eq_of_start_eq hi (j := j) (by omega)
      (congrArg (·.start.offset) heq)
    omega

theorem declaredVerdict_of_undefined (hdoc : doc.Streamed) (hi : i < doc.tokens.length)
    {d : Diagnostic} (hmessage : d.message = undefinedFunction name)
    (hspan : d.span = some (doc.token i).span) :
    declaredVerdict doc name params d =
      checkAgainst doc i s!"Function '{name}'" (externSignature name params) := by
  rw [declaredVerdict, if_pos hmessage, findIdx?_span hdoc hi hspan]

/-- The verdict on all findings at a token: only those at a call of the name change. -/
theorem flatMap_declaredVerdict (hdoc : doc.Streamed) (hi : i < doc.tokens.length)
    (hnone : lookupCallable symbols st name = none) :
    (findings doc symbols st i).flatMap (declaredVerdict doc name params) =
      if CallsFunction doc name i then
        checkAgainst doc i s!"Function '{name}'" (externSignature name params)
      else findings doc symbols st i := by
  by_cases hcalls : CallsFunction doc name i
  · have hlexeme := hcalls.2.2.2
    rw [if_pos hcalls, findings_eq_checkFunctionCall hcalls]
    simp only [checkFunctionCall, hlexeme, hnone, List.flatMap_singleton]
    exact declaredVerdict_of_undefined hdoc hi rfl rfl
  · have hstays : ∀ d ∈ findings doc symbols st i, declaredVerdict doc name params d = [d] :=
      fun d hd => if_neg (message_ne_undefinedFunction hcalls hd)
    rw [if_neg hcalls, List.flatMap_congr hstays, List.flatMap_singleton']

/-- A verdict never says that the function is undefined. -/
theorem message_ne_of_declaredVerdict {d e : Diagnostic}
    (he : e ∈ declaredVerdict doc name params d) : e.message ≠ undefinedFunction name := by
  unfold declaredVerdict at he
  split at he
  · split at he
    · exact message_ne_of_checkAgainst ⟨'F', by simp [toString], by decide⟩ he
    · cases he
  · rename_i hne
    rwa [List.mem_singleton.mp he]

end Verdict

/-! ## The whole walk -/

/-- Nothing is found in the line of the declaration. -/
theorem findings_externLine {doc : Document} {front ts : List Token} {name : String}
    {params : List String} (hdoc : doc.tokens = front ++ ts) (h : ExternTokens params name ts)
    (symbols : SymbolTable) (st : State) (j : Nat) :
    findings doc symbols st (front.length + j) = [] := by
  have hkind : ∀ j, doc.kind (front.length + j) = kindAt ts j := fun j => by
    rw [Document.kind, hdoc, kindAt_append_right]
  obtain ⟨hword, hname, hopener⟩ := h.kindAt_first
  rw [findings, hkind]
  rcases j with _ | _ | _ | j
  · rw [hword]
  · -- the name is being declared
    have hform : callForm doc (front.length + 1) = .notCalled := by
      rw [callForm, show doc.kind front.length = _ from hkind 0, hword]
    rw [hname]
    simp only [checkIdentifier, hkind 2, hopener, if_true, checkCall, hform]
  · rw [hopener]
  · have hnext : kindAt ts (j + 4) ∈ _ := h.kindAt_behind (j + 1)
    have hquiet : kindAt ts (j + 4) ≠ .leftParen ∧ (kindAt ts (j + 4)).isAssignment = false := by
      simp only [List.mem_cons, List.not_mem_nil, or_false] at hnext
      rcases hnext with hk | hk | hk | hk <;> rw [hk] <;> decide
    have hidentifier : checkIdentifier doc symbols st (front.length + (j + 3)) = [] := by
      rw [checkIdentifier, show doc.kind (front.length + (j + 3) + 1) = _ from hkind (j + 4),
        if_neg hquiet.1, hquiet.2]
      rfl
    have hhere := h.kindAt_behind j
    simp only [List.mem_cons, List.not_mem_nil, or_false] at hhere
    rcases hhere with hk | hk | hk | hk <;> rw [hk]
    exact hidentifier

/-- The walk over a document is the walk over the tokens before an index, if nothing is found from
there on. -/
theorem check_eq_take {doc : Document} {symbols : SymbolTable} {n m : Nat}
    (hlength : doc.tokens.length = n + m)
    (h : ∀ j, findings doc symbols (stateBefore doc (n + j)) (n + j) = []) :
    check doc symbols =
      (List.range n).flatMap fun i => findings doc symbols (stateBefore doc i) i := by
  rw [check_eq, hlength, List.range_add, List.flatMap_append, List.flatMap_map]
  simp [h]

/-- **Declaring a missing function fixes exactly its calls.** Below a text with balanced brackets, a
line declares a function whose name is no function's and no method's. Then the errors of the text
stay as they are, each at its place, but for those that call the function undefined: these give way
to the errors that their calls have against parameters of type `double`. -/
theorem check_declared (uri text name : String) (params : List String)
    (hbrackets : Brackets.check (Document.ofText uri text).tokens = [])
    (hname : isIdentifier name = true) (hparams : ∀ p ∈ params, isIdentifier p = true)
    (hfunction : (symbolsOf uri text).function? name = none)
    (hmethod : (symbolsOf uri text).method? name = none) :
    let text' := text ++ "\n" ++ externLine name params
    check (.ofText uri text') (symbolsOf uri text') =
        (check (.ofText uri text) (symbolsOf uri text)).flatMap
          (declaredVerdict (.ofText uri text) name params) ∧
      ∀ d ∈ check (.ofText uri text') (symbolsOf uri text'),
        d.message ≠ undefinedFunction name := by
  intro text'
  obtain ⟨front, ts, hts', hline, hcont⟩ := exists_continued uri hname hparams hbrackets
  obtain ⟨header, hheader, rfl, hheaderParams, hlast⟩ :=
    hline.exists_header (hts' ▸ hcont.endsInEof')
  rw [← hts'] at hheader hlast
  have hdoc : Document.Continued front (.ofText uri text) (.ofText uri text') := by
    have htext : text' = text ++ ("\n" ++ externLine header.name params) := String.append_assoc
    rw [htext]
    exact Document.continued_ofText (htext ▸ hcont)
  have hsymbols : symbolsOf uri text' = (symbolsOf uri text).withFunction header.name
      (header.signature .double .external) :=
    hcont.collect hheader hlast hfunction
  have hcheck := @check_eq_take (.ofText uri text) (symbolsOf uri text) front.length 1
    hcont.length_eq <| by
      intro j
      have hend : (Document.ofText uri text).kind (front.length + j) = .eof :=
        hcont.endsInEof.kindAt_eq_eof_iff.mpr (by rw [hcont.length_eq]; omega)
      rw [findings, hend]
  have hcheck' := @check_eq_take (.ofText uri text') (symbolsOf uri text') front.length ts.length
    (by rw [hts', List.length_append]) fun j => findings_externLine hts' hline _ _ j
  have heq : check (.ofText uri text') (symbolsOf uri text') =
      (check (.ofText uri text) (symbolsOf uri text)).flatMap
        (declaredVerdict (.ofText uri text) header.name params) := by
    rw [hcheck, hcheck', List.flatMap_assoc]
    refine List.flatMap_congr fun i hi => ?_
    have hlt := List.mem_range.mp hi
    rw [(hdoc.stateBefore (Nat.le_of_lt hlt)).1, hsymbols, hdoc.findings _ _ _ _ hlt,
      flatMap_declaredVerdict (Document.streamed_ofText uri text) (by rw [hcont.length_eq]; omega)
        (lookupCallable_eq_none hfunction hmethod)]
    split
    · exact checkAgainst_congr hheaderParams
    · rfl
  refine ⟨heq, fun d hd => ?_⟩
  rw [heq] at hd
  obtain ⟨e, _, he⟩ := List.mem_flatMap.mp hd
  exact message_ne_of_declaredVerdict he

/-- Two calls in nested blocks, one of them with too few arguments and one of the wrong type, and a
declaration without its value at the end of the text. -/
theorem check_declared_nested :
    let text := "fn main() \x7b area(1, 2)\n  while go \x7b area(\"a\") other() \x7d \x7d\nlet y ="
    let text' := text ++ "\n" ++ externLine "area" ["w", "h"]
    Brackets.check (Document.ofText "a.au" text).tokens = [] ∧
      isIdentifier "area" = true ∧ (∀ p ∈ ["w", "h"], isIdentifier p = true) ∧
      (symbolsOf "a.au" text).function? "area" = none ∧
      (symbolsOf "a.au" text).method? "area" = none ∧
      check (.ofText "a.au" text') (symbolsOf "a.au" text') =
        (check (.ofText "a.au" text) (symbolsOf "a.au" text)).flatMap
          (declaredVerdict (.ofText "a.au" text) "area" ["w", "h"]) ∧
      ∀ d ∈ check (.ofText "a.au" text') (symbolsOf "a.au" text'),
        d.message ≠ undefinedFunction "area" := by
  intro text text'
  have hbrackets : Brackets.check (Document.ofText "a.au" text).tokens = [] := by decide +kernel
  have hname : isIdentifier "area" = true := by decide +kernel
  have hparams : ∀ p ∈ ["w", "h"], isIdentifier p = true := by decide +kernel
  have hfunction : (symbolsOf "a.au" text).function? "area" = none := by decide +kernel
  have hmethod : (symbolsOf "a.au" text).method? "area" = none := by decide +kernel
  exact ⟨hbrackets, hname, hparams, hfunction, hmethod,
    check_declared "a.au" text "area" ["w", "h"] hbrackets hname hparams hfunction hmethod⟩

end Resolve

end AuroraLint
