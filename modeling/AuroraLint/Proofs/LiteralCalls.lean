import AuroraLint.Analysis
import AuroraLint.Proofs.Continued.Resolve
import AuroraLint.Proofs.Literals
import AuroraLint.Proofs.Signatures

/-!
# Calls with literal arguments

A document that declares one function and calls it once with literals.

* `Ty.Fits`                     : where a value of one type may stand for one of another.
* `Written.Header.callText`     : the declaration, and the call on the next line.
* `Written.Header.arityErrors`  : the error of a wrong number of arguments.
* `Written.Literal.mismatches`  : the errors of arguments of the wrong type, each with its text.

Main statement: `Resolve.check_callText` — these errors are found, and nothing else. The tokens of the
document are known one by one (`Written.Header.callTokens`); only the name in the call is looked at
(`Resolve.findings_eq_nil`), and its arguments are the literals
(`Written.Literal.checkArguments_eq`).
-/

set_option autoImplicit false

namespace AuroraLint

/-! ## Types that fit -/

namespace Ty

/-- A value of the type `actual` may stand where `expected` is asked for: they are the same, both are
numbers, or `null` stands for an optional type. -/
def Fits (actual expected : Ty) : Prop :=
  actual = expected ∨ (actual ∈ [int, double] ∧ expected ∈ [int, double]) ∨
    (actual = null ∧ ∃ inner, expected = optional inner)

theorem accepts_iff_fits {actual expected : Ty} :
    expected.accepts actual = true ↔ actual.Fits expected := by
  have hnumeric : ∀ t : Ty, t.isNumeric = true ↔ t ∈ [int, double] := by
    intro t
    cases t <;> simp [isNumeric]
  have hnull : actual.isNullFor expected = true ↔
      actual = null ∧ ∃ inner, expected = optional inner := by
    cases actual <;> cases expected <;> simp [isNullFor]
  simp only [accepts, Fits, Bool.or_eq_true, Bool.and_eq_true, beq_iff_eq, hnumeric, hnull,
    or_assoc]

instance (actual expected : Ty) : Decidable (actual.Fits expected) :=
  decidable_of_iff _ accepts_iff_fits

end Ty

/-! ## Tokens at which nothing is found -/

/-- The kinds that declare no variable and, behind another token, make of it no call, no assignment
and no arithmetic. -/
def Kind.isQuiet (k : Kind) : Bool :=
  k ∉ [Kind.kwLet, .kwVar, .leftParen] && !k.isAssignment && !k.isArithmetic

theorem Kind.of_isQuiet {k : Kind} (h : k.isQuiet = true) :
    (k ≠ .kwLet ∧ k ≠ .kwVar ∧ k ≠ .leftParen) ∧ k.isAssignment = false ∧
      k.isArithmetic = false := by
  simpa [Kind.isQuiet, and_assoc] using h

namespace Resolve

variable {doc : Document} {symbols : SymbolTable} {st : State} {i : Nat}

/-- In front of a quiet token nothing is found, but where a variable is declared. -/
theorem findings_eq_nil (hhere : doc.kind i ≠ .kwLet ∧ doc.kind i ≠ .kwVar)
    (hnext : (doc.kind (i + 1)).isQuiet = true) : findings doc symbols st i = [] := by
  obtain ⟨⟨_, _, hparen⟩, hassign, harith⟩ := Kind.of_isQuiet hnext
  unfold findings
  split
  · rename_i hk
    exact absurd hk hhere.1
  · rename_i hk
    exact absurd hk hhere.2
  · rw [checkIdentifier, if_neg hparen, hassign]
    rfl
  · rw [checkLiteralOperation, harith]
    rfl
  · rfl

/-- Nothing is found at the name of a declaration. -/
theorem findings_eq_nil_of_fn (hword : doc.kind i = .kwFn) (hname : doc.kind (i + 1) = .identifier)
    (hopen : doc.kind (i + 2) = .leftParen) : findings doc symbols st (i + 1) = [] := by
  have hform : callForm doc (i + 1) = .notCalled := by rw [callForm, hword]
  rw [findings, hname]
  simp only [checkIdentifier, hopen, if_true, checkCall, hform]

/-- The errors of a document in which something is found at one token alone. -/
theorem check_eq_findings (hi : i < doc.tokens.length)
    (h : ∀ j, j ≠ i → findings doc symbols (stateBefore doc j) j = []) :
    check doc symbols = findings doc symbols (stateBefore doc i) i := by
  obtain ⟨n, hn⟩ : ∃ n, doc.tokens.length = i + (1 + n) := ⟨doc.tokens.length - (i + 1), by omega⟩
  have hbefore : ∀ j ∈ List.range i, findings doc symbols (stateBefore doc j) j = [] :=
    fun j hj => h j (Nat.ne_of_lt (List.mem_range.mp hj))
  have hbehind : ∀ j ∈ List.range n,
      findings doc symbols (stateBefore doc (i + (1 + j))) (i + (1 + j)) = [] :=
    fun j _ => h _ (by omega)
  rw [check_eq, hn, List.range_add, List.flatMap_append, List.flatMap_eq_nil_iff.mpr hbefore,
    List.nil_append, List.flatMap_map, List.range_add, List.flatMap_append, List.flatMap_map,
    List.flatMap_eq_nil_iff.mpr hbehind, List.append_nil, List.range_one, List.flatMap_singleton,
    Nat.add_zero]

end Resolve

/-- Past the end of a list stands the end of the document, which is quiet. -/
theorem isQuiet_kindAt {ts : List Token} (h : ∀ t ∈ ts, t.kind.isQuiet = true) (k : Nat) :
    (kindAt ts k).isQuiet = true := by
  rcases Nat.lt_or_ge k ts.length with hlt | hge
  · exact h _ (tokenAt_mem hlt)
  · rw [kindAt_of_length_le hge]
    rfl

theorem isQuiet_append_cons {front behind : List Token} {t : Token} {k : Nat}
    (hfront : ∀ u ∈ front, u.kind.isQuiet = true) (hk : k ≠ front.length)
    (hbehind : ∀ n, k = front.length + 1 + n → (kindAt behind n).isQuiet = true) :
    (kindAt (front ++ t :: behind) k).isQuiet = true := by
  rcases Nat.lt_trichotomy k front.length with hlt | heq | hgt
  · have htoken : tokenAt (front ++ t :: behind) k = tokenAt front k := by
      simp [tokenAt, List.getD, List.getElem?_append_left hlt]
    rw [kindAt, htoken]
    exact hfront _ (tokenAt_mem hlt)
  · exact absurd heq hk
  · obtain ⟨n, rfl⟩ : ∃ n, k = front.length + 1 + n := ⟨k - (front.length + 1), by omega⟩
    have hsplit := kindAt_append_right (front ++ [t]) behind n
    rw [List.length_append, List.length_singleton, List.append_assoc, List.singleton_append] at hsplit
    rw [hsplit]
    exact hbehind n rfl

/-- All tokens but two are quiet. -/
theorem isQuiet_of_two {front body behind : List Token} {t u : Token} {k : Nat}
    (hfront : ∀ t ∈ front, t.kind.isQuiet = true) (hbody : ∀ t ∈ body, t.kind.isQuiet = true)
    (hbehind : ∀ t ∈ behind, t.kind.isQuiet = true) (hk : k ≠ front.length)
    (hk' : k ≠ front.length + 1 + body.length) :
    (kindAt (front ++ t :: (body ++ u :: behind)) k).isQuiet = true := by
  refine isQuiet_append_cons hfront hk fun n hn => ?_
  exact isQuiet_append_cons hbody (by omega) fun m _ => isQuiet_kindAt hbehind m

theorem forall_mem_intercalate {α : Type} {p : α → Prop} {separator : List α}
    {items : List (List α)} (hseparator : ∀ a ∈ separator, p a)
    (hitems : ∀ item ∈ items, ∀ a ∈ item, p a) : ∀ a ∈ List.intercalate separator items, p a := by
  induction items with
  | nil => exact List.forall_mem_nil _
  | cons item items ih =>
    obtain ⟨hitem, hothers⟩ := List.forall_mem_cons.mp hitems
    cases items with
    | nil => simpa [List.intercalate] using hitem
    | cons next items =>
      rw [List.intercalate_cons_cons]
      exact List.forall_mem_append.mpr
        ⟨List.forall_mem_append.mpr ⟨hitem, hseparator⟩, ih hothers⟩

/-! ## The document -/

namespace Written

namespace Literal

/-- The tokens of literals with a comma and a blank between any two, behind `front`. -/
def tokens (file : String) (front : List Char) : List Literal → List Token
  | [] => []
  | a :: args =>
    Lexer.spelled file front a.kind a.chars :: tokens file (front ++ a.chars ++ [',', ' ']) args

/-- The errors of arguments behind `front`, each against the parameter in its place. -/
def mismatches (file : String) (front : List Char) : List Literal → List Param → List Diagnostic
  | a :: args, p :: params =>
    (if a.type.Fits p.type then []
      else
        [.error s!"Type mismatch: expected '{p.type.render}', got '{a.type.render}'"
          ⟨file, .ofFront front, .ofFront (front ++ a.chars)⟩]) ++
      mismatches file (front ++ a.chars ++ [',', ' ']) args params
  | _, _ => []

theorem length_tokens (file : String) (front : List Char) (args : List Literal) :
    (tokens file front args).length = args.length := by
  induction args generalizing front with
  | nil => rfl
  | cons a args ih => rw [tokens, List.length_cons, List.length_cons, ih]

/-- Arguments are lexed as one token each, with commas between them. -/
theorem exists_lexed (args : List Literal) (file : String) {front : List Char} (rest : List Char)
    (hfront : lastOnLine front ≠ some '\\') (hrest : Lexeme.Apart rest) :
    ∃ ts, Lexer.Lexed file front (List.intercalate [',', ' '] (args.map chars)) rest ts ∧
      Joined ((tokens file front args).map fun t => [t]) ts := by
  induction args generalizing front with
  | nil => exact ⟨[], .nil file front rest, .nil⟩
  | cons a args ih =>
    cases args with
    | nil =>
      have hlexed := a.lexed file hfront hrest
      exact ⟨_, by simpa [List.intercalate] using hlexed, .one _⟩
    | cons b args =>
      have hblank : lastOnLine (front ++ a.chars ++ [',', ' ']) ≠ some '\\' := by
        simp [lastOnLine, Option.filter]
      obtain ⟨ts, hts, hjoined⟩ := ih hblank
      have hassoc : front ++ a.chars ++ [',', ' '] = front ++ a.chars ++ [','] ++ [' '] := by simp
      rw [hassoc] at hts
      have hspace := (Lexer.Lexed.blank (by decide) file _ _).append hts
      have hcomma := (Lexer.Lexed.mark (show ([','], .comma) ∈ _ by decide) file _ _).append hspace
      have hfirst := (a.lexed file hfront (Lexeme.apart_cons (by decide) _)).append hcomma
      refine ⟨_, ?_, .more [Lexer.spelled file front a.kind a.chars]
        (show (Lexer.spelled file (front ++ a.chars) .comma [',']).kind = .comma from rfl) hjoined⟩
      rw [List.map_cons, List.map_cons, List.intercalate_cons_cons, List.append_assoc]
      exact hfirst

/-- The kinds of literals. -/
def kinds : List Kind :=
  [.intLiteral, .floatLiteral, .kwTrue, .kwFalse, .kwNull, .stringLiteral]

theorem kind_mem (a : Literal) : a.kind ∈ kinds := by
  cases a with
  | bool value => cases value <;> decide
  | int | double | null | string => exact of_decide_eq_true rfl

theorem kind_of_mem_tokens {file : String} {front : List Char} {args : List Literal} {t : Token}
    (ht : t ∈ tokens file front args) : t.kind ∈ kinds := by
  induction args generalizing front with
  | nil => cases ht
  | cons a args ih =>
    rcases List.mem_cons.mp ht with rfl | ht
    · exact a.kind_mem
    · exact ih ht

/-- What is true of commas and of the kinds of literals is true of a list of them. -/
theorem forall_kind {file : String} {front : List Char} {args : List Literal} {list : List Token}
    (hlist : Joined ((tokens file front args).map fun t => [t]) list) {p : Kind → Bool}
    (hp : ∀ k ∈ Kind.comma :: kinds, p k = true) : ∀ t ∈ list, p t.kind = true := by
  obtain ⟨hcomma, hkinds⟩ := List.forall_mem_cons.mp hp
  refine hlist.forall_kind hcomma fun g hg t ht => ?_
  obtain ⟨u, hu, rfl⟩ := List.mem_map.mp hg
  rw [List.mem_singleton.mp ht]
  exact hkinds _ (kind_of_mem_tokens hu)

/-! ## What is found at the arguments -/

/-- The type and the span of an extent of one token. -/
theorem inferExtent_of_token {doc : Document} {e : Extent} {t : Token} (hlt : e.start < e.stop)
    (hstop : e.stop ≤ doc.tokens.length) (ht : e.tokens doc.tokens = [t]) :
    doc.inferExtent e = (Ty.infer (doc.source.slice t.span.start t.span.stop), t.span) := by
  have hlength := congrArg List.length ht
  simp only [Extent.tokens, List.length_take, List.length_drop, List.length_singleton] at hlength
  have hfirst : tokenAt doc.tokens e.start = t := by
    have := Extent.tokenAt_tokens (n := 0) (by omega) hstop
    rw [ht, Nat.add_zero] at this
    exact this.symm
  have hspan : e.span doc.tokens = t.span := by
    rw [Extent.span, show e.stop - 1 = e.start by omega, hfirst, Span.merge_self]
  simp only [Document.inferExtent, hspan]

/-- **The errors of the arguments**, by induction on them, where the document goes on with `rest`. -/
theorem checkArguments_eq {doc : Document} {file : String} {front rest : List Char}
    {args : List Literal} {params : List Param} {extents : List Extent}
    (hchars : doc.source.chars =
      front ++ (List.intercalate [',', ' '] (args.map chars) ++ rest))
    (hbounds : ∀ e ∈ extents, e.start < e.stop ∧ e.stop ≤ doc.tokens.length)
    (htokens : extents.map (·.tokens doc.tokens) = (tokens file front args).map fun t => [t]) :
    Resolve.checkArguments doc extents (params.map Param.declared) =
      mismatches file front args params := by
  induction args generalizing front params extents with
  | nil =>
    obtain rfl : extents = [] := List.map_eq_nil_iff.mp htokens
    rfl
  | cons a args ih =>
    obtain ⟨e, extents, rfl, he, hextents⟩ := List.map_eq_cons_iff.mp htokens
    obtain ⟨⟨hlt, hstop⟩, hbounds⟩ := List.forall_mem_cons.mp hbounds
    cases params with
    | nil => rfl
    | cons p params =>
      obtain ⟨behind, hfirst, hothers⟩ : ∃ behind,
          doc.source.chars = front ++ (a.chars ++ behind) ∧
          Resolve.checkArguments doc extents (params.map Param.declared) =
            mismatches file (front ++ a.chars ++ [',', ' ']) args params := by
        cases args with
        | nil =>
          obtain rfl : extents = [] := List.map_eq_nil_iff.mp hextents
          exact ⟨rest, by simpa [List.intercalate] using hchars, rfl⟩
        | cons b args =>
          rw [List.map_cons, List.map_cons, List.intercalate_cons_cons, ← List.map_cons] at hchars
          exact ⟨_, by simpa using hchars, ih (by simpa using hchars) hbounds hextents⟩
      have hslice : doc.source.slice (.ofFront front) (.ofFront (front ++ a.chars)) = a.chars :=
        Source.slice_eq hfirst rfl rfl
      have hinfer := inferExtent_of_token hlt hstop he
      have hargument : Resolve.checkArgument doc e p.declared =
          if a.type.Fits p.type then none
          else some (.error s!"Type mismatch: expected '{p.type.render}', got '{a.type.render}'"
            ⟨file, .ofFront front, .ofFront (front ++ a.chars)⟩) := by
        rw [Resolve.checkArgument, hinfer]
        simp only [Lexer.spelled, hslice, infer_chars, Param.declared, Ty.accepts_iff_fits]
      rw [mismatches, ← hothers]
      by_cases hfits : a.type.Fits p.type
      · rw [if_pos hfits] at hargument ⊢
        exact List.filterMap_cons_none hargument
      · rw [if_neg hfits] at hargument ⊢
        exact List.filterMap_cons_some hargument

end Literal

namespace Header

/-- The declaration, with an empty body. -/
def declarationText (h : Header) : String :=
  "fn " ++ h.text ++ " \x7b\x7d\n"

/-- What stands in front of the arguments. -/
def callFront (h : Header) : String :=
  h.declarationText ++ h.name.word ++ "("

/-- The declaration of a function, and a call of it on the next line. -/
def callText (h : Header) (args : List Literal) : String :=
  h.callFront ++ ", ".intercalate (args.map Literal.text) ++ ")"

/-- The error of a wrong number of arguments, from the name in the call to its end. -/
def arityErrors (h : Header) (uri : String) (args : List Literal) : List Diagnostic :=
  if args.length = h.params.length then []
  else
    [.error
      s!"Function '{h.name.word}' expects {h.params.length} argument(s), but got {args.length}"
      ⟨uri, .ofFront h.declarationText.toList, .ofFront (h.callText args).toList⟩]

theorem toList_callFront (h : Header) :
    h.callFront.toList = h.declarationText.toList ++ h.name.word.toList ++ ['('] := by
  simp [callFront, String.toList_append]

theorem toList_callText (h : Header) (args : List Literal) :
    (h.callText args).toList =
      h.callFront.toList ++ (List.intercalate [',', ' '] (args.map Literal.chars) ++ [')']) := by
  have hchars : String.toList ∘ Literal.text = Literal.chars :=
    funext fun a => String.toList_ofList
  simp [callText, String.toList_append, String.toList_intercalate, hchars]

/-- The tokens of the document. -/
inductive CallTokens (h : Header) (args : List Literal) (uri : String) : List Token → Prop
  | mk {word opening closing name opener closer eof : Token} {inner list : List Token}
      (hword : word.kind = .kwFn) (hinner : inner.map Token.shape = h.shapes)
      (hopening : opening.kind = .leftBrace) (hclosing : closing.kind = .rightBrace)
      (hname : name = Lexer.spelled uri h.declarationText.toList .identifier h.name.word.toList)
      (hopener : opener.kind = .leftParen)
      (hlist : Joined ((Literal.tokens uri h.callFront.toList args).map fun t => [t]) list)
      (hcloser : closer = Lexer.spelled uri
        (h.callFront.toList ++ List.intercalate [',', ' '] (args.map Literal.chars))
        .rightParen [')'])
      (heof : eof.kind = .eof) :
      CallTokens h args uri
        (word :: (inner ++ opening :: closing :: name :: opener :: (list ++ [closer, eof])))

/-- **The tokens of the document are these**, lexed piece by piece from its end. -/
theorem callTokens (h : Header) (args : List Literal) (uri : String) :
    h.CallTokens args uri (Document.ofText uri (h.callText args)).tokens := by
  obtain ⟨front, hfront⟩ : ∃ front, front = ("fn" ++ " " ++ h.text).toList := ⟨_, rfl⟩
  obtain ⟨list, hlist⟩ : ∃ list, list = List.intercalate [',', ' '] (args.map Literal.chars) :=
    ⟨_, rfl⟩
  have hdeclaration : h.declarationText.toList =
      front ++ [' '] ++ ['\x7b'] ++ ['\x7d'] ++ ['\n'] := by
    rw [hfront]
    simp [declarationText, String.toList_append]
  have hback : lastOnLine h.callFront.toList ≠ some '\\' := by
    simp [h.toList_callFront, lastOnLine, Option.filter]
  obtain ⟨ts, hargs, hjoined⟩ := Literal.exists_lexed args uri ([')'] ++ []) hback
    (Lexeme.apart_cons (by decide) _)
  rw [← hlist, h.toList_callFront] at hargs
  have hcloser := hargs.append
    (Lexer.Lexed.mark (show ([')'], .rightParen) ∈ _ by decide) uri _ [])
  have hopener := (Lexer.Lexed.mark (show (['('], .leftParen) ∈ _ by decide) uri _ _).append hcloser
  have hname := (Lexer.Lexed.identifier h.name.isIdentifier (Lexeme.apart_cons (by decide) _) uri
    _).append hopener
  rw [hdeclaration] at hname
  have hline := (Lexer.Lexed.blank (by decide) uri _ _).append hname
  have hclosing := (Lexer.Lexed.mark (show (['\x7d'], .rightBrace) ∈ _ by decide) uri _ _).append hline
  have hopening := (Lexer.Lexed.mark (show (['\x7b'], .leftBrace) ∈ _ by decide) uri _ _).append
    hclosing
  have hspace := (Lexer.Lexed.blank (by decide) uri front _).append hopening
  rw [hfront] at hspace
  obtain ⟨inner, hlexed, hinner⟩ := h.exists_lexed (show ("fn", .kwFn) ∈ _ by decide) hspace
    (Lexeme.apart_cons (by decide) _)
  have hall : ("fn" ++ " " ++ h.text).toList ++ ([' '] ++ (['\x7b'] ++ (['\x7d'] ++ (['\n'] ++
      (h.name.word.toList ++ (['('] ++ (list ++ [')']))))))) = (h.callText args).toList := by
    rw [h.toList_callText, ← hlist, h.toList_callFront, hdeclaration, ← hfront]
    simp
  rw [hall] at hlexed
  obtain ⟨eof, htokenize, heof⟩ := hlexed.tokenize
  rw [Document.ofText, htokenize]
  simp only [List.nil_append, List.cons_append, List.append_assoc, ← hfront]
  refine .mk rfl hinner rfl rfl ?_ rfl hjoined ?_ heof
  · simp [hdeclaration]
  · simp [← hlist, h.toList_callFront, hdeclaration]

theorem isQuiet_of_mem_annotation (a : Annotation) : ∀ s ∈ a.shapes, s.1.isQuiet = true := by
  unfold Annotation.shapes
  cases a.isOptional <;> simp [Kind.isQuiet, Kind.isAssignment, Kind.isArithmetic]

theorem isQuiet_of_mem_param (p : Param) : ∀ s ∈ p.shapes, s.1.isQuiet = true := by
  unfold Param.shapes
  refine List.forall_mem_cons.mpr ⟨rfl, ?_⟩
  cases p.annotation with
  | none => exact List.forall_mem_nil _
  | some a => exact List.forall_mem_cons.mpr ⟨rfl, isQuiet_of_mem_annotation a⟩

/-- The tokens of a header behind its opening parenthesis are quiet. -/
theorem isQuiet_of_mem_shapes (h : Header) :
    ∀ s ∈ h.listShapes ++ (.rightParen, ")") :: h.returnShapes, s.1.isQuiet = true := by
  refine List.forall_mem_append.mpr ⟨?_, List.forall_mem_cons.mpr ⟨rfl, ?_⟩⟩
  · refine forall_mem_intercalate (by simp [Kind.isQuiet, Kind.isAssignment, Kind.isArithmetic]) ?_
    intro shapes hshapes
    obtain ⟨p, _, rfl⟩ := List.mem_map.mp hshapes
    exact isQuiet_of_mem_param p
  · unfold returnShapes
    cases h.returns with
    | none => exact List.forall_mem_nil _
    | some a => exact List.forall_mem_cons.mpr ⟨rfl, isQuiet_of_mem_annotation a⟩

/-- The index of the name in the call. -/
def callIndex (h : Header) : Nat :=
  h.shapes.length + 3

namespace CallTokens

variable {h : Header} {args : List Literal} {uri : String} {doc : Document}

/-- The function that is declared is the one that the call refers to. -/
theorem function?_eq (ht : h.CallTokens args uri doc.tokens) (hend : EndsInEof doc.tokens) :
    ∃ span, (SymbolTable.collect doc.tokens).1.function? h.name.word =
      some (h.signature .void .function span) := by
  generalize hts : doc.tokens = ts at ht hend ⊢
  cases ht with
  | @mk word opening closing name opener closer eof inner list hword hinner hopening hclosing hname
      hopener hlist hcloser heof =>
    have hargs := Literal.forall_kind (p := fun k => k ∉ [Kind.kwFn, .kwExtern, .kwClass]) hlist
      (by decide)
    have hnone : ∀ t ∈ opening :: closing :: name :: opener :: (list ++ [closer, eof]),
        t.kind ∉ [Kind.kwFn, .kwExtern, .kwClass] := by
      simp only [List.forall_mem_cons, List.forall_mem_append, hopening, hclosing, hname, hopener,
        hcloser, heof, Lexer.kind_spelled]
      exact ⟨by decide, by decide, by decide, by decide, by simpa using hargs, by decide, by decide,
        List.forall_mem_nil _⟩
    have hform : (word.kind, Ty.void, Origin.function) ∈ forms := by
      rw [hword]
      decide
    obtain ⟨last, hcollect⟩ := h.collect_eq (by simp) hinner hend
      ⟨by simp [kindAt, tokenAt, hopening], by simp [kindAt, tokenAt, hopening]⟩ hnone hform
    refine ⟨word.span.merge last.span, ?_⟩
    rw [hcollect]
    exact (SymbolTable.function?_insert SymbolTable.builtins h.name.word h.name.word _).trans
      (if_pos rfl)

/-- The tokens from the one before the name in the call on. -/
theorem tokenAt_call {word opening closing : Token} {inner behind : List Token}
    (hinner : inner.map Token.shape = h.shapes)
    (hts : doc.tokens = word :: (inner ++ opening :: closing :: behind)) (j : Nat) :
    doc.token (h.shapes.length + 2 + j) = tokenAt (closing :: behind) j := by
  have hfront : (word :: (inner ++ [opening])).length = h.shapes.length + 2 := by
    rw [← hinner]
    simp
  have hsplit : doc.tokens = (word :: (inner ++ [opening])) ++ closing :: behind := by
    rw [hts]
    simp
  rw [Document.token, hsplit, ← hfront, tokenAt_append_right]

/-- The call is one of the function. -/
theorem callsFunction (ht : h.CallTokens args uri doc.tokens) :
    Resolve.CallsFunction doc h.name.word h.callIndex := by
  generalize hts : doc.tokens = ts at ht
  cases ht with
  | @mk word opening closing name opener closer eof inner list hword hinner hopening hclosing hname
      hopener hlist hcloser heof =>
    have htoken := tokenAt_call hinner hts
    have hbefore : doc.kind (h.shapes.length + 2) = .rightBrace :=
      (congrArg Token.kind (htoken 0)).trans hclosing
    have hhere : doc.token h.callIndex = name := htoken 1
    refine ⟨?_, (congrArg Token.kind (htoken 2)).trans hopener, ?_, ?_⟩
    · rw [Document.kind, kindAt, show tokenAt doc.tokens h.callIndex = name from hhere, hname]
      rfl
    · rw [callIndex, Resolve.callForm, hbefore]
    · rw [hhere, hname]
      exact String.ofList_toList

/-- The kinds of the first tokens, and of all others but for the parenthesis of the call. -/
theorem kinds {ts : List Token} (ht : h.CallTokens args uri ts) :
    kindAt ts 0 = .kwFn ∧ kindAt ts 1 = .identifier ∧ kindAt ts 2 = .leftParen ∧
      ∀ k, k ≠ 2 → k ≠ h.callIndex + 1 → (kindAt ts k).isQuiet = true := by
  cases ht with
  | @mk word opening closing name opener closer eof inner list hword hinner hopening hclosing hname
      hopener hlist hcloser heof =>
    have hindex : h.callIndex = inner.length + 3 := by
      rw [callIndex, ← hinner, List.length_map]
    obtain ⟨name', inner, rfl, hname', hinner⟩ := List.map_eq_cons_iff.mp hinner
    obtain ⟨opener', inner, rfl, hopener', hinner⟩ := List.map_eq_cons_iff.mp hinner
    have hnameKind' : name'.kind = .identifier := congrArg Prod.fst hname'
    have hopenerKind' : opener'.kind = .leftParen := congrArg Prod.fst hopener'
    refine ⟨hword, hnameKind', hopenerKind', fun k hk hk' => ?_⟩
    have hfront : ∀ t ∈ [word, name'], t.kind.isQuiet = true := by
      simp only [List.forall_mem_cons, hword, hnameKind']
      exact ⟨rfl, rfl, List.forall_mem_nil _⟩
    have hbody : ∀ t ∈ inner ++ [opening, closing, name], t.kind.isQuiet = true := by
      refine List.forall_mem_append.mpr ⟨fun t ht => ?_, ?_⟩
      · exact isQuiet_of_mem_shapes h t.shape (hinner ▸ List.mem_map_of_mem ht)
      · simp only [List.forall_mem_cons, hopening, hclosing, hname, Lexer.kind_spelled]
        exact ⟨rfl, rfl, rfl, List.forall_mem_nil _⟩
    have hbehind : ∀ t ∈ list ++ [closer, eof], t.kind.isQuiet = true := by
      refine List.forall_mem_append.mpr ⟨Literal.forall_kind hlist (by decide), ?_⟩
      simp only [List.forall_mem_cons, hcloser, heof, Lexer.kind_spelled]
      exact ⟨rfl, rfl, List.forall_mem_nil _⟩
    have hsplit : word :: (name' :: opener' :: inner ++
        opening :: closing :: name :: opener :: (list ++ [closer, eof])) =
        [word, name'] ++ opener' :: ((inner ++ [opening, closing, name]) ++
          opener :: (list ++ [closer, eof])) := by
      simp
    rw [hsplit]
    refine isQuiet_of_two hfront hbody hbehind hk ?_
    rw [hindex] at hk'
    simp only [List.length_append, List.length_cons, List.length_nil] at hk' ⊢
    omega

/-- Nothing is found at any other token. -/
theorem findings_eq_nil (ht : h.CallTokens args uri doc.tokens) (symbols : SymbolTable)
    (st : Resolve.State) {k : Nat} (hk : k ≠ h.callIndex) :
    Resolve.findings doc symbols st k = [] := by
  obtain ⟨hword, hname, hopener, hquiet⟩ := ht.kinds
  have hkind : doc.kind k ≠ .kwLet ∧ doc.kind k ≠ .kwVar := by
    by_cases hparen : doc.kind k = .leftParen
    · rw [hparen]
      exact ⟨nofun, nofun⟩
    · obtain ⟨⟨hlet, hvar, _⟩, _⟩ := Kind.of_isQuiet <| hquiet k
        (fun h => hparen (h ▸ hopener)) (fun h => hparen (h ▸ ht.callsFunction.2.1))
      exact ⟨hlet, hvar⟩
  by_cases hfirst : k = 1
  · rw [hfirst]
    exact Resolve.findings_eq_nil_of_fn hword hname hopener
  · exact Resolve.findings_eq_nil hkind (hquiet (k + 1) (by omega) (by omega))

/-- The message on a wrong number of arguments, put together in one step or two. -/
theorem arityMessage_eq (name : String) (expected actual : Nat) :
    let what := s!"Function '{name}'"
    s!"{what} expects {expected} argument(s), but got {actual}" =
      s!"Function '{name}' expects {expected} argument(s), but got {actual}" := by
  simp only [toString, String.append_assoc]
  rfl

/-- The span of the call, from its name to its closing parenthesis. -/
theorem merge_span (h : Header) (args : List Literal) (uri : String) :
    (Lexer.spelled uri h.declarationText.toList .identifier h.name.word.toList).span.merge
      (Lexer.spelled uri
        (h.callFront.toList ++ List.intercalate [',', ' '] (args.map Literal.chars))
        .rightParen [')']).span =
      ⟨uri, .ofFront h.declarationText.toList, .ofFront (h.callText args).toList⟩ := by
  have htext : (h.callText args).toList = h.callFront.toList ++
      List.intercalate [',', ' '] (args.map Literal.chars) ++ [')'] := by
    rw [h.toList_callText, List.append_assoc]
  have hsize : Text.byteSize h.callFront.toList = Text.byteSize h.declarationText.toList +
      Text.byteSize h.name.word.toList + 1 := by
    rw [h.toList_callFront, Text.byteSize_append, Text.byteSize_append]
    rfl
  rw [htext, Span.merge, if_pos, if_neg]
  · rfl
  · simp only [Lexer.spelled, Position.ofFront_offset, Text.byteSize_append]
    omega
  · simp only [Lexer.spelled, Position.ofFront_offset, Text.byteSize_append]
    omega

/-- **The call is checked against the parameters that were written.** -/
theorem checkAgainst_eq (ht : h.CallTokens args uri doc.tokens)
    (hchars : doc.source.chars = (h.callText args).toList) {s : Signature}
    (hparams : s.params = h.params.map Param.declared) :
    Resolve.checkAgainst doc h.callIndex s!"Function '{h.name.word}'" s =
      h.arityErrors uri args ++ Literal.mismatches uri h.callFront.toList args h.params := by
  have hcalls := ht.callsFunction
  generalize hts : doc.tokens = ts at ht
  cases ht with
  | @mk word opening closing name opener closer eof inner list hword hinner hopening hclosing hname
      hopener hlist hcloser heof =>
    have hfront : (word :: (inner ++ [opening, closing, name])).length = h.callIndex + 1 := by
      rw [callIndex, ← hinner]
      simp
    have hsplit : doc.tokens = (word :: (inner ++ [opening, closing, name])) ++
        opener :: (list ++ closer :: [eof]) := by
      rw [hts]
      simp
    have hparts : ∀ g ∈ (Literal.tokens uri h.callFront.toList args).map fun t => [t],
        g ≠ [] ∧ ∀ t ∈ g, t.kind.isItemPart = true := by
      intro g hg
      obtain ⟨t, ht, rfl⟩ := List.mem_map.mp hg
      have hitem : ∀ k ∈ Literal.kinds, k.isItemPart = true := by decide
      refine ⟨List.cons_ne_nil t [], fun u hu => ?_⟩
      rw [List.mem_singleton.mp hu]
      exact hitem _ (Literal.kind_of_mem_tokens ht)
    have hcloserKind : closer.kind = .rightParen := by
      rw [hcloser]
      rfl
    have hclose := callClose_list (word :: (inner ++ [opening, closing, name])) [eof] hopener
      (hlist.isListPart fun g hg => (hparts g hg).2) hcloserKind
    have hargs := hlist.splitArguments_list hparts _ (closer :: [eof]) opener hsplit
    rw [← hsplit, hfront] at hclose
    rw [hfront] at hargs
    have hname' : doc.token h.callIndex = name := tokenAt_call hinner hts 1
    have hcloser' : doc.token (h.callIndex + 1 + 1 + list.length) = closer := by
      have htokens : doc.tokens = (word :: (inner ++ [opening, closing, name]) ++ opener :: list) ++
          [closer, eof] := by
        rw [hts]
        simp
      have hindex : (word :: (inner ++ [opening, closing, name]) ++ opener :: list).length =
          h.callIndex + 1 + 1 + list.length := by
        rw [List.length_append, hfront, List.length_cons]
        omega
      have htoken := tokenAt_append_right
        (word :: (inner ++ [opening, closing, name]) ++ opener :: list) [closer, eof] 0
      rwa [← htokens, hindex] at htoken
    have hlength : (splitArguments doc.tokens (h.callIndex + 1)
        (h.callIndex + 1 + 1 + list.length)).length = args.length := by
      simpa [Literal.length_tokens] using congrArg List.length hargs
    have hbounds : ∀ e ∈ splitArguments doc.tokens (h.callIndex + 1)
        (h.callIndex + 1 + 1 + list.length), e.start < e.stop ∧ e.stop ≤ doc.tokens.length := by
      intro e he
      have hinside := mem_splitArguments (by omega) he
      have hcloses := (callClose_bounds hclose).2
      omega
    rw [h.toList_callText] at hchars
    have harguments : Resolve.checkArguments doc _ (h.params.map Param.declared) = _ :=
      Literal.checkArguments_eq hchars hbounds hargs
    rw [Resolve.checkAgainst, hclose]
    simp only [hname', hcloser', hname, hcloser, merge_span, hlength, hparams, Signature.arity,
      List.length_map, harguments, arityErrors, arityMessage_eq]

end CallTokens

end Header

end Written

namespace Resolve

open Written

/-- **Calls get exactly the right verdict.** A document declares a function and calls it with literals
on the next line. Its errors are one of a wrong number of arguments, exactly if there are not as many
as parameters, then in order one for each argument that has a parameter in its place and does not
fit the type of it, with the text of that argument as its span, and no other. -/
theorem check_callText (uri : String) (h : Header) (args : List Literal) :
    check (.ofText uri (h.callText args)) (symbolsOf uri (h.callText args)) =
      h.arityErrors uri args ++ Literal.mismatches uri h.callFront.toList args h.params := by
  have hstream := Document.streamed_ofText uri (h.callText args)
  have ht := h.callTokens args uri
  have hcalls := ht.callsFunction
  have hlt : h.callIndex < (Document.ofText uri (h.callText args)).tokens.length := by
    have := hstream.endsInEof.succ_lt_of_eq hcalls.1 nofun
    omega
  obtain ⟨span, hfunction⟩ := ht.function?_eq hstream.endsInEof
  have hlookup : ∀ st, lookupCallable (symbolsOf uri (h.callText args)) st h.name.word =
      some (h.signature .void .function span) := by
    intro st
    rw [lookupCallable, symbolsOf, hfunction]
    rfl
  rw [check_eq_findings hlt fun j hj => ht.findings_eq_nil _ _ hj,
    findings_eq_checkFunctionCall hcalls, checkFunctionCall]
  simp only [hcalls.2.2.2, hlookup]
  exact ht.checkAgainst_eq rfl rfl

end Resolve

end AuroraLint
