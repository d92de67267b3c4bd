import AuroraLint.Proofs.Checked.Basic
import AuroraLint.Proofs.Header

/-!
# Reading headers never fails

The readings of declaration headers with every index, difference and range checked.

* `Checked.Reading` : a reading that may fail, apart from finding nothing.
* `Checked.fnHeaderAt` and its likes : what checked readings find at a token.

Main statements: `fnHeaderAt_eq_ok` and its likes — in tokens that end in the end of the document
they find what the readings of the library find.
-/

set_option autoImplicit false

namespace AuroraLint.Checked

/-! ## Parameters -/

/-- The annotation of a parameter, if the tokens are one. -/
def paramType (part : List Token) : Checked (Option (Option TypeRef)) :=
  match part.map Token.kind with
  | [.identifier] => pure (some none)
  | [.identifier, .colon, .identifier] => do
    let type ← item part 2
    return some (some ⟨type.lexeme, type.span⟩)
  | [.identifier, .colon, .identifier, .question] => do
    let type ← item part 2
    let mark ← item part 3
    return some (some ⟨type.lexeme ++ "?", type.span.merge mark.span⟩)
  | _ => pure none

/-- As `Param.ofTokens?`, with every index checked. -/
def paramOfTokens (part : List Token) : Checked (Option Param) := do
  let type ← paramType part
  return do
    let type ← type
    let first ← part.head?
    let last ← part.getLast?
    return ⟨first.lexeme, type, first.span.merge last.span⟩

/-- As `AuroraLint.params`, with every index and range checked. -/
def params (ts : List Token) (opener closer : Nat) : Checked (List Param) := do
  let args ← splitArguments ts opener closer
  filterMap (fun e => do
    let part ← range ts e.start e.stop
    paramOfTokens part) args

theorem paramOfTokens_eq_ok (part : List Token) :
    paramOfTokens part = .ok (Param.ofTokens? part) := by
  unfold paramOfTokens paramType
  split
  · rename_i hkinds
    obtain ⟨name, rfl, hname⟩ := List.map_eq_singleton_iff.mp hkinds
    simp [Param.ofTokens?, hname, ok_bind, pure_eq_ok]
  · rename_i hkinds
    obtain ⟨name, _, rfl, hname, hrest⟩ := List.map_eq_cons_iff.mp hkinds
    obtain ⟨colon, _, rfl, hcolon, hrest⟩ := List.map_eq_cons_iff.mp hrest
    obtain ⟨type, rfl, htype⟩ := List.map_eq_singleton_iff.mp hrest
    simp [Param.ofTokens?, hname, hcolon, htype, item, orFault, ok_bind, pure_eq_ok]
  · rename_i hkinds
    obtain ⟨name, _, rfl, hname, hrest⟩ := List.map_eq_cons_iff.mp hkinds
    obtain ⟨colon, _, rfl, hcolon, hrest⟩ := List.map_eq_cons_iff.mp hrest
    obtain ⟨type, _, rfl, htype, hrest⟩ := List.map_eq_cons_iff.mp hrest
    obtain ⟨mark, rfl, hmark⟩ := List.map_eq_singleton_iff.mp hrest
    simp [Param.ofTokens?, hname, hcolon, htype, hmark, item, orFault, ok_bind, pure_eq_ok]
  · rename_i hone hthree hfour
    have hnone : Param.ofTokens? part = none := by
      unfold Param.ofTokens?
      split
      · exact if_neg fun h => hone (by simp [h])
      · exact if_neg fun h => hthree (by simp [h])
      · exact if_neg fun h => hfour (by simp [h])
      · rfl
    rw [hnone]
    rfl

theorem params_eq_ok {ts : List Token} {opener closer : Nat} (hlt : opener < closer)
    (hcloser : closer ≤ ts.length) :
    params ts opener closer = .ok (AuroraLint.params ts opener closer) := by
  rw [params, splitArguments_eq_ok hlt hcloser, ok_bind]
  refine filterMap_eq_ok fun e he => ?_
  obtain ⟨_, hne, hstop⟩ := mem_splitArguments hlt he
  rw [extent_eq_ok (Nat.le_of_lt hne) (by omega), ok_bind]
  exact paramOfTokens_eq_ok _

/-! ## Readings -/

/-- A step over tokens that may find nothing, and may fail. -/
def Reading (α : Type) : Type :=
  TokenCursor → Checked (Option α × TokenCursor)

namespace Reading

variable {α β : Type}

/-- Reads nothing. -/
protected def pure (a : α) : Reading α :=
  fun c => .ok (some a, c)

/-- Reads one thing and then, if that was found, another. -/
protected def bind (r : Reading α) (f : α → Reading β) : Reading β :=
  fun c => do
    match ← r c with
    | (some a, c') => f a c'
    | (none, c') => pure (none, c')

instance : Monad Reading where
  pure := Reading.pure
  bind := Reading.bind

/-- A computation that reads no token. -/
def lift (x : Checked α) : Reading α :=
  fun c => do
    let a ← x
    return (some a, c)

/-- A reading without operations that could fail. -/
def total (r : AuroraLint.Reading α) : Reading α :=
  fun c => .ok (r c)

/-- Reads the next token, whatever it is; the token is looked up behind the cursor. -/
def advance : Reading Token :=
  fun c => do
    let t ← item c.advance.tokens (c.advance.pos - 1)
    return (some t, c.advance)

/-- Reads a token of the given kind. -/
def expect (kind : Kind) : Reading Token :=
  fun c => if c.peek = kind then advance c else .ok (none, c)

/-- Reads a token if it is of the given kind. -/
def eat (kind : Kind) : Reading Bool :=
  fun c => if c.peek = kind then (do let _ ← advance; return true : Reading Bool) c
    else .ok (some false, c)

/-- Tries a reading; finding nothing is an answer. -/
def attempt (r : Reading α) : Reading (Option α) :=
  fun c => do
    let (a, c') ← r c
    return (some a, c')

theorem bind_of_some {r : Reading α} {f : α → Reading β} {c c' : TokenCursor} {a : α}
    (h : r c = .ok (some a, c')) : (r >>= f) c = f a c' := by
  show Reading.bind r f c = _
  rw [Reading.bind, h]
  rfl

theorem bind_of_none {r : Reading α} {f : α → Reading β} {c c' : TokenCursor}
    (h : r c = .ok (none, c')) : (r >>= f) c = .ok (none, c') := by
  show Reading.bind r f c = _
  rw [Reading.bind, h]
  rfl

theorem cursor_bind (f : TokenCursor → Reading β) (c : TokenCursor) :
    (total .cursor >>= f) c = f c c := rfl

theorem lift_bind {x : Checked α} {a : α} (h : x = .ok a) (f : α → Reading β) (c : TokenCursor) :
    (lift x >>= f) c = f a c := by
  subst h
  rfl

section

variable {ts : List Token} {p : Nat}

theorem advance_of_ne (h : kindAt ts p ≠ .eof) :
    advance ⟨ts, p⟩ = .ok (some (tokenAt ts p), ⟨ts, p + 1⟩) := by
  have hlt : p < ts.length := by
    apply Classical.byContradiction
    intro hge
    exact h (kindAt_of_length_le (by omega))
  rw [advance, AuroraLint.Reading.advance_of_ne h, Nat.add_sub_cancel, token_eq_ok hlt]
  rfl

theorem expect_of_eq {k : Kind} (h : kindAt ts p = k) (hk : k ≠ .eof) :
    expect k ⟨ts, p⟩ = .ok (some (tokenAt ts p), ⟨ts, p + 1⟩) := by
  have hpeek : (TokenCursor.mk ts p).peek = k := h
  rw [expect, if_pos hpeek, advance_of_ne (by rw [h]; exact hk)]

theorem expect_of_ne {k : Kind} (h : kindAt ts p ≠ k) : expect k ⟨ts, p⟩ = .ok (none, ⟨ts, p⟩) :=
  if_neg h

theorem eat_of_eq {k : Kind} (h : kindAt ts p = k) (hk : k ≠ .eof) :
    eat k ⟨ts, p⟩ = .ok (some true, ⟨ts, p + 1⟩) := by
  have hpeek : (TokenCursor.mk ts p).peek = k := h
  rw [eat, if_pos hpeek, bind_of_some (advance_of_ne (by rw [h]; exact hk))]
  rfl

theorem eat_of_ne {k : Kind} (h : kindAt ts p ≠ k) : eat k ⟨ts, p⟩ = .ok (some false, ⟨ts, p⟩) :=
  if_neg h

theorem moveTo_of_lt {pos : Nat} (h : pos < ts.length) :
    total (.moveTo pos) ⟨ts, p⟩ = .ok (some (), ⟨ts, pos⟩) := by
  simp only [total, AuroraLint.Reading.moveTo, TokenCursor.seek, Except.ok.injEq, Prod.mk.injEq,
    TokenCursor.mk.injEq, true_and]
  omega

end

/-! ## Types and initial values -/

/-- As `AuroraLint.Reading.typeRef`. -/
def typeRef : Reading TypeRef := do
  let name ← expect .identifier
  let c ← total .cursor
  if c.peek = .question then
    let mark ← advance
    return ⟨name.lexeme ++ "?", name.span.merge mark.span⟩
  else
    return ⟨name.lexeme, name.span⟩

/-- Reads the type behind a mark, if the mark is there. -/
def annotation (mark : Kind) : Reading (Option TypeRef) := do
  if ← eat mark then attempt typeRef else return none

/-- Reads the initial value behind `=`, if one is there. -/
def initial : Reading (Option Extent) := do
  if ← eat .equal then
    let c ← total .cursor
    let stop ← lift (expressionEnd c.tokens c.pos)
    total (.moveTo stop)
    return if c.pos < stop then some ⟨c.pos, stop⟩ else none
  else return none

section

variable {ts : List Token} {p : Nat}

theorem typeRef_eq : typeRef ⟨ts, p⟩ = .ok ((typeRefAt ts p).1, ⟨ts, (typeRefAt ts p).2⟩) := by
  unfold typeRef typeRefAt
  by_cases hid : kindAt ts p = .identifier
  · rw [bind_of_some (expect_of_eq hid nofun), if_pos hid, cursor_bind]
    by_cases hq : kindAt ts (p + 1) = .question
    · have hpeek : (TokenCursor.mk ts (p + 1)).peek = .question := hq
      rw [if_pos hpeek, if_pos hq, bind_of_some (advance_of_ne (by rw [hq]; nofun))]
      rfl
    · have hpeek : (TokenCursor.mk ts (p + 1)).peek ≠ .question := hq
      rw [if_neg hpeek, if_neg hq]
      rfl
  · rw [bind_of_none (expect_of_ne hid), if_neg hid]

theorem annotation_eq (mark : Kind) (hmark : mark ≠ .eof) :
    annotation mark ⟨ts, p⟩ =
      .ok (some (annotationAt mark ts p).1, ⟨ts, (annotationAt mark ts p).2⟩) := by
  unfold annotation annotationAt
  by_cases h : kindAt ts p = mark
  · rw [bind_of_some (eat_of_eq h hmark), if_pos rfl, if_pos h, attempt, typeRef_eq]
    rfl
  · rw [bind_of_some (eat_of_ne h), if_neg nofun, if_neg h]
    rfl

theorem initial_eq (hts : EndsInEof ts) :
    initial ⟨ts, p⟩ = .ok (some (initAt ts p).1, ⟨ts, (initAt ts p).2⟩) := by
  unfold initial initAt
  by_cases h : kindAt ts p = .equal
  · have hlt := expressionEnd_lt_length hts (hts.succ_lt_of_eq h nofun)
    rw [bind_of_some (eat_of_eq h nofun), if_pos rfl, if_pos h, cursor_bind,
      lift_bind (expressionEnd_eq_ok ..), bind_of_some (moveTo_of_lt hlt)]
    rfl
  · rw [bind_of_some (eat_of_ne h), if_neg nofun, if_neg h]
    rfl

end

/-! ## Functions -/

/-- As `AuroraLint.Reading.signature`. -/
def signature (keyword : Nat) (name : String) (nameSpan : Span) : Reading FnHeader := do
  let opener ← total .cursor
  let _ ← expect .leftParen
  let close ← lift (callClose opener.tokens opener.pos)
  let closer ← total (.require close)
  let params ← lift (params opener.tokens opener.pos closer)
  total (.moveTo (closer + 1))
  let returnType ← annotation .arrow
  let c ← total .cursor
  let last ← lift (sub c.pos 1)
  let firstToken ← lift (item c.tokens keyword)
  let lastToken ← lift (item c.tokens last)
  return {
    keyword, name, nameSpan, params, returnType, last
    body := AuroraLint.Reading.bodyAt c
    span := firstToken.span.merge lastToken.span }

/-- As `AuroraLint.Reading.fnHeader`, and as `externHeader` with its own word. -/
def named (word : Kind) : Reading FnHeader := do
  let c ← total .cursor
  let _ ← expect word
  let name ← expect .identifier
  signature c.pos name.lexeme name.span

/-- As `AuroraLint.Reading.constructorHeader`. -/
def constructorHeader : Reading FnHeader := do
  let c ← total .cursor
  let word ← expect .kwConstructor
  signature c.pos "constructor" word.span

section

variable {ts : List Token} {p i : Nat}

/-- The list closes behind its opener, so the header has a last token, and its first one is given. -/
theorem signature_eq_ok (hts : EndsInEof ts) {keyword : Nat} (hkeyword : keyword < ts.length)
    (name : String) (nameSpan : Span) :
    signature keyword name nameSpan ⟨ts, p⟩ =
      .ok (AuroraLint.Reading.signature keyword name nameSpan ⟨ts, p⟩) := by
  by_cases hopen : kindAt ts p = .leftParen
  · have hcall := callClose_eq_ok hopen
    unfold signature
    rw [cursor_bind, bind_of_some (expect_of_eq hopen nofun), lift_bind hcall]
    cases hclose : AuroraLint.callClose ts p with
    | none =>
      rw [AuroraLint.Reading.signature_unclosed hopen hclose]
      rfl
    | some closer =>
      obtain ⟨hkind, hlt⟩ := callClose_spec hopen hclose
      have hcloser := hts.succ_lt_of_eq hkind nofun
      have hann := annotationAt_bounds hts .arrow nofun hcloser
      have hparams := params_eq_ok hlt (Nat.le_of_succ_le (Nat.le_of_lt hcloser))
      have hsub := sub_eq_ok (show 1 ≤ (annotationAt .arrow ts (closer + 1)).2 by omega)
      have hlast := token_eq_ok
        (show (annotationAt .arrow ts (closer + 1)).2 - 1 < ts.length by omega)
      have hbody : AuroraLint.Reading.bodyAt ⟨ts, (annotationAt .arrow ts (closer + 1)).2⟩ =
          bodyAfter ts ((annotationAt .arrow ts (closer + 1)).2 - 1) := by
        rw [bodyAfter, Nat.sub_add_cancel (by omega)]
        rfl
      rw [AuroraLint.Reading.signature_closed hts hopen hclose,
        bind_of_some (show total (.require (some closer)) ⟨ts, p + 1⟩ = _ from rfl),
        lift_bind hparams, bind_of_some (moveTo_of_lt hcloser),
        bind_of_some (annotation_eq .arrow nofun), cursor_bind, lift_bind hsub,
        lift_bind (token_eq_ok hkeyword), lift_bind hlast, hbody]
      rfl
  · rw [AuroraLint.Reading.signature_of_ne hopen]
    unfold signature
    rw [cursor_bind, bind_of_none (expect_of_ne hopen)]

theorem named_eq_ok (hts : EndsInEof ts) (word : Kind) (hword : word ≠ .eof) (hi : i < ts.length) :
    named word ⟨ts, i⟩ = .ok ((do
      let c ← AuroraLint.Reading.cursor
      let _ ← AuroraLint.Reading.expect word
      let name ← AuroraLint.Reading.expect .identifier
      AuroraLint.Reading.signature c.pos name.lexeme name.span :
        AuroraLint.Reading FnHeader) ⟨ts, i⟩) := by
  unfold named
  rw [cursor_bind, AuroraLint.Reading.cursor_bind]
  by_cases hw : kindAt ts i = word
  · rw [bind_of_some (expect_of_eq hw hword),
      AuroraLint.Reading.bind_of_some (AuroraLint.Reading.expect_of_eq hw hword)]
    by_cases hn : kindAt ts (i + 1) = .identifier
    · rw [bind_of_some (expect_of_eq hn nofun),
        AuroraLint.Reading.bind_of_some (AuroraLint.Reading.expect_of_eq hn nofun)]
      exact signature_eq_ok hts hi _ _
    · rw [bind_of_none (expect_of_ne hn),
        AuroraLint.Reading.bind_of_none (AuroraLint.Reading.expect_of_ne hn)]
  · rw [bind_of_none (expect_of_ne hw),
      AuroraLint.Reading.bind_of_none (AuroraLint.Reading.expect_of_ne hw)]

theorem constructorHeader_eq_ok (hts : EndsInEof ts) (hi : i < ts.length) :
    constructorHeader ⟨ts, i⟩ = .ok (AuroraLint.Reading.constructorHeader ⟨ts, i⟩) := by
  unfold constructorHeader AuroraLint.Reading.constructorHeader
  rw [cursor_bind, AuroraLint.Reading.cursor_bind]
  by_cases hw : kindAt ts i = .kwConstructor
  · rw [bind_of_some (expect_of_eq hw nofun),
      AuroraLint.Reading.bind_of_some (AuroraLint.Reading.expect_of_eq hw nofun)]
    exact signature_eq_ok hts hi _ _
  · rw [bind_of_none (expect_of_ne hw),
      AuroraLint.Reading.bind_of_none (AuroraLint.Reading.expect_of_ne hw)]

end

/-! ## Classes and variables -/

/-- Passes over a list in parentheses, if one stands here and closes. -/
def skipList : Reading Unit := do
  let c ← total .cursor
  if c.peek = .leftParen then
    let close ← lift (callClose c.tokens c.pos)
    match close with
    | some closer => total (.moveTo (closer + 1))
    | none => return ()
  else return ()

/-- As `AuroraLint.Reading.classHeader`. -/
def classHeader : Reading ClassHeader := do
  let start ← total .cursor
  let _ ← expect .kwClass
  let name ← expect .identifier
  skipList
  let c ← total .cursor
  let last ← lift (sub c.pos 1)
  return {
    keyword := start.pos, name := name.lexeme, nameSpan := name.span
    last, body := AuroraLint.Reading.bodyAt c }

/-- As `AuroraLint.Reading.binder`. -/
def binder : Reading Bool := do
  let c ← total .cursor
  match c.peek with
  | .kwLet => do
    let _ ← advance
    return false
  | .kwVar => do
    let _ ← advance
    return true
  | _ => total .fail

/-- As `AuroraLint.Reading.varDecl`. -/
def varDecl : Reading VarDecl := do
  let c ← total .cursor
  let isMutable ← binder
  let name ← expect .identifier
  let type ← annotation .colon
  let init ← initial
  return {
    keyword := c.pos, isMutable, name := name.lexeme, nameSpan := name.span, type, init }

section

variable {ts : List Token} {p i : Nat}

theorem skipList_eq (hts : EndsInEof ts) :
    skipList ⟨ts, p⟩ = .ok (some (), ⟨ts, listEnd ts p⟩) := by
  unfold skipList listEnd
  rw [cursor_bind]
  by_cases hopen : kindAt ts p = .leftParen
  · have hpeek : (TokenCursor.mk ts p).peek = .leftParen := hopen
    rw [if_pos hpeek, if_pos hopen, lift_bind (callClose_eq_ok hopen)]
    cases hclose : AuroraLint.callClose ts p with
    | none => rfl
    | some closer =>
      exact moveTo_of_lt (hts.succ_lt_of_eq (callClose_spec hopen hclose).1 nofun)
  · have hpeek : (TokenCursor.mk ts p).peek ≠ .leftParen := hopen
    rw [if_neg hpeek, if_neg hopen]
    rfl

theorem classHeader_eq_ok (hts : EndsInEof ts) :
    classHeader ⟨ts, i⟩ = .ok (AuroraLint.Reading.classHeader ⟨ts, i⟩) := by
  by_cases hw : kindAt ts i = .kwClass
  · by_cases hn : kindAt ts (i + 1) = .identifier
    · have hend : i + 2 ≤ listEnd ts (i + 2) ∧ _ :=
        listEnd_bounds hts (hts.succ_lt_of_eq hn (by decide))
      have hsub := sub_eq_ok (show 1 ≤ listEnd ts (i + 2) by omega)
      have hbody : AuroraLint.Reading.bodyAt ⟨ts, listEnd ts (i + 2)⟩ =
          bodyAfter ts (listEnd ts (i + 2) - 1) := by
        rw [bodyAfter, Nat.sub_add_cancel (by omega)]
        rfl
      rw [AuroraLint.Reading.classHeader_of_name hts hw hn]
      unfold classHeader
      rw [cursor_bind, bind_of_some (expect_of_eq hw (by decide)), bind_of_some (expect_of_eq hn (by decide)),
        bind_of_some (skipList_eq hts), cursor_bind, lift_bind hsub, hbody]
      rfl
    · unfold classHeader AuroraLint.Reading.classHeader
      rw [cursor_bind, AuroraLint.Reading.cursor_bind, bind_of_some (expect_of_eq hw (by decide)),
        AuroraLint.Reading.bind_of_some (AuroraLint.Reading.expect_of_eq hw (by decide)),
        bind_of_none (expect_of_ne hn),
        AuroraLint.Reading.bind_of_none (AuroraLint.Reading.expect_of_ne hn)]
  · unfold classHeader AuroraLint.Reading.classHeader
    rw [cursor_bind, AuroraLint.Reading.cursor_bind, bind_of_none (expect_of_ne hw),
      AuroraLint.Reading.bind_of_none (AuroraLint.Reading.expect_of_ne hw)]

theorem binder_eq_ok : binder ⟨ts, i⟩ = .ok (AuroraLint.Reading.binder ⟨ts, i⟩) := by
  by_cases hw : ∃ m, kindAt ts i = binderWord m
  · obtain ⟨m, hw⟩ := hw
    have hpeek : (TokenCursor.mk ts i).peek = binderWord m := hw
    have hne : kindAt ts i ≠ .eof := by
      rw [hw]
      cases m <;> nofun
    rw [AuroraLint.Reading.binder_of_word hw]
    unfold binder
    rw [cursor_bind, hpeek]
    cases m with
    | false => exact bind_of_some (advance_of_ne hne)
    | true => exact bind_of_some (advance_of_ne hne)
  · rw [AuroraLint.Reading.binder_of_ne fun m hm => hw ⟨m, hm⟩]
    unfold binder
    rw [cursor_bind]
    refine congrFun (?_ : _ = total .fail) _
    split
    · rename_i hpeek
      exact absurd ⟨false, hpeek⟩ hw
    · rename_i hpeek
      exact absurd ⟨true, hpeek⟩ hw
    · rfl

theorem varDecl_eq_ok (hts : EndsInEof ts) :
    varDecl ⟨ts, i⟩ = .ok (AuroraLint.Reading.varDecl ⟨ts, i⟩) := by
  by_cases hw : ∃ m, kindAt ts i = binderWord m
  · obtain ⟨m, hw⟩ := hw
    have hbinder := (@binder_eq_ok ts i).trans (by rw [AuroraLint.Reading.binder_of_word hw])
    by_cases hn : kindAt ts (i + 1) = .identifier
    · rw [AuroraLint.Reading.varDecl_of_name hts hw hn]
      unfold varDecl
      rw [cursor_bind, bind_of_some hbinder, bind_of_some (expect_of_eq hn nofun),
        bind_of_some (annotation_eq .colon nofun), bind_of_some (initial_eq hts)]
      rfl
    · unfold varDecl AuroraLint.Reading.varDecl
      rw [cursor_bind, AuroraLint.Reading.cursor_bind, bind_of_some hbinder,
        AuroraLint.Reading.bind_of_some (AuroraLint.Reading.binder_of_word hw),
        bind_of_none (expect_of_ne hn),
        AuroraLint.Reading.bind_of_none (AuroraLint.Reading.expect_of_ne hn)]
  · have hnone := AuroraLint.Reading.binder_of_ne fun m hm => hw ⟨m, hm⟩
    have hbinder := (@binder_eq_ok ts i).trans (by rw [hnone])
    unfold varDecl AuroraLint.Reading.varDecl
    rw [cursor_bind, AuroraLint.Reading.cursor_bind, bind_of_none hbinder,
      AuroraLint.Reading.bind_of_none hnone]

end

end Reading

/-! ## Headers at a token -/

/-- The tokens end in the end of the document, as cursors over them need. -/
def ended (ts : List Token) : Checked Unit :=
  if ts.getLast?.any (·.kind == .eof) then pure () else .error .unended

/-- What a reading finds from token `i` on, and the cursor after it. -/
def readAt {α : Type} (r : Reading α) (ts : List Token) (i : Nat) :
    Checked (Option α × TokenCursor) := do
  ended ts
  r ⟨ts, i⟩

/-- As `AuroraLint.fnHeaderAt`. -/
def fnHeaderAt (ts : List Token) (i : Nat) : Checked (Option FnHeader) :=
  Prod.fst <$> readAt (.named .kwFn) ts i

/-- As `AuroraLint.externHeaderAt`. -/
def externHeaderAt (ts : List Token) (i : Nat) : Checked (Option FnHeader) :=
  Prod.fst <$> readAt (.named .kwExtern) ts i

/-- As `AuroraLint.constructorHeaderAt`. -/
def constructorHeaderAt (ts : List Token) (i : Nat) : Checked (Option FnHeader) :=
  Prod.fst <$> readAt .constructorHeader ts i

/-- As `AuroraLint.classHeaderAt`. -/
def classHeaderAt (ts : List Token) (i : Nat) : Checked (Option ClassHeader) :=
  Prod.fst <$> readAt .classHeader ts i

/-- As `AuroraLint.varDeclAt`. -/
def varDeclAt (ts : List Token) (i : Nat) : Checked (Option VarDecl) :=
  Prod.fst <$> readAt .varDecl ts i

section

variable {ts : List Token} {i : Nat}

theorem ended_eq_ok (hts : EndsInEof ts) : ended ts = .ok () := by
  obtain ⟨init, last, rfl, hlast, _⟩ := hts
  simp [ended, hlast, pure_eq_ok]

theorem readAt_eq_ok {α : Type} {r : Reading α} {r' : AuroraLint.Reading α} (hts : EndsInEof ts)
    (h : r ⟨ts, i⟩ = .ok (r' ⟨ts, i⟩)) : readAt r ts i = .ok (r' ⟨ts, i⟩) := by
  rw [readAt, ended_eq_ok hts, ok_bind, h]

theorem fnHeaderAt_eq_ok (hts : EndsInEof ts) (hi : i < ts.length) :
    fnHeaderAt ts i = .ok (AuroraLint.fnHeaderAt ts i) := by
  rw [fnHeaderAt, readAt_eq_ok hts (Reading.named_eq_ok hts .kwFn nofun hi)]
  rfl

theorem externHeaderAt_eq_ok (hts : EndsInEof ts) (hi : i < ts.length) :
    externHeaderAt ts i = .ok (AuroraLint.externHeaderAt ts i) := by
  rw [externHeaderAt, readAt_eq_ok hts (Reading.named_eq_ok hts .kwExtern nofun hi)]
  rfl

theorem constructorHeaderAt_eq_ok (hts : EndsInEof ts) (hi : i < ts.length) :
    constructorHeaderAt ts i = .ok (AuroraLint.constructorHeaderAt ts i) := by
  rw [constructorHeaderAt, readAt_eq_ok hts (Reading.constructorHeader_eq_ok hts hi)]
  rfl

theorem classHeaderAt_eq_ok (hts : EndsInEof ts) :
    classHeaderAt ts i = .ok (AuroraLint.classHeaderAt ts i) := by
  rw [classHeaderAt, readAt_eq_ok hts (Reading.classHeader_eq_ok hts)]
  rfl

theorem varDeclAt_eq_ok (hts : EndsInEof ts) :
    varDeclAt ts i = .ok (AuroraLint.varDeclAt ts i) := by
  rw [varDeclAt, readAt_eq_ok hts (Reading.varDecl_eq_ok hts)]
  rfl

end

end AuroraLint.Checked
