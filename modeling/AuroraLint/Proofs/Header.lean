import AuroraLint.Header.Reader
import AuroraLint.Proofs.Extent

/-!
# What header readings find

The readings step by step, told by the kinds of the tokens they pass.

* `typeRefAt`, `annotationAt` : a type, and a type behind a mark, with the index after them.
* `FnHeader.ReadAt`, `ClassHeader.ReadAt`, `VarDecl.ReadAt` : everything that a header which was
  read says of the tokens it was read from.

Main statements: `fnHeaderAt_eq_some_iff` and its likes — a header is read at a token exactly if the
tokens are of these kinds — and the bounds of the indices that headers hold.
-/

set_option autoImplicit false

namespace AuroraLint

/-! ## Types and annotations -/

/-- The type written at token `p`, and the index after it. -/
def typeRefAt (ts : List Token) (p : Nat) : Option TypeRef × Nat :=
  if kindAt ts p = .identifier then
    if kindAt ts (p + 1) = .question then
      (some ⟨(tokenAt ts p).lexeme ++ "?", (tokenAt ts p).span.merge (tokenAt ts (p + 1)).span⟩, p + 2)
    else (some ⟨(tokenAt ts p).lexeme, (tokenAt ts p).span⟩, p + 1)
  else (none, p)

/-- The type behind a mark at token `p`, if the mark is there, and the index after both. -/
def annotationAt (mark : Kind) (ts : List Token) (p : Nat) : Option TypeRef × Nat :=
  if kindAt ts p = mark then typeRefAt ts (p + 1) else (none, p)

namespace Reading

variable {ts : List Token} {p : Nat}

theorem advance_of_ne (h : kindAt ts p ≠ .eof) : (TokenCursor.mk ts p).advance = ⟨ts, p + 1⟩ := by
  have hend : (TokenCursor.mk ts p).atEnd = false := by
    simpa [TokenCursor.atEnd, TokenCursor.peek, TokenCursor.peekAt] using h
  rw [TokenCursor.advance, hend]
  rfl

theorem expect_of_eq {k : Kind} (h : kindAt ts p = k) (hk : k ≠ .eof) :
    expect k ⟨ts, p⟩ = (some (tokenAt ts p), ⟨ts, p + 1⟩) := by
  have hpeek : (TokenCursor.mk ts p).peek = k := h
  rw [expect, if_pos hpeek, advance_of_ne (by rw [h]; exact hk)]
  rfl

theorem expect_of_ne {k : Kind} (h : kindAt ts p ≠ k) : expect k ⟨ts, p⟩ = (none, ⟨ts, p⟩) :=
  if_neg h

theorem eat_of_eq {k : Kind} (h : kindAt ts p = k) (hk : k ≠ .eof) :
    eat k ⟨ts, p⟩ = (some true, ⟨ts, p + 1⟩) := by
  have hpeek : (TokenCursor.mk ts p).peek = k := h
  rw [eat, if_pos hpeek, advance_of_ne (by rw [h]; exact hk)]

theorem eat_of_ne {k : Kind} (h : kindAt ts p ≠ k) : eat k ⟨ts, p⟩ = (some false, ⟨ts, p⟩) :=
  if_neg h

theorem typeRef_eq : typeRef ⟨ts, p⟩ = ((typeRefAt ts p).1, ⟨ts, (typeRefAt ts p).2⟩) := by
  unfold typeRef typeRefAt
  rw [bind_apply]
  by_cases hid : kindAt ts p = .identifier
  · rw [expect_of_eq hid nofun, if_pos hid]
    simp only [bind_apply, cursor]
    by_cases hq : kindAt ts (p + 1) = .question
    · have hpeek : (TokenCursor.mk ts (p + 1)).peek = .question := hq
      rw [if_pos hpeek, if_pos hq, bind_apply, expect_of_eq hq nofun]
      rfl
    · have hpeek : (TokenCursor.mk ts (p + 1)).peek ≠ .question := hq
      rw [if_neg hpeek, if_neg hq]
      rfl
  · rw [expect_of_ne hid, if_neg hid]

theorem bind_of_some {α β : Type} {r : Reading α} {f : α → Reading β} {c c' : TokenCursor} {a : α}
    (h : r c = (some a, c')) : (r >>= f) c = f a c' := by
  rw [bind_apply, h]

theorem bind_of_none {α β : Type} {r : Reading α} {f : α → Reading β} {c c' : TokenCursor}
    (h : r c = (none, c')) : (r >>= f) c = (none, c') := by
  rw [bind_apply, h]

theorem cursor_bind {β : Type} (f : TokenCursor → Reading β) (c : TokenCursor) :
    (cursor >>= f) c = f c c := rfl

theorem require_bind {α β : Type} (a : α) (f : α → Reading β) (c : TokenCursor) :
    (require (some a) >>= f) c = f a c := rfl

/-- Reading on behind an optional annotation. -/
theorem annotation_bind (mark : Kind) (hmark : mark ≠ .eof) {β : Type}
    (k : Option TypeRef → Reading β) :
    (eat mark >>= fun b => if b = true then attempt typeRef >>= k else pure none >>= k) ⟨ts, p⟩ =
      k (annotationAt mark ts p).1 ⟨ts, (annotationAt mark ts p).2⟩ := by
  unfold annotationAt
  by_cases h : kindAt ts p = mark
  · rw [bind_of_some (eat_of_eq h hmark), if_pos rfl, if_pos h]
    exact bind_of_some (by rw [attempt, typeRef_eq])
  · rw [bind_of_some (eat_of_ne h), if_neg nofun, if_neg h]
    exact bind_of_some rfl

end Reading

section Bounds

variable {ts : List Token} {p : Nat}

theorem typeRefAt_bounds (hts : EndsInEof ts) (hp : p < ts.length) :
    p ≤ (typeRefAt ts p).2 ∧ (typeRefAt ts p).2 < ts.length := by
  unfold typeRefAt
  split
  · rename_i hid
    have := hts.succ_lt_of_eq hid nofun
    split
    · rename_i hq
      have := hts.succ_lt_of_eq hq nofun
      exact ⟨by simp, this⟩
    · exact ⟨by simp, this⟩
  · exact ⟨Nat.le_refl _, hp⟩

theorem annotationAt_bounds (hts : EndsInEof ts) (mark : Kind) (hmark : mark ≠ .eof)
    (hp : p < ts.length) :
    p ≤ (annotationAt mark ts p).2 ∧ (annotationAt mark ts p).2 < ts.length := by
  unfold annotationAt
  split
  · rename_i hm
    have := typeRefAt_bounds hts (hts.succ_lt_of_eq hm hmark)
    omega
  · exact ⟨Nat.le_refl _, hp⟩

end Bounds

/-- The `{` that follows token `last`, if one does. -/
def bodyAfter (ts : List Token) (last : Nat) : Option Nat :=
  if kindAt ts (last + 1) = .leftBrace then some (last + 1) else none

theorem bodyAfter_eq_some {ts : List Token} {last body : Nat} (h : bodyAfter ts last = some body) :
    body = last + 1 ∧ kindAt ts body = .leftBrace := by
  unfold bodyAfter at h
  split at h
  · rename_i hk
    obtain rfl := Option.some.inj h
    exact ⟨rfl, hk⟩
  · cases h

/-! ## Functions -/

/-- What a header whose parameters open at token `opener` says of the tokens it was read from. -/
structure FnHeader.ReadAt (ts : List Token) (keyword opener : Nat) (h : FnHeader) : Prop where
  keyword_eq : h.keyword = keyword
  opens : kindAt ts opener = .leftParen
  closes : ∃ closer, callClose ts opener = some closer ∧ h.params = AuroraLint.params ts opener closer ∧
    annotationAt .arrow ts (closer + 1) = (h.returnType, h.last + 1)
  body_eq : h.body = bodyAfter ts h.last
  span_eq : h.span = (tokenAt ts keyword).span.merge (tokenAt ts h.last).span

namespace FnHeader.ReadAt

variable {ts : List Token} {keyword opener : Nat} {h : FnHeader}

/-- The header reaches at least to its closing parenthesis, and never to the end of the
document. -/
theorem bounds (hr : h.ReadAt ts keyword opener) (hts : EndsInEof ts) :
    opener < h.last ∧ h.last + 1 < ts.length := by
  obtain ⟨closer, hclose, _, hann⟩ := hr.closes
  obtain ⟨hkind, hlt⟩ := callClose_spec hr.opens hclose
  have := annotationAt_bounds hts .arrow nofun (hts.succ_lt_of_eq hkind nofun)
  rw [hann] at this
  simp only at this
  omega

theorem body_spec (hr : h.ReadAt ts keyword opener) {body : Nat} (hb : h.body = some body) :
    body = h.last + 1 ∧ kindAt ts body = .leftBrace :=
  bodyAfter_eq_some (hr.body_eq.symm.trans hb)

end FnHeader.ReadAt

namespace Reading

variable {ts : List Token} {keyword opener : Nat} {name : String} {nameSpan : Span}

theorem signature_of_ne (hopen : kindAt ts opener ≠ .leftParen) :
    signature keyword name nameSpan ⟨ts, opener⟩ = (none, ⟨ts, opener⟩) := by
  unfold signature
  rw [cursor_bind, bind_of_none (expect_of_ne hopen)]

theorem signature_unclosed (hopen : kindAt ts opener = .leftParen)
    (hclose : callClose ts opener = none) :
    signature keyword name nameSpan ⟨ts, opener⟩ = (none, ⟨ts, opener + 1⟩) := by
  unfold signature
  rw [cursor_bind, bind_of_some (expect_of_eq hopen nofun), hclose]
  rfl

/-- The header behind an argument list that closes. -/
theorem signature_closed (hts : EndsInEof ts) (hopen : kindAt ts opener = .leftParen)
    {closer : Nat} (hclose : callClose ts opener = some closer) :
    let after := annotationAt .arrow ts (closer + 1)
    signature keyword name nameSpan ⟨ts, opener⟩ =
      (some ⟨keyword, name, nameSpan, params ts opener closer, after.1, after.2 - 1,
        bodyAfter ts (after.2 - 1),
        (tokenAt ts keyword).span.merge (tokenAt ts (after.2 - 1)).span⟩, ⟨ts, after.2⟩) := by
  intro after
  have hlt := hts.succ_lt_of_eq (callClose_spec hopen hclose).1 nofun
  have hann : closer + 1 ≤ after.2 := (annotationAt_bounds hts .arrow nofun hlt).1
  have hseek : moveTo (closer + 1) ⟨ts, opener + 1⟩ = (some (), ⟨ts, closer + 1⟩) := by
    simp only [moveTo, TokenCursor.seek, Prod.mk.injEq, TokenCursor.mk.injEq, true_and]
    omega
  have hbody : bodyAt ⟨ts, after.2⟩ = bodyAfter ts (after.2 - 1) := by
    have : after.2 - 1 + 1 = after.2 := by omega
    rw [bodyAfter, this]
    rfl
  unfold signature
  rw [cursor_bind, bind_of_some (expect_of_eq hopen nofun), hclose, require_bind,
    bind_of_some hseek]
  refine (annotation_bind .arrow nofun _).trans ?_
  rw [← hbody]
  rfl

/-- A header is read from its parameters on exactly if they close. -/
theorem signature_eq_some_iff (hts : EndsInEof ts) {h : FnHeader} :
    (signature keyword name nameSpan ⟨ts, opener⟩).1 = some h ↔
      h.name = name ∧ h.nameSpan = nameSpan ∧ h.ReadAt ts keyword opener := by
  constructor
  · intro hs
    by_cases hopen : kindAt ts opener = .leftParen
    · cases hclose : callClose ts opener with
      | none =>
        rw [signature_unclosed hopen hclose] at hs
        cases hs
      | some closer =>
        have hlt := hts.succ_lt_of_eq (callClose_spec hopen hclose).1 nofun
        have hann := annotationAt_bounds hts .arrow nofun hlt
        rw [signature_closed hts hopen hclose] at hs
        obtain rfl := Option.some.inj hs
        refine ⟨rfl, rfl, rfl, hopen, ⟨closer, hclose, rfl, ?_⟩, rfl, rfl⟩
        exact Prod.ext rfl (by show _ = _ - 1 + 1; omega)
    · rw [signature_of_ne hopen] at hs
      cases hs
  · rintro ⟨rfl, rfl, rfl, hopen, ⟨closer, hclose, hparams, hann⟩, hbody, hspan⟩
    rw [signature_closed hts hopen hclose, hann]
    cases h
    simp_all

end Reading

/-- What a header with a name says of the tokens from its first word `word` on. -/
structure FnHeader.NamedAt (ts : List Token) (i : Nat) (word : Kind) (h : FnHeader) : Prop where
  word_kind : kindAt ts i = word
  name_kind : kindAt ts (i + 1) = .identifier
  name_eq : h.name = (tokenAt ts (i + 1)).lexeme
  nameSpan_eq : h.nameSpan = (tokenAt ts (i + 1)).span
  readAt : h.ReadAt ts i (i + 2)

/-- What the header of a constructor says of the tokens from its word on. -/
structure FnHeader.UnnamedAt (ts : List Token) (i : Nat) (h : FnHeader) : Prop where
  word_kind : kindAt ts i = .kwConstructor
  name_eq : h.name = "constructor"
  nameSpan_eq : h.nameSpan = (tokenAt ts i).span
  readAt : h.ReadAt ts i (i + 1)

section Functions

variable {ts : List Token} {i : Nat} {h : FnHeader}

/-- The readings of `fn` and `extern` differ in their first word alone. -/
theorem named_eq_some_iff (hts : EndsInEof ts) (word : Kind) (hword : word ≠ .eof) :
    ((do let c ← Reading.cursor
         let _ ← Reading.expect word
         let name ← Reading.expect .identifier
         Reading.signature c.pos name.lexeme name.span : Reading FnHeader) ⟨ts, i⟩).1 = some h ↔
      h.NamedAt ts i word := by
  rw [Reading.cursor_bind]
  by_cases hw : kindAt ts i = word
  · rw [Reading.bind_of_some (Reading.expect_of_eq hw hword)]
    by_cases hn : kindAt ts (i + 1) = .identifier
    · rw [Reading.bind_of_some (Reading.expect_of_eq hn nofun), Reading.signature_eq_some_iff hts]
      exact ⟨fun ⟨h1, h2, h3⟩ => ⟨hw, hn, h1, h2, h3⟩, fun ⟨_, _, h1, h2, h3⟩ => ⟨h1, h2, h3⟩⟩
    · rw [Reading.bind_of_none (Reading.expect_of_ne hn)]
      exact ⟨nofun, fun h => absurd h.name_kind hn⟩
  · rw [Reading.bind_of_none (Reading.expect_of_ne hw)]
    exact ⟨nofun, fun h => absurd h.word_kind hw⟩

theorem fnHeaderAt_eq_some_iff (hts : EndsInEof ts) :
    fnHeaderAt ts i = some h ↔ h.NamedAt ts i .kwFn :=
  named_eq_some_iff hts .kwFn nofun

theorem externHeaderAt_eq_some_iff (hts : EndsInEof ts) :
    externHeaderAt ts i = some h ↔ h.NamedAt ts i .kwExtern :=
  named_eq_some_iff hts .kwExtern nofun

theorem constructorHeaderAt_eq_some_iff (hts : EndsInEof ts) :
    constructorHeaderAt ts i = some h ↔ h.UnnamedAt ts i := by
  unfold constructorHeaderAt Reading.constructorHeader
  rw [Reading.cursor_bind]
  by_cases hw : kindAt ts i = .kwConstructor
  · rw [Reading.bind_of_some (Reading.expect_of_eq hw nofun), Reading.signature_eq_some_iff hts]
    exact ⟨fun ⟨h1, h2, h3⟩ => ⟨hw, h1, h2, h3⟩, fun ⟨_, h1, h2, h3⟩ => ⟨h1, h2, h3⟩⟩
  · rw [Reading.bind_of_none (Reading.expect_of_ne hw)]
    exact ⟨nofun, fun h => absurd h.word_kind hw⟩

end Functions

/-! ## Classes -/

/-- The index after the parenthesised list at token `p`, if one closes. -/
def listEnd (ts : List Token) (p : Nat) : Nat :=
  if kindAt ts p = .leftParen then
    match callClose ts p with
    | some closer => closer + 1
    | none => p
  else p

theorem listEnd_bounds {ts : List Token} {p : Nat} (hts : EndsInEof ts) (hp : p < ts.length) :
    p ≤ listEnd ts p ∧ listEnd ts p < ts.length := by
  unfold listEnd
  split
  · rename_i hopen
    split
    · rename_i closer hclose
      obtain ⟨hkind, hlt⟩ := callClose_spec hopen hclose
      have := hts.succ_lt_of_eq hkind nofun
      omega
    · exact ⟨Nat.le_refl _, hp⟩
  · exact ⟨Nat.le_refl _, hp⟩

/-- What the header of a class says of the tokens from its word on. -/
structure ClassHeader.ReadAt (ts : List Token) (i : Nat) (h : ClassHeader) : Prop where
  keyword_eq : h.keyword = i
  word_kind : kindAt ts i = .kwClass
  name_kind : kindAt ts (i + 1) = .identifier
  name_eq : h.name = (tokenAt ts (i + 1)).lexeme
  nameSpan_eq : h.nameSpan = (tokenAt ts (i + 1)).span
  last_eq : h.last + 1 = listEnd ts (i + 2)
  body_eq : h.body = bodyAfter ts h.last

namespace ClassHeader.ReadAt

variable {ts : List Token} {i : Nat} {h : ClassHeader}

theorem body_spec (hr : h.ReadAt ts i) {body : Nat} (hb : h.body = some body) :
    body = h.last + 1 ∧ kindAt ts body = .leftBrace :=
  bodyAfter_eq_some (hr.body_eq.symm.trans hb)

end ClassHeader.ReadAt

/-- The header of a class, from the index after its list on. -/
theorem Reading.classHeader_of_name {ts : List Token} {i : Nat} (hts : EndsInEof ts)
    (hw : kindAt ts i = .kwClass) (hn : kindAt ts (i + 1) = .identifier) :
    Reading.classHeader ⟨ts, i⟩ =
      (some ⟨i, (tokenAt ts (i + 1)).lexeme, (tokenAt ts (i + 1)).span, listEnd ts (i + 2) - 1,
        bodyAfter ts (listEnd ts (i + 2) - 1)⟩, ⟨ts, listEnd ts (i + 2)⟩) := by
  have hend : i + 2 ≤ listEnd ts (i + 2) ∧ _ :=
    listEnd_bounds hts (hts.succ_lt_of_eq hn (by decide))
  have hbody : Reading.bodyAt ⟨ts, listEnd ts (i + 2)⟩ =
      bodyAfter ts (listEnd ts (i + 2) - 1) := by
    have : listEnd ts (i + 2) - 1 + 1 = listEnd ts (i + 2) := by omega
    rw [bodyAfter, this]
    rfl
  unfold Reading.classHeader
  rw [Reading.cursor_bind, Reading.bind_of_some (Reading.expect_of_eq hw (by decide)),
    Reading.bind_of_some (Reading.expect_of_eq hn (by decide)), Reading.cursor_bind, ← hbody]
  unfold listEnd
  by_cases hopen : kindAt ts (i + 2) = .leftParen
  · have hpeek : (TokenCursor.mk ts (i + 2)).peek = .leftParen := hopen
    rw [if_pos hopen]
    simp only [if_pos hpeek]
    cases hclose : callClose ts (i + 2) with
    | none => rfl
    | some closer =>
      have hlt := hts.succ_lt_of_eq (callClose_spec hopen hclose).1 (by decide)
      have hseek : Reading.moveTo (closer + 1) ⟨ts, i + 2⟩ = (some (), ⟨ts, closer + 1⟩) := by
        simp only [Reading.moveTo, TokenCursor.seek, Prod.mk.injEq, TokenCursor.mk.injEq, true_and]
        omega
      exact Reading.bind_of_some hseek
  · have hpeek : (TokenCursor.mk ts (i + 2)).peek ≠ .leftParen := hopen
    rw [if_neg hopen]
    simp only [if_neg hpeek]
    rfl

theorem classHeaderAt_eq_some_iff {ts : List Token} {i : Nat} {h : ClassHeader}
    (hts : EndsInEof ts) : classHeaderAt ts i = some h ↔ h.ReadAt ts i := by
  unfold classHeaderAt
  constructor
  · intro hs
    by_cases hw : kindAt ts i = .kwClass
    · by_cases hn : kindAt ts (i + 1) = .identifier
      · have hend : i + 2 ≤ listEnd ts (i + 2) ∧ _ :=
          listEnd_bounds hts (hts.succ_lt_of_eq hn nofun)
        rw [Reading.classHeader_of_name hts hw hn] at hs
        obtain rfl := Option.some.inj hs
        exact ⟨rfl, hw, hn, rfl, rfl, by show _ - 1 + 1 = _; omega, rfl⟩
      · unfold Reading.classHeader at hs
        rw [Reading.cursor_bind, Reading.bind_of_some (Reading.expect_of_eq hw nofun),
          Reading.bind_of_none (Reading.expect_of_ne hn)] at hs
        cases hs
    · unfold Reading.classHeader at hs
      rw [Reading.cursor_bind, Reading.bind_of_none (Reading.expect_of_ne hw)] at hs
      cases hs
  · rintro ⟨hkey, hw, hn, hname, hspan, hlast, hbody⟩
    rw [Reading.classHeader_of_name hts hw hn, ← hlast, Nat.add_sub_cancel, ← hbody, ← hname,
      ← hspan, ← hkey]

/-! ## Variables -/

/-- The initial value behind an `=` at token `p`, and the index after it. -/
def initAt (ts : List Token) (p : Nat) : Option Extent × Nat :=
  if kindAt ts p = .equal then
    let stop := expressionEnd ts (p + 1)
    (if p + 1 < stop then some ⟨p + 1, stop⟩ else none, stop)
  else (none, p)

theorem initAt_bounds {ts : List Token} {p : Nat} (hts : EndsInEof ts) (hp : p < ts.length) :
    p ≤ (initAt ts p).2 ∧ (initAt ts p).2 < ts.length := by
  unfold initAt
  split
  · rename_i he
    have hle := le_expressionEnd ts (p + 1)
    have hlt := expressionEnd_lt_length hts (hts.succ_lt_of_eq he nofun)
    simp only
    omega
  · exact ⟨Nat.le_refl _, hp⟩

/-- An initial value has a token, and stands between the `=` and the end of the document. -/
theorem initAt_eq_some {ts : List Token} {p stop : Nat} {e : Extent}
    (h : initAt ts p = (some e, stop)) : p < e.start ∧ e.start < e.stop ∧ e.stop = stop := by
  unfold initAt at h
  split at h
  · simp only [Prod.mk.injEq] at h
    obtain ⟨hinit, rfl⟩ := h
    split at hinit
    · rename_i hlt
      obtain rfl := Option.some.inj hinit
      exact ⟨Nat.lt_succ_self p, hlt, rfl⟩
    · cases hinit
  · cases h

/-- The word that declares a variable which can, or cannot, be changed. -/
def binderWord (isMutable : Bool) : Kind :=
  if isMutable then .kwVar else .kwLet

/-- What a declaration says of the tokens from its word up to index `stop`. -/
structure VarDecl.ReadAt (ts : List Token) (i stop : Nat) (d : VarDecl) : Prop where
  keyword_eq : d.keyword = i
  word_kind : kindAt ts i = binderWord d.isMutable
  name_kind : kindAt ts (i + 1) = .identifier
  name_eq : d.name = (tokenAt ts (i + 1)).lexeme
  nameSpan_eq : d.nameSpan = (tokenAt ts (i + 1)).span
  type_eq : d.type = (annotationAt .colon ts (i + 2)).1
  init_eq : initAt ts (annotationAt .colon ts (i + 2)).2 = (d.init, stop)

namespace VarDecl.ReadAt

variable {ts : List Token} {i stop : Nat} {d : VarDecl}

theorem annotation_bounds (hr : d.ReadAt ts i stop) (hts : EndsInEof ts) :
    i + 2 ≤ (annotationAt .colon ts (i + 2)).2 ∧ (annotationAt .colon ts (i + 2)).2 < ts.length :=
  annotationAt_bounds hts .colon nofun (hts.succ_lt_of_eq hr.name_kind nofun)

theorem bounds (hr : d.ReadAt ts i stop) (hts : EndsInEof ts) : i + 2 ≤ stop ∧ stop < ts.length := by
  have hann := hr.annotation_bounds hts
  have hinit := initAt_bounds hts hann.2
  rw [hr.init_eq] at hinit
  simp only at hinit
  omega

theorem init_bounds (hr : d.ReadAt ts i stop) (hts : EndsInEof ts) {e : Extent}
    (he : d.init = some e) : i + 2 < e.start ∧ e.start < e.stop ∧ e.stop < ts.length := by
  have hstop := (hr.bounds hts).2
  have hann := hr.annotation_bounds hts
  have hinit := initAt_eq_some (by rw [← he]; exact hr.init_eq)
  omega

end VarDecl.ReadAt

namespace Reading

variable {ts : List Token} {i : Nat}

theorem binder_of_word {m : Bool} (h : kindAt ts i = binderWord m) :
    binder ⟨ts, i⟩ = (some m, ⟨ts, i + 1⟩) := by
  have hpeek : (TokenCursor.mk ts i).peek = binderWord m := h
  unfold binder
  rw [cursor_bind, hpeek]
  cases m with
  | false => exact bind_of_some (expect_of_eq h nofun)
  | true => exact bind_of_some (expect_of_eq h nofun)

theorem binder_of_ne (h : ∀ m, kindAt ts i ≠ binderWord m) : binder ⟨ts, i⟩ = (none, ⟨ts, i⟩) := by
  unfold binder
  rw [cursor_bind]
  refine congrFun (?_ : _ = fail) _
  split
  · rename_i hpeek
    exact absurd hpeek (h false)
  · rename_i hpeek
    exact absurd hpeek (h true)
  · rfl

/-- Reading on behind an optional initial value. -/
theorem initializer_bind (hts : EndsInEof ts) {p : Nat} {β : Type} (k : Option Extent → Reading β) :
    (eat .equal >>= fun b => if b = true then initializer >>= k else pure none >>= k) ⟨ts, p⟩ =
      k (initAt ts p).1 ⟨ts, (initAt ts p).2⟩ := by
  unfold initAt
  by_cases h : kindAt ts p = .equal
  · have hlt := expressionEnd_lt_length hts (hts.succ_lt_of_eq h nofun)
    have hseek : moveTo (expressionEnd ts (p + 1)) ⟨ts, p + 1⟩ =
        (some (), ⟨ts, expressionEnd ts (p + 1)⟩) := by
      simp only [moveTo, TokenCursor.seek, Prod.mk.injEq, TokenCursor.mk.injEq, true_and]
      omega
    rw [bind_of_some (eat_of_eq h nofun), if_pos rfl, if_pos h]
    refine bind_of_some ?_
    unfold initializer
    rw [cursor_bind]
    exact bind_of_some hseek
  · rw [bind_of_some (eat_of_ne h), if_neg nofun, if_neg h]
    exact bind_of_some rfl

/-- A declaration that has a word and a name is read to its end. -/
theorem varDecl_of_name (hts : EndsInEof ts) {m : Bool} (hw : kindAt ts i = binderWord m)
    (hn : kindAt ts (i + 1) = .identifier) :
    let ann := annotationAt .colon ts (i + 2)
    let init := initAt ts ann.2
    varDecl ⟨ts, i⟩ = (some ⟨i, m, (tokenAt ts (i + 1)).lexeme, (tokenAt ts (i + 1)).span, ann.1,
      init.1⟩, ⟨ts, init.2⟩) := by
  intro ann init
  unfold varDecl
  rw [cursor_bind, bind_of_some (binder_of_word hw), bind_of_some (expect_of_eq hn nofun)]
  refine (annotation_bind .colon nofun _).trans ?_
  exact initializer_bind hts _

theorem varDecl_eq_some_iff (hts : EndsInEof ts) {d : VarDecl} {c : TokenCursor} :
    varDecl ⟨ts, i⟩ = (some d, c) ↔ ∃ stop, c = ⟨ts, stop⟩ ∧ d.ReadAt ts i stop := by
  constructor
  · intro h
    by_cases hw : ∃ m, kindAt ts i = binderWord m
    · obtain ⟨m, hw⟩ := hw
      by_cases hn : kindAt ts (i + 1) = .identifier
      · rw [varDecl_of_name hts hw hn, Prod.mk.injEq] at h
        obtain ⟨hd, rfl⟩ := h
        obtain rfl := Option.some.inj hd
        exact ⟨_, rfl, rfl, hw, hn, rfl, rfl, rfl, rfl⟩
      · unfold varDecl at h
        rw [cursor_bind, bind_of_some (binder_of_word hw), bind_of_none (expect_of_ne hn)] at h
        cases h
    · unfold varDecl at h
      rw [cursor_bind, bind_of_none (binder_of_ne fun m hm => hw ⟨m, hm⟩)] at h
      cases h
  · rintro ⟨stop, rfl, hkey, hw, hn, hname, hspan, htype, hinit⟩
    rw [varDecl_of_name hts hw hn, hinit, ← htype, ← hname, ← hspan, ← hkey]

end Reading

theorem varDeclAt_eq_some_iff {ts : List Token} {i : Nat} {d : VarDecl} (hts : EndsInEof ts) :
    varDeclAt ts i = some d ↔ ∃ stop, d.ReadAt ts i stop := by
  constructor
  · intro h
    obtain ⟨stop, _, hr⟩ :=
      (Reading.varDecl_eq_some_iff hts).mp (Prod.ext h rfl : Reading.varDecl ⟨ts, i⟩ = (some d, _))
    exact ⟨stop, hr⟩
  · rintro ⟨stop, hr⟩
    exact congrArg Prod.fst ((Reading.varDecl_eq_some_iff hts).mpr ⟨stop, rfl, hr⟩)

end AuroraLint
