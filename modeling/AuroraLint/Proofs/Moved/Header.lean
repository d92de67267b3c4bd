import AuroraLint.Proofs.Header
import AuroraLint.Proofs.Moved.Basic

/-!
# Headers at other byte offsets

* `FnHeader.mapOffset`, `ClassHeader.mapOffset`, `VarDecl.mapOffset` : a header whose spans stand at
  other offsets; its token indices stay.

Main statements: `TokensMoved.fnHeaderAt` and its likes — from moved tokens the moved header is
read, or none where none was.
-/

set_option autoImplicit false

namespace AuroraLint

/-- The annotation at other offsets. -/
def TypeRef.mapOffset (f : Nat → Nat) (t : TypeRef) : TypeRef :=
  ⟨t.text, t.span.mapOffset f⟩

/-- The parameter at other offsets. -/
def Param.mapOffset (f : Nat → Nat) (p : Param) : Param :=
  ⟨p.name, p.type.map (TypeRef.mapOffset f), p.span.mapOffset f⟩

/-- The header at other offsets. -/
def FnHeader.mapOffset (f : Nat → Nat) (h : FnHeader) : FnHeader :=
  { h with
    nameSpan := h.nameSpan.mapOffset f
    params := h.params.map (Param.mapOffset f)
    returnType := h.returnType.map (TypeRef.mapOffset f)
    span := h.span.mapOffset f }

/-- The class header at other offsets. -/
def ClassHeader.mapOffset (f : Nat → Nat) (h : ClassHeader) : ClassHeader :=
  { h with nameSpan := h.nameSpan.mapOffset f }

/-- The declaration at other offsets. -/
def VarDecl.mapOffset (f : Nat → Nat) (d : VarDecl) : VarDecl :=
  { d with nameSpan := d.nameSpan.mapOffset f, type := d.type.map (TypeRef.mapOffset f) }

namespace TokensMoved

variable {g : OffsetMap} {ts ts' : List Token}

/-! ## Parameters and annotations -/

theorem param {part part' : List Token} (h : TokensMoved g part part') :
    Param.ofTokens? part' = (Param.ofTokens? part).map (Param.mapOffset g) := by
  unfold Param.ofTokens?
  rcases h with _ | ⟨ha, _ | ⟨hb, _ | ⟨hc, _ | ⟨hd, _ | ⟨he, h⟩⟩⟩⟩⟩
  · rfl
  · rename_i a a'
    by_cases hk : a.kind = .identifier
    · simp [hk, ha.kind_eq, ha.lexeme_eq, ha.span_eq, Param.mapOffset]
    · simp [hk, ha.kind_eq]
  · rfl
  · rename_i a a' b b' c c'
    by_cases hk : a.kind = .identifier ∧ b.kind = .colon ∧ c.kind = .identifier
    · simp [hk, ha.kind_eq, hb.kind_eq, hc.kind_eq, ha.lexeme_eq, hc.lexeme_eq, ha.span_eq,
        hc.span_eq, Param.mapOffset, TypeRef.mapOffset, Span.mapOffset_merge]
    · simp [hk, ha.kind_eq, hb.kind_eq, hc.kind_eq]
  · rename_i a a' b b' c c' d d'
    by_cases hk : a.kind = .identifier ∧ b.kind = .colon ∧ c.kind = .identifier ∧
        d.kind = .question
    · simp [hk, ha.kind_eq, hb.kind_eq, hc.kind_eq, hd.kind_eq, ha.lexeme_eq, hc.lexeme_eq,
        ha.span_eq, hc.span_eq, hd.span_eq, Param.mapOffset, TypeRef.mapOffset,
        Span.mapOffset_merge]
    · simp [hk, ha.kind_eq, hb.kind_eq, hc.kind_eq, hd.kind_eq]
  · rfl

theorem params (h : TokensMoved g ts ts') (opener closer : Nat) :
    params ts' opener closer = (params ts opener closer).map (Param.mapOffset g) := by
  rw [AuroraLint.params, AuroraLint.params, List.map_filterMap, h.splitArguments]
  simp only [(h.extentTokens _).param]

theorem typeRefAt (h : TokensMoved g ts ts') (p : Nat) :
    typeRefAt ts' p = ((typeRefAt ts p).1.map (TypeRef.mapOffset g), (typeRefAt ts p).2) := by
  simp only [AuroraLint.typeRefAt, h.kindAt]
  split
  · rename_i hid
    rw [h.lexeme hid (by decide)]
    split <;> simp [TypeRef.mapOffset, h.span]
  · rfl

theorem annotationAt (h : TokensMoved g ts ts') (mark : Kind) (p : Nat) :
    annotationAt mark ts' p =
      ((annotationAt mark ts p).1.map (TypeRef.mapOffset g), (annotationAt mark ts p).2) := by
  simp only [AuroraLint.annotationAt, h.kindAt]
  split
  · exact h.typeRefAt (p + 1)
  · rfl

theorem bodyAfter (h : TokensMoved g ts ts') (last : Nat) :
    bodyAfter ts' last = bodyAfter ts last := by
  rw [AuroraLint.bodyAfter, AuroraLint.bodyAfter, h.kindAt]

/-! ## Functions -/

theorem signature (h : TokensMoved g ts ts') (hts : EndsInEof ts) (keyword opener : Nat)
    (name : String) (nameSpan : Span) :
    (Reading.signature keyword name (nameSpan.mapOffset g) ⟨ts', opener⟩).1 =
      (Reading.signature keyword name nameSpan ⟨ts, opener⟩).1.map (FnHeader.mapOffset g) := by
  have hkind := h.kindAt opener
  have hcall := h.callClose opener
  by_cases hopen : AuroraLint.kindAt ts opener = .leftParen
  · cases hclose : AuroraLint.callClose ts opener with
    | none =>
      rw [Reading.signature_unclosed hopen hclose,
        Reading.signature_unclosed (hkind.trans hopen) (hcall.trans hclose)]
      rfl
    | some closer =>
      rw [Reading.signature_closed hts hopen hclose,
        Reading.signature_closed (h.endsInEof hts) (hkind.trans hopen) (hcall.trans hclose)]
      simp [h.annotationAt, h.params, h.bodyAfter, h.merge, FnHeader.mapOffset]
  · rw [Reading.signature_of_ne hopen, Reading.signature_of_ne (by rw [hkind]; exact hopen)]
    rfl

/-- The headers of `fn` and `extern`. -/
theorem named (h : TokensMoved g ts ts') (hts : EndsInEof ts) (word : Kind) (hword : word ≠ .eof)
    (i : Nat) :
    let header : Reading FnHeader := do
      let c ← Reading.cursor
      let _ ← Reading.expect word
      let name ← Reading.expect .identifier
      Reading.signature c.pos name.lexeme name.span
    (header ⟨ts', i⟩).1 = (header ⟨ts, i⟩).1.map (FnHeader.mapOffset g) := by
  intro header
  simp only [header, Reading.cursor_bind]
  by_cases hw : AuroraLint.kindAt ts i = word
  · rw [Reading.bind_of_some (Reading.expect_of_eq hw hword),
      Reading.bind_of_some (Reading.expect_of_eq ((h.kindAt i).trans hw) hword)]
    by_cases hn : AuroraLint.kindAt ts (i + 1) = .identifier
    · rw [Reading.bind_of_some (Reading.expect_of_eq hn (by decide)),
        Reading.bind_of_some (Reading.expect_of_eq ((h.kindAt _).trans hn) (by decide)),
        h.lexeme hn (by decide), h.span]
      exact h.signature hts ..
    · rw [Reading.bind_of_none (Reading.expect_of_ne hn),
        Reading.bind_of_none (Reading.expect_of_ne (by rw [h.kindAt]; exact hn))]
      rfl
  · rw [Reading.bind_of_none (Reading.expect_of_ne hw),
      Reading.bind_of_none (Reading.expect_of_ne (by rw [h.kindAt]; exact hw))]
    rfl

theorem fnHeaderAt (h : TokensMoved g ts ts') (hts : EndsInEof ts) (i : Nat) :
    fnHeaderAt ts' i = (fnHeaderAt ts i).map (FnHeader.mapOffset g) :=
  h.named hts .kwFn (by decide) i

theorem externHeaderAt (h : TokensMoved g ts ts') (hts : EndsInEof ts) (i : Nat) :
    externHeaderAt ts' i = (externHeaderAt ts i).map (FnHeader.mapOffset g) :=
  h.named hts .kwExtern (by decide) i

theorem constructorHeaderAt (h : TokensMoved g ts ts') (hts : EndsInEof ts) (i : Nat) :
    constructorHeaderAt ts' i = (constructorHeaderAt ts i).map (FnHeader.mapOffset g) := by
  unfold AuroraLint.constructorHeaderAt Reading.constructorHeader
  rw [Reading.cursor_bind, Reading.cursor_bind]
  by_cases hw : AuroraLint.kindAt ts i = .kwConstructor
  · rw [Reading.bind_of_some (Reading.expect_of_eq hw (by decide)),
      Reading.bind_of_some (Reading.expect_of_eq ((h.kindAt i).trans hw) (by decide)), h.span]
    exact h.signature hts ..
  · rw [Reading.bind_of_none (Reading.expect_of_ne hw),
      Reading.bind_of_none (Reading.expect_of_ne (by rw [h.kindAt]; exact hw))]
    rfl

/-! ## Classes and variables -/

theorem listEnd (h : TokensMoved g ts ts') (p : Nat) : listEnd ts' p = listEnd ts p := by
  rw [AuroraLint.listEnd, AuroraLint.listEnd, h.kindAt, h.callClose]

theorem classHeaderAt (h : TokensMoved g ts ts') (hts : EndsInEof ts) (i : Nat) :
    classHeaderAt ts' i = (classHeaderAt ts i).map (ClassHeader.mapOffset g) := by
  unfold AuroraLint.classHeaderAt
  by_cases hw : AuroraLint.kindAt ts i = .kwClass
  · by_cases hn : AuroraLint.kindAt ts (i + 1) = .identifier
    · rw [Reading.classHeader_of_name hts hw hn, Reading.classHeader_of_name (h.endsInEof hts)
        ((h.kindAt _).trans hw) ((h.kindAt _).trans hn)]
      simp [h.listEnd, h.bodyAfter, h.span, h.lexeme hn, ClassHeader.mapOffset]
    · unfold Reading.classHeader
      rw [Reading.cursor_bind, Reading.cursor_bind,
        Reading.bind_of_some (Reading.expect_of_eq hw (by decide)),
        Reading.bind_of_some (Reading.expect_of_eq ((h.kindAt i).trans hw) (by decide)),
        Reading.bind_of_none (Reading.expect_of_ne hn),
        Reading.bind_of_none (Reading.expect_of_ne (by rw [h.kindAt]; exact hn))]
      rfl
  · unfold Reading.classHeader
    rw [Reading.cursor_bind, Reading.cursor_bind, Reading.bind_of_none (Reading.expect_of_ne hw),
      Reading.bind_of_none (Reading.expect_of_ne (by rw [h.kindAt]; exact hw))]
    rfl

theorem initAt (h : TokensMoved g ts ts') (p : Nat) : initAt ts' p = initAt ts p := by
  rw [AuroraLint.initAt, AuroraLint.initAt, h.kindAt, h.expressionEnd]

/-- The reading of a variable ends at the same token, whether it succeeds or not. -/
theorem varDecl (h : TokensMoved g ts ts') (hts : EndsInEof ts) (i : Nat) :
    Reading.varDecl ⟨ts', i⟩ =
      ((Reading.varDecl ⟨ts, i⟩).1.map (VarDecl.mapOffset g),
        ⟨ts', (Reading.varDecl ⟨ts, i⟩).2.pos⟩) := by
  by_cases hw : ∃ m, AuroraLint.kindAt ts i = binderWord m
  · obtain ⟨m, hw⟩ := hw
    have hw' := (h.kindAt i).trans hw
    by_cases hn : AuroraLint.kindAt ts (i + 1) = .identifier
    · rw [Reading.varDecl_of_name hts hw hn,
        Reading.varDecl_of_name (h.endsInEof hts) hw' ((h.kindAt _).trans hn)]
      simp [h.annotationAt, h.initAt, h.span, h.lexeme hn, VarDecl.mapOffset]
    · unfold Reading.varDecl
      rw [Reading.cursor_bind, Reading.cursor_bind,
        Reading.bind_of_some (Reading.binder_of_word hw),
        Reading.bind_of_some (Reading.binder_of_word hw'),
        Reading.bind_of_none (Reading.expect_of_ne hn),
        Reading.bind_of_none (Reading.expect_of_ne (by rw [h.kindAt]; exact hn))]
      rfl
  · unfold Reading.varDecl
    rw [Reading.cursor_bind, Reading.cursor_bind,
      Reading.bind_of_none (Reading.binder_of_ne fun m hm => hw ⟨m, hm⟩),
      Reading.bind_of_none
        (Reading.binder_of_ne fun m hm => hw ⟨m, by rw [← h.kindAt]; exact hm⟩)]
    rfl

theorem varDeclAt (h : TokensMoved g ts ts') (hts : EndsInEof ts) (i : Nat) :
    varDeclAt ts' i = (varDeclAt ts i).map (VarDecl.mapOffset g) :=
  congrArg Prod.fst (h.varDecl hts i)

end TokensMoved

end AuroraLint
