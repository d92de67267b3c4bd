import AuroraLint.Proofs.Continued.Basic
import AuroraLint.Proofs.Header
import Mathlib.Data.List.Basic

/-!
# Headers of a document that goes on

The headers that are read in a document are read alike when a declaration is written below it: a
header that the end of the document cuts off is cut off by `extern` too.

Main statements: `Continued.fnHeaderAt`, `Continued.constructorHeaderAt`, `Continued.classHeaderAt`
and `Continued.varDecl`.
-/

set_option autoImplicit false

namespace AuroraLint.Continued

variable {front ts ts' : List Token} {i : Nat}

/-! ## Parameters and annotations -/

theorem params (h : Continued front ts ts') {opener closer : Nat} (hlt : opener < closer)
    (hcloser : closer ≤ front.length) : params ts' opener closer = params ts opener closer := by
  rw [AuroraLint.params, AuroraLint.params, h.splitArguments hcloser]
  refine List.filterMap_congr fun e he => ?_
  have hstop := (mem_splitArguments hlt he).2.2
  rw [h.extentTokens (by omega)]

theorem typeRefAt (h : Continued front ts ts') (hi : i ≤ front.length) :
    typeRefAt ts' i = typeRefAt ts i := by
  simp only [AuroraLint.typeRefAt, h.kindAt_eq_iff hi (k := .identifier) nofun nofun]
  split
  · rename_i hid
    have hlt := h.lt_length hid nofun
    simp only [h.kindAt_eq_iff (i := i + 1) (by omega) (k := .question) nofun nofun, h.tokenAt hlt]
    split
    · rename_i hmark
      rw [h.tokenAt (h.lt_length hmark nofun)]
    · rfl
  · rfl

theorem annotationAt (h : Continued front ts ts') (mark : Kind) (heof : mark ≠ .eof)
    (hword : mark ≠ .kwExtern) (hi : i ≤ front.length) :
    annotationAt mark ts' i = annotationAt mark ts i := by
  simp only [AuroraLint.annotationAt, h.kindAt_eq_iff hi heof hword]
  split
  · rename_i hmark
    have hlt := h.lt_length hmark heof
    exact h.typeRefAt hlt
  · rfl

theorem bodyAfter (h : Continued front ts ts') {last : Nat} (hlast : last < front.length) :
    bodyAfter ts' last = bodyAfter ts last := by
  simp only [AuroraLint.bodyAfter,
    h.kindAt_eq_iff hlast (k := .leftBrace) (by decide) (by decide)]

/-! ## Functions -/

theorem signature (h : Continued front ts ts') {keyword opener : Nat}
    (hkeyword : keyword < front.length) (hopener : opener ≤ front.length) (name : String)
    (nameSpan : Span) :
    (Reading.signature keyword name nameSpan ⟨ts', opener⟩).1 =
      (Reading.signature keyword name nameSpan ⟨ts, opener⟩).1 := by
  have hkind := h.kindAt_eq_iff hopener (k := .leftParen) nofun nofun
  by_cases hopen : AuroraLint.kindAt ts opener = .leftParen
  · have hcall := h.callClose hopen
    cases hclose : AuroraLint.callClose ts opener with
    | none =>
      rw [Reading.signature_unclosed hopen hclose,
        Reading.signature_unclosed (hkind.mpr hopen) (hcall.trans hclose)]
    | some closer =>
      obtain ⟨hcloses, hlt⟩ := callClose_spec hopen hclose
      have hcloser := h.lt_length hcloses nofun
      have hann := annotationAt_bounds h.endsInEof .arrow nofun (p := closer + 1)
        (by rw [h.length_eq]; omega)
      have hlast : (AuroraLint.annotationAt .arrow ts (closer + 1)).2 - 1 < front.length := by
        rw [h.length_eq] at hann
        omega
      rw [Reading.signature_closed h.endsInEof hopen hclose,
        Reading.signature_closed h.endsInEof' (hkind.mpr hopen) (hcall.trans hclose)]
      simp only [h.annotationAt .arrow nofun nofun hcloser, h.params hlt (Nat.le_of_lt hcloser),
        h.bodyAfter hlast, h.tokenAt hkeyword, h.tokenAt hlast]
  · rw [Reading.signature_of_ne hopen, Reading.signature_of_ne (hopen ∘ hkind.mp)]

/-- The headers of `fn` and `extern`. -/
theorem named (h : Continued front ts ts') (word : Kind) (hword : word ≠ .eof)
    (hi : i < front.length) :
    let header : Reading FnHeader := do
      let c ← Reading.cursor
      let _ ← Reading.expect word
      let name ← Reading.expect .identifier
      Reading.signature c.pos name.lexeme name.span
    (header ⟨ts', i⟩).1 = (header ⟨ts, i⟩).1 := by
  intro header
  simp only [header, Reading.cursor_bind]
  by_cases hw : AuroraLint.kindAt ts i = word
  · rw [Reading.bind_of_some (Reading.expect_of_eq hw hword),
      Reading.bind_of_some (Reading.expect_of_eq ((h.kindAt hi).trans hw) hword)]
    have hname := h.kindAt_eq_iff (i := i + 1) hi (k := .identifier) nofun nofun
    by_cases hn : AuroraLint.kindAt ts (i + 1) = .identifier
    · have hlt := h.lt_length hn nofun
      rw [Reading.bind_of_some (Reading.expect_of_eq hn nofun),
        Reading.bind_of_some (Reading.expect_of_eq (hname.mpr hn) nofun), h.tokenAt hlt]
      exact h.signature hi hlt ..
    · rw [Reading.bind_of_none (Reading.expect_of_ne hn),
        Reading.bind_of_none (Reading.expect_of_ne (hn ∘ hname.mp))]
  · rw [Reading.bind_of_none (Reading.expect_of_ne hw),
      Reading.bind_of_none (Reading.expect_of_ne (by rw [h.kindAt hi]; exact hw))]

theorem fnHeaderAt (h : Continued front ts ts') (hi : i < front.length) :
    fnHeaderAt ts' i = fnHeaderAt ts i :=
  h.named .kwFn nofun hi

theorem externHeaderAt (h : Continued front ts ts') (hi : i < front.length) :
    externHeaderAt ts' i = externHeaderAt ts i :=
  h.named .kwExtern nofun hi

theorem constructorHeaderAt (h : Continued front ts ts') (hi : i < front.length) :
    constructorHeaderAt ts' i = constructorHeaderAt ts i := by
  unfold AuroraLint.constructorHeaderAt Reading.constructorHeader
  rw [Reading.cursor_bind, Reading.cursor_bind]
  by_cases hw : AuroraLint.kindAt ts i = .kwConstructor
  · rw [Reading.bind_of_some (Reading.expect_of_eq hw nofun),
      Reading.bind_of_some (Reading.expect_of_eq ((h.kindAt hi).trans hw) nofun), h.tokenAt hi]
    exact h.signature hi hi ..
  · rw [Reading.bind_of_none (Reading.expect_of_ne hw),
      Reading.bind_of_none (Reading.expect_of_ne (by rw [h.kindAt hi]; exact hw))]

/-! ## Classes and variables -/

theorem listEnd (h : Continued front ts ts') (hi : i ≤ front.length) :
    listEnd ts' i = listEnd ts i := by
  simp only [AuroraLint.listEnd, h.kindAt_eq_iff hi (k := .leftParen) nofun nofun]
  split
  · rename_i hopen
    rw [h.callClose hopen]
  · rfl

theorem classHeaderAt (h : Continued front ts ts') (hi : i < front.length) :
    classHeaderAt ts' i = classHeaderAt ts i := by
  unfold AuroraLint.classHeaderAt
  by_cases hw : AuroraLint.kindAt ts i = .kwClass
  · have hname := h.kindAt_eq_iff (i := i + 1) hi (k := .identifier) nofun nofun
    by_cases hn : AuroraLint.kindAt ts (i + 1) = .identifier
    · have hlt := h.lt_length hn nofun
      have hend := listEnd_bounds h.endsInEof (p := i + 2) (by rw [h.length_eq]; omega)
      have hlast : AuroraLint.listEnd ts (i + 2) - 1 < front.length := by
        rw [h.length_eq] at hend
        omega
      rw [Reading.classHeader_of_name h.endsInEof hw hn, Reading.classHeader_of_name h.endsInEof'
        ((h.kindAt hi).trans hw) (hname.mpr hn)]
      simp only [h.listEnd hlt, h.tokenAt hlt, h.bodyAfter hlast]
    · unfold Reading.classHeader
      rw [Reading.cursor_bind, Reading.cursor_bind,
        Reading.bind_of_some (Reading.expect_of_eq hw nofun),
        Reading.bind_of_some (Reading.expect_of_eq ((h.kindAt hi).trans hw) nofun),
        Reading.bind_of_none (Reading.expect_of_ne hn),
        Reading.bind_of_none (Reading.expect_of_ne (hn ∘ hname.mp))]
  · unfold Reading.classHeader
    rw [Reading.cursor_bind, Reading.cursor_bind, Reading.bind_of_none (Reading.expect_of_ne hw),
      Reading.bind_of_none (Reading.expect_of_ne (by rw [h.kindAt hi]; exact hw))]

theorem initAt (h : Continued front ts ts') (hi : i ≤ front.length) :
    initAt ts' i = initAt ts i := by
  simp only [AuroraLint.initAt, h.kindAt_eq_iff hi (k := .equal) nofun nofun]
  split
  · rename_i hequal
    have hlt := h.lt_length hequal nofun
    rw [h.expressionEnd hlt]
  · rfl

/-- The reading of a variable ends at the same token, whether it succeeds or not. -/
theorem varDecl (h : Continued front ts ts') (hi : i < front.length) :
    Reading.varDecl ⟨ts', i⟩ =
      ((Reading.varDecl ⟨ts, i⟩).1, ⟨ts', (Reading.varDecl ⟨ts, i⟩).2.pos⟩) := by
  by_cases hw : ∃ m, AuroraLint.kindAt ts i = binderWord m
  · obtain ⟨m, hw⟩ := hw
    have hw' := (h.kindAt hi).trans hw
    have hname := h.kindAt_eq_iff (i := i + 1) hi (k := .identifier) nofun nofun
    by_cases hn : AuroraLint.kindAt ts (i + 1) = .identifier
    · have hlt := h.lt_length hn nofun
      have hann := annotationAt_bounds h.endsInEof .colon nofun (p := i + 2)
        (by rw [h.length_eq]; omega)
      have hafter : (AuroraLint.annotationAt .colon ts (i + 2)).2 ≤ front.length := by
        rw [h.length_eq] at hann
        omega
      rw [Reading.varDecl_of_name h.endsInEof hw hn,
        Reading.varDecl_of_name h.endsInEof' hw' (hname.mpr hn)]
      simp only [h.annotationAt .colon nofun nofun hlt, h.initAt hafter, h.tokenAt hlt]
    · unfold Reading.varDecl
      rw [Reading.cursor_bind, Reading.cursor_bind,
        Reading.bind_of_some (Reading.binder_of_word hw),
        Reading.bind_of_some (Reading.binder_of_word hw'),
        Reading.bind_of_none (Reading.expect_of_ne hn),
        Reading.bind_of_none (Reading.expect_of_ne (hn ∘ hname.mp))]
  · unfold Reading.varDecl
    rw [Reading.cursor_bind, Reading.cursor_bind,
      Reading.bind_of_none (Reading.binder_of_ne fun m hm => hw ⟨m, hm⟩),
      Reading.bind_of_none
        (Reading.binder_of_ne fun m hm => hw ⟨m, by rw [← h.kindAt hi]; exact hm⟩)]

theorem varDeclAt (h : Continued front ts ts') (hi : i < front.length) :
    varDeclAt ts' i = varDeclAt ts i := by
  rw [AuroraLint.varDeclAt, h.varDecl hi]
  rfl

end AuroraLint.Continued
