import AuroraLint.Analysis
import AuroraLint.Proofs.Moved.Resolve

/-!
# The passes at other byte offsets

Every pass over a moved document finds the moved diagnostics: byte offsets are compared, never
shown in a message, and what a string literal holds is not looked at.

* `Brackets.Opener.Moved` : the same open bracket at its new offsets.

Main statements: `TokensMoved.brackets`, `Document.Moved.returns` and `Document.Moved.style`; the
symbol table and the walk have theirs in `TokensMoved.collect` and `Document.Moved.resolve`.
`Document.Moved.diagnostics` puts them together.
-/

set_option autoImplicit false

namespace AuroraLint

/-! ## Brackets -/

namespace Brackets

/-- The same open bracket at its new offsets. -/
structure Opener.Moved (g : OffsetMap) (o o' : Opener) : Prop where
  token : o.token.Moved g o'.token
  shape_eq : o'.shape = o.shape

variable {g : OffsetMap}

theorem verdictsFrom_moved {ts ts' : List Token} (h : TokensMoved g ts ts')
    {waiting waiting' : List Opener} (hw : List.Forall₂ (Opener.Moved g) waiting waiting')
    (i : Nat) :
    List.Forall₂ (fun v v' => v'.diagnostic? = v.diagnostic?.map (Diagnostic.mapOffset g))
      (verdictsFrom waiting (ts.zipIdx i)) (verdictsFrom waiting' (ts'.zipIdx i)) := by
  induction h generalizing waiting waiting' i with
  | nil =>
    simp only [List.zipIdx_nil, verdictsFrom, List.forall₂_map_left_iff, List.forall₂_map_right_iff,
      List.forall₂_reverse_iff]
    refine hw.imp fun o o' ho => ?_
    simp [Verdict.diagnostic?, ho.shape_eq, ho.token.span_eq]
  | @cons t t' _ _ ht _ ih =>
    simp only [List.zipIdx_cons, verdictsFrom, ht.kind_eq]
    cases t.kind.opens? with
    | some shape =>
      have ho : Opener.Moved g ⟨i, t, shape⟩ ⟨i, t', shape⟩ := ⟨ht, rfl⟩
      exact ih (.cons ho hw) _
    | none =>
      cases t.kind.closes? with
      | none => exact ih hw _
      | some shape =>
        cases hw with
        | nil => exact .cons (by simp [Verdict.diagnostic?, ht.span_eq]) (ih .nil _)
        | cons ho hos =>
          refine .cons ?_ (ih hos _)
          rw [ho.shape_eq]
          split
          · rfl
          · simp [Verdict.diagnostic?, ho.shape_eq, ho.token.line_eq, ho.token.span_eq, ht.span_eq]

end Brackets

/-- **The bracket errors of moved tokens.** -/
theorem TokensMoved.brackets {g : OffsetMap} {ts ts' : List Token} (h : TokensMoved g ts ts') :
    Brackets.check ts' = (Brackets.check ts).map (Diagnostic.mapOffset g) :=
  filterMap_of_forall₂ (Brackets.verdictsFrom_moved h .nil 0)

namespace Document.Moved

variable {g : OffsetMap} {doc doc' : Document}

theorem toLineEnd (h : doc.Moved g doc') (p : Position) :
    doc'.source.toLineEnd (p.mapOffset g) = (doc.source.toLineEnd p).mapOffset g := by
  rw [Source.toLineEnd, show (p.mapOffset g).line = p.line from rfl, h.lineEnd_eq, Source.span,
    h.name_eq]
  rfl

/-! ## Returns -/

theorem checkReturn (h : doc.Moved g doc') (name : String) (returnType : Ty) (i : Nat) :
    Returns.checkReturn doc' name returnType i =
      (Returns.checkReturn doc name returnType i).map (Diagnostic.mapOffset g) := by
  have hvalue : Returns.hasValue doc' i = Returns.hasValue doc i := by
    rw [Returns.hasValue, Returns.hasValue, h.tokens.endsLine, h.kind]
  unfold Returns.checkReturn
  rw [hvalue, h.span]
  split
  · simp [h.toLineEnd]
  · rfl
  · rfl

theorem checkFunction (h : doc.Moved g doc') (header : FnHeader) (body : Nat) :
    Returns.checkFunction doc' (header.mapOffset g) body =
      (Returns.checkFunction doc header body).map (Diagnostic.mapOffset g) := by
  have hname : (header.mapOffset g).name = header.name := rfl
  have hreturn : TypeRef.typeOr (header.mapOffset g).returnType .void =
      TypeRef.typeOr header.returnType .void := TypeRef.typeOr_mapOffset ..
  have hreturns : ∀ closer,
      Returns.returnsBetween doc' body closer = Returns.returnsBetween doc body closer := by
    intro closer
    simp only [Returns.returnsBetween, h.kind]
  simp only [Returns.checkFunction, h.tokens.blockEnd, hreturns, hreturn, hname, List.map_append,
    List.map_filterMap, h.checkReturn]
  split <;> rfl

/-- **The return errors of a moved document.** -/
theorem returns (h : doc.Moved g doc') :
    Returns.check doc' = (Returns.check doc).map (Diagnostic.mapOffset g) := by
  have hat : Returns.checkAt doc' = fun i =>
      (Returns.checkAt doc i).map (Diagnostic.mapOffset g) := by
    funext i
    unfold Returns.checkAt
    rw [h.tokens.fnHeaderAt h.endsInEof]
    cases fnHeaderAt doc.tokens i with
    | none => rfl
    | some header =>
      have hbody : (header.mapOffset g).body = header.body := rfl
      simp only [Option.map_some, hbody]
      cases header.body with
      | none => rfl
      | some body => exact h.checkFunction header body
  rw [Returns.check, Returns.check, List.map_flatMap, h.tokens.length_eq, hat]

/-! ## Style -/

theorem linesFrom {ts ts' : List Token} (h : TokensMoved g ts ts') (start line i : Nat) :
    Style.linesFrom start line i ts' = Style.linesFrom start line i ts := by
  induction h generalizing start line i with
  | nil => rfl
  | cons ht _ ih => simp only [Style.linesFrom, ht.kind_eq, ht.line_eq, ih]

theorem tokenLines {ts ts' : List Token} (h : TokensMoved g ts ts') :
    Style.tokenLines ts' = Style.tokenLines ts := by
  cases h with
  | nil => rfl
  | cons ht hrest =>
    simp only [Style.tokenLines, ht.line_eq]
    exact linesFrom (.cons ht hrest) ..

theorem checkMissingBrace (h : doc.Moved g doc') (line : Extent) :
    Style.checkMissingBrace doc' line =
      (Style.checkMissingBrace doc line).map (Diagnostic.mapOffset g) := by
  have hheader : ∀ i, Style.headerAt doc'.tokens i = Style.headerAt doc.tokens i := by
    intro i
    unfold Style.headerAt
    rw [h.tokens.kindAt, h.tokens.fnHeaderAt h.endsInEof,
      h.tokens.constructorHeaderAt h.endsInEof, h.tokens.classHeaderAt h.endsInEof, Option.map_map,
      Option.map_map, Option.map_map]
    rfl
  have hline : (doc'.token line.start).line = (doc.token line.start).line := h.tokens.line _
  unfold Style.checkMissingBrace
  rw [hheader, hline, h.lineSpan_eq]
  split
  · split <;> rfl
  · rfl

theorem checkSnakeCase (h : doc.Moved g doc') (line : Extent) :
    Style.checkSnakeCase doc' line =
      (Style.checkSnakeCase doc line).map (Diagnostic.mapOffset g) := by
  refine filterMap_of_forall₂ ((h.tokens.extentTokens line).imp fun t t' ht => ?_)
  rw [ht.kind_eq, ht.span_eq]
  by_cases hid : t.kind = .identifier
  · rw [ht.lexeme_eq (by rw [hid]; decide)]
    split <;> rfl
  · simp [hid]

theorem checkSemicolon (h : doc.Moved g doc') (line : Extent) :
    Style.checkSemicolon doc' line =
      (Style.checkSemicolon doc line).map (Diagnostic.mapOffset g) := by
  have hlast : (doc'.token (line.stop - 1)).kind = (doc.token (line.stop - 1)).kind :=
    h.kind (line.stop - 1)
  simp only [Style.checkSemicolon, h.span, h.kind, hlast]
  split <;> rfl

theorem trackLine {ts ts' : List Token} (h : TokensMoved g ts ts') (c : Style.ClassTracker) :
    c.line ts' = c.line ts := by
  have hcount : ∀ c : Style.ClassTracker, ts'.foldl Style.ClassTracker.count c =
      ts.foldl Style.ClassTracker.count c := by
    induction h with
    | nil => exact fun _ => rfl
    | cons ht _ ih =>
      intro c
      rw [List.foldl_cons, List.foldl_cons, ih]
      simp only [Style.ClassTracker.count, ht.kind_eq]
  simp only [Style.ClassTracker.line, h.kindAt, hcount]

theorem isMemberStart {t t' : Token} (h : t.Moved g t') :
    Style.isMemberStart t' = Style.isMemberStart t := by
  unfold Style.isMemberStart
  rw [h.kind_eq]
  split
  · rfl
  · rfl
  · rfl
  · rfl
  · rename_i hid
    rw [h.lexeme_eq (by rw [hid]; decide)]
  · rfl

theorem checkPub (h : doc.Moved g doc') (tracker : Style.ClassTracker) (lines : List Extent) :
    Style.checkPub doc' tracker lines =
      (Style.checkPub doc tracker lines).map (Diagnostic.mapOffset g) := by
  induction lines generalizing tracker with
  | nil => rfl
  | cons line lines ih =>
    have hts := h.tokens.extentTokens line
    simp only [Style.checkPub, trackLine hts, hts.kindAt, hts.span, isMemberStart (hts.tokenAt 1),
      ih, List.map_append]
    split <;> rfl

/-- **The style findings of a moved document.** -/
theorem style (h : doc.Moved g doc') (hints : Bool) :
    Style.check doc' hints = (Style.check doc hints).map (Diagnostic.mapOffset g) := by
  have hline : Style.checkLine doc' hints = fun line =>
      (Style.checkLine doc hints line).map (Diagnostic.mapOffset g) := by
    funext line
    simp only [Style.checkLine, h.checkMissingBrace, h.checkSnakeCase, h.checkSemicolon]
    cases hints <;> simp
  simp only [Style.check, tokenLines h.tokens, hline, List.map_append, List.map_flatMap, h.checkPub]
  cases hints <;> rfl

/-! ## Reports -/

/-- **The diagnostics of a moved document.** -/
theorem diagnostics {uri text text' : String}
    (h : (Document.ofText uri text).Moved g (.ofText uri text'))
    (hscan : Lexer.ScanMoved g uri text text') (hints : Bool) :
    (analyze uri text' hints).diagnostics =
      (analyze uri text hints).diagnostics.map (Diagnostic.mapOffset g) := by
  obtain ⟨hsymbols, hcollected⟩ := h.tokens.collect h.endsInEof
  simp only [analyze, List.map_append, hscan.errors, h.tokens.brackets, hcollected,
    h.resolve hsymbols, h.returns, h.style hints]

end Document.Moved

end AuroraLint
