import AuroraLint.Diagnostic
import AuroraLint.Proofs.Extent
import AuroraLint.Token.Lexer
import Mathlib.Data.List.Forall2

/-!
# Tokens at other byte offsets

Two token lists that differ in byte offsets, and in what their string literals hold, but in
nothing else.

* `OffsetMap`   : a change of byte offsets that keeps their order.
* `mapOffset`   : a position, span or diagnostic at its new offsets.
* `TokensMoved` : the same tokens at their new offsets, string literals spelled anyhow.
* `Lexer.ScanMoved` : two texts whose tokens and lexical errors are the same at their new offsets.

Main statements: a merged span moves with its parts (`Span.mapOffset_merge`), and calls, arguments,
expressions and blocks of moved tokens have the same extents (`TokensMoved.callClose` and its
likes).
-/

set_option autoImplicit false

namespace AuroraLint

/-! ## Offsets -/

/-- A change of byte offsets that keeps their order and the start of the document. -/
structure OffsetMap where
  toFun : Nat → Nat
  le_iff : ∀ a b, toFun a ≤ toFun b ↔ a ≤ b
  map_zero : toFun 0 = 0

instance : CoeFun OffsetMap fun _ => Nat → Nat := ⟨OffsetMap.toFun⟩

/-- The same line and column at another offset. -/
def Position.mapOffset (f : Nat → Nat) (p : Position) : Position :=
  ⟨p.line, p.column, f p.offset⟩

/-- The span with both its ends at other offsets. -/
def Span.mapOffset (f : Nat → Nat) (s : Span) : Span :=
  ⟨s.file, s.start.mapOffset f, s.stop.mapOffset f⟩

/-- The related place at other offsets. -/
def Related.mapOffset (f : Nat → Nat) (r : Related) : Related :=
  ⟨r.span.mapOffset f, r.message⟩

namespace Span

@[simp] theorem mapOffset_start (f : Nat → Nat) (s : Span) :
    (s.mapOffset f).start = s.start.mapOffset f := rfl

@[simp] theorem mapOffset_line (f : Nat → Nat) (s : Span) : (s.mapOffset f).line = s.line := rfl

@[simp] theorem mapOffset_nowhere (g : OffsetMap) : nowhere.mapOffset g = nowhere := by
  simp [mapOffset, Position.mapOffset, nowhere, Position.nowhere, g.map_zero]

/-- **A merged span moves with its parts**: which of two offsets comes first stays. -/
@[simp] theorem mapOffset_merge (g : OffsetMap) (a b : Span) :
    (a.merge b).mapOffset g = (a.mapOffset g).merge (b.mapOffset g) := by
  simp only [mapOffset, merge, Position.mapOffset, g.le_iff]
  congr 1 <;> split <;> rfl

end Span

namespace Diagnostic

/-- The diagnostic with all its places at other offsets. -/
def mapOffset (f : Nat → Nat) (d : Diagnostic) : Diagnostic :=
  { d with span := d.span.map (Span.mapOffset f), related := d.related.map (Related.mapOffset f) }

/-- The diagnostic with nothing but file, line and column left of its places. -/
def forgetOffsets (d : Diagnostic) : Diagnostic :=
  d.mapOffset fun _ => 0

section

variable (f : Nat → Nat) (message : String) (span : Span)

@[simp] theorem mapOffset_error :
    (error message span).mapOffset f = error message (span.mapOffset f) := rfl

@[simp] theorem mapOffset_withRelated (d : Diagnostic) :
    (d.withRelated span message).mapOffset f =
      (d.mapOffset f).withRelated (span.mapOffset f) message := by
  simp [withRelated, mapOffset, Related.mapOffset]

@[simp] theorem mapOffset_withSuggestion (d : Diagnostic) :
    (d.withSuggestion message).mapOffset f = (d.mapOffset f).withSuggestion message := rfl

/-- What is forgotten cannot be told from what was moved. -/
theorem forgetOffsets_mapOffset (d : Diagnostic) :
    (d.mapOffset f).forgetOffsets = d.forgetOffsets := by
  simp only [forgetOffsets, mapOffset, Option.map_map, List.map_map]
  rfl

theorem map_forgetOffsets (ds : List Diagnostic) :
    (ds.map (mapOffset f)).map forgetOffsets = ds.map forgetOffsets := by
  rw [List.map_map]
  exact List.map_congr_left fun d _ => d.forgetOffsets_mapOffset f

end

end Diagnostic

/-- What related things contribute to a report, one by one. -/
theorem filterMap_of_forall₂ {α : Type} {f : Nat → Nat} {report : α → Option Diagnostic}
    {xs ys : List α}
    (h : List.Forall₂ (fun x y => report y = (report x).map (Diagnostic.mapOffset f)) xs ys) :
    ys.filterMap report = (xs.filterMap report).map (Diagnostic.mapOffset f) := by
  induction h with
  | nil => rfl
  | cons hxy _ ih =>
    rw [List.filterMap_cons, List.filterMap_cons, hxy, ih]
    split <;> split <;> simp_all

/-! ## Tokens -/

/-- The token `t'` is `t` at its new offsets; a string literal may be spelled another way. -/
structure Token.Moved (g : OffsetMap) (t t' : Token) : Prop where
  kind_eq : t'.kind = t.kind
  lexeme_eq : t.kind ≠ .stringLiteral → t'.lexeme = t.lexeme
  span_eq : t'.span = t.span.mapOffset g

/-- Token by token, the second list is the first at its new offsets. -/
abbrev TokensMoved (g : OffsetMap) : List Token → List Token → Prop :=
  List.Forall₂ (Token.Moved g)

theorem Token.Moved.line_eq {g : OffsetMap} {t t' : Token} (h : t.Moved g t') :
    t'.line = t.line := by
  rw [Token.line, h.span_eq]
  rfl

namespace TokensMoved

variable {g : OffsetMap} {ts ts' : List Token}

theorem tokenAt (h : TokensMoved g ts ts') (i : Nat) :
    (tokenAt ts i).Moved g (tokenAt ts' i) := by
  induction h generalizing i with
  | nil => exact ⟨rfl, fun _ => rfl, (Span.mapOffset_nowhere g).symm⟩
  | cons ht _ ih =>
    cases i with
    | zero => exact ht
    | succ i => exact ih i

theorem kindAt (h : TokensMoved g ts ts') (i : Nat) : kindAt ts' i = kindAt ts i :=
  (h.tokenAt i).kind_eq

theorem line (h : TokensMoved g ts ts') (i : Nat) :
    (AuroraLint.tokenAt ts' i).line = (AuroraLint.tokenAt ts i).line :=
  (h.tokenAt i).line_eq

theorem span (h : TokensMoved g ts ts') (i : Nat) :
    (AuroraLint.tokenAt ts' i).span = (AuroraLint.tokenAt ts i).span.mapOffset g :=
  (h.tokenAt i).span_eq

/-- The lexeme of a token that is known to be no string literal. -/
theorem lexeme (h : TokensMoved g ts ts') {i : Nat} {k : Kind} (hk : AuroraLint.kindAt ts i = k)
    (hne : k ≠ .stringLiteral) :
    (AuroraLint.tokenAt ts' i).lexeme = (AuroraLint.tokenAt ts i).lexeme :=
  (h.tokenAt i).lexeme_eq (by rw [show (AuroraLint.tokenAt ts i).kind = k from hk]; exact hne)

theorem merge (h : TokensMoved g ts ts') (i j : Nat) :
    (AuroraLint.tokenAt ts' i).span.merge (AuroraLint.tokenAt ts' j).span =
      ((AuroraLint.tokenAt ts i).span.merge (AuroraLint.tokenAt ts j).span).mapOffset g := by
  rw [h.span i, h.span j, Span.mapOffset_merge]

theorem kinds (h : TokensMoved g ts ts') : ts'.map Token.kind = ts.map Token.kind := by
  induction h with
  | nil => rfl
  | cons ht _ ih => rw [List.map_cons, List.map_cons, ht.kind_eq, ih]

theorem endsInEof (h : TokensMoved g ts ts') (hts : EndsInEof ts) : EndsInEof ts' := by
  obtain ⟨init, last, rfl, hlast, hinit⟩ := hts
  have hkinds := h.kinds
  rw [List.map_append] at hkinds
  obtain ⟨init', rest', rfl, hi, hr⟩ := List.map_eq_append_iff.mp hkinds
  obtain ⟨last', rfl, hl⟩ := List.map_eq_singleton_iff.mp hr
  refine ⟨init', last', rfl, hl.trans hlast, ?_⟩
  intro t ht
  obtain ⟨t₀, ht₀, hk⟩ := List.mem_map.mp (hi ▸ List.mem_map_of_mem ht)
  rw [← hk]
  exact hinit t₀ ht₀

/-! ## Extents -/

theorem extentTokens (h : TokensMoved g ts ts') (e : Extent) :
    TokensMoved g (e.tokens ts) (e.tokens ts') :=
  List.forall₂_take _ (List.forall₂_drop _ h)

theorem extentSpan (h : TokensMoved g ts ts') (e : Extent) :
    e.span ts' = (e.span ts).mapOffset g :=
  h.merge ..

theorem closeFrom (h : TokensMoved g ts ts') (depth i : Nat) :
    closeFrom depth i ts' = closeFrom depth i ts := by
  induction h generalizing depth i with
  | nil => rfl
  | cons ht _ ih => simp only [AuroraLint.closeFrom, ht.kind_eq, ih]

theorem callClose (h : TokensMoved g ts ts') (opener : Nat) :
    callClose ts' opener = callClose ts opener :=
  closeFrom (List.forall₂_drop opener h) 0 opener

theorem splitFrom (h : TokensMoved g ts ts') (depth start i : Nat) :
    splitFrom depth start i ts' = splitFrom depth start i ts := by
  induction h generalizing depth start i with
  | nil => rfl
  | cons ht _ ih => simp only [AuroraLint.splitFrom, ht.kind_eq, ih]

theorem splitArguments (h : TokensMoved g ts ts') (opener closer : Nat) :
    splitArguments ts' opener closer = splitArguments ts opener closer :=
  splitFrom (List.forall₂_take _ (List.forall₂_drop _ h)) 0 _ _

theorem expressionFrom (h : TokensMoved g ts ts') (depth lastLine i : Nat) :
    expressionFrom depth lastLine i ts' = expressionFrom depth lastLine i ts := by
  induction h generalizing depth lastLine i with
  | nil => rfl
  | cons ht _ ih => simp only [AuroraLint.expressionFrom, ht.kind_eq, ht.line_eq, ih]

theorem expressionEnd (h : TokensMoved g ts ts') (start : Nat) :
    expressionEnd ts' start = expressionEnd ts start := by
  have hd := List.forall₂_drop start h
  unfold AuroraLint.expressionEnd
  generalize ts.drop start = rest at hd
  generalize ts'.drop start = rest' at hd
  cases hd with
  | nil => rfl
  | cons ht hrest =>
    simp only [ht.line_eq]
    exact expressionFrom (.cons ht hrest) 0 _ start

theorem blockFrom (h : TokensMoved g ts ts') (depth i : Nat) :
    blockFrom depth i ts' = blockFrom depth i ts := by
  induction h generalizing depth i with
  | nil => rfl
  | cons ht _ ih => simp only [AuroraLint.blockFrom, ht.kind_eq, ih]

theorem blockEnd (h : TokensMoved g ts ts') (opener : Nat) :
    blockEnd ts' opener = blockEnd ts opener := by
  rw [AuroraLint.blockEnd, AuroraLint.blockEnd, blockFrom (List.forall₂_drop opener h), h.length_eq]

theorem startsLine (h : TokensMoved g ts ts') (i : Nat) : startsLine ts' i = startsLine ts i := by
  rw [AuroraLint.startsLine, AuroraLint.startsLine, h.line, h.line]

theorem endsLine (h : TokensMoved g ts ts') (i : Nat) : endsLine ts' i = endsLine ts i := by
  unfold AuroraLint.endsLine
  by_cases hi : i + 1 < ts.length
  · rw [getElem?_eq_tokenAt hi, getElem?_eq_tokenAt (h.length_eq ▸ hi)]
    simp only [h.line, (h.tokenAt (i + 1)).kind_eq]
  · have hlen := h.length_eq
    rw [List.getElem?_eq_none (show ts'.length ≤ i + 1 by omega),
      List.getElem?_eq_none (show ts.length ≤ i + 1 by omega)]

end TokensMoved

/-! ## Scans -/

namespace Lexer

/-- The token `s'` is `s` at its new offsets, and is finished if `s` is. -/
structure Scanned.Moved (g : OffsetMap) (s s' : Scanned) : Prop where
  token : s.token.Moved g s'.token
  terminated_eq : s'.terminated = s.terminated

/-- Token by token, the scan of the second text is that of the first at its new offsets. -/
abbrev ScanMoved (g : OffsetMap) (uri text text' : String) : Prop :=
  List.Forall₂ (Scanned.Moved g) (scan (.ofText uri text.toList)) (scan (.ofText uri text'.toList))

namespace ScanMoved

variable {g : OffsetMap} {uri text text' : String}

theorem tokens (h : ScanMoved g uri text text') :
    TokensMoved g (tokenize uri text).1 (tokenize uri text').1 :=
  List.forall₂_map_left_iff.mpr (List.forall₂_map_right_iff.mpr (h.imp fun _ _ hs => hs.token))

/-- **The lexical errors of a moved scan.** -/
theorem errors (h : ScanMoved g uri text text') :
    (tokenize uri text').2 = (tokenize uri text).2.map (Diagnostic.mapOffset g) := by
  refine filterMap_of_forall₂ (h.imp fun s s' hs => ?_)
  simp only [Scanned.diagnostic?, hs.terminated_eq, hs.token.span_eq]
  split <;> rfl

end ScanMoved

end Lexer

end AuroraLint
