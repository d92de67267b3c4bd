import AuroraLint.Proofs.Continued.Basic
import AuroraLint.Proofs.Header
import AuroraLint.Proofs.LineByLine
import Mathlib.Data.List.Basic

/-!
# Documents inside larger ones

The tokens of a document may stand in a larger one, with other tokens above and below them. What is
read from them stays the same, further down, as long as every search is decided among them.

* `Embedded` : the first tokens of a document stand in another one, up to a `}` or the end, and
  every block that opens among them closes among them.
* `FnHeader.down` : a header that is read further down.

Main statements: `Embedded.callClose` and `Embedded.blockEnd` — lists and blocks end at the same
tokens; `Embedded.fnHeaderAt` — the same headers are read.
-/

set_option autoImplicit false

namespace AuroraLint

/-! ## Further down -/

section Down

variable (lines bytes : Nat)

@[simp] theorem Token.down_kind (t : Token) : (t.down lines bytes).kind = t.kind := rfl

@[simp] theorem Token.down_lexeme (t : Token) : (t.down lines bytes).lexeme = t.lexeme := rfl

@[simp] theorem Token.down_span (t : Token) :
    (t.down lines bytes).span = t.span.down lines bytes := rfl

@[simp] theorem Token.down_line (t : Token) : (t.down lines bytes).line = t.line + lines := rfl

/-- A merged span goes down with its parts. -/
@[simp] theorem Span.down_merge (a b : Span) :
    (a.merge b).down lines bytes = (a.down lines bytes).merge (b.down lines bytes) := by
  simp only [down, merge, Position.down, Nat.add_le_add_iff_right]
  congr 1 <;> split <;> rfl

/-- The annotation further down. -/
def TypeRef.down (t : TypeRef) : TypeRef :=
  ⟨t.text, t.span.down lines bytes⟩

/-- The parameter further down. -/
def Param.down (p : Param) : Param :=
  ⟨p.name, p.type.map (TypeRef.down lines bytes), p.span.down lines bytes⟩

/-- The header further down, behind as many tokens as are skipped. -/
def FnHeader.down (skipped : Nat) (h : FnHeader) : FnHeader where
  keyword := skipped + h.keyword
  name := h.name
  nameSpan := h.nameSpan.down lines bytes
  params := h.params.map (Param.down lines bytes)
  returnType := h.returnType.map (TypeRef.down lines bytes)
  last := skipped + h.last
  body := h.body.map (skipped + ·)
  span := h.span.down lines bytes

theorem Param.ofTokens?_down (part : List Token) :
    ofTokens? (part.map (Token.down lines bytes)) =
      (ofTokens? part).map (Param.down lines bytes) := by
  fun_cases ofTokens? part with
  | case1 name hk => simp [ofTokens?, hk, down]
  | case2 name hk => simp [ofTokens?, hk]
  | case3 name colon type hk => simp [ofTokens?, hk, down, TypeRef.down]
  | case4 name colon type hk => simp [ofTokens?, hk]
  | case5 name colon type mark hk => simp [ofTokens?, hk, down, TypeRef.down]
  | case6 name colon type mark hk => simp [ofTokens?, hk]
  | case7 part h1 h3 h4 =>
    rcases part with _ | ⟨a, _ | ⟨b, _ | ⟨c, _ | ⟨d, _ | ⟨e, part⟩⟩⟩⟩⟩
    · rfl
    · exact absurd rfl (h1 a)
    · rfl
    · exact absurd rfl (h3 a b c)
    · exact absurd rfl (h4 a b c d)
    · rfl

/-- The search for a closer looks at kinds alone. -/
theorem closeFrom_down (skipped depth i : Nat) (ts : List Token) :
    closeFrom depth (skipped + i) (ts.map (Token.down lines bytes)) =
      (closeFrom depth i ts).map (skipped + ·) := by
  induction ts generalizing depth i with
  | nil => rfl
  | cons t ts ih =>
    simp only [List.map_cons, closeFrom, Token.down_kind, Nat.add_assoc, ih]
    split
    · rfl
    · split
      · split
        · by_cases hparen : t.kind = .rightParen
          · simp [hparen]
          · simp [hparen]
        · rfl
      · split <;> rfl

/-- The extent behind as many tokens as are skipped. -/
def Extent.shift (skipped : Nat) (e : Extent) : Extent :=
  ⟨skipped + e.start, skipped + e.stop⟩

theorem segment_shift (skipped start stop : Nat) :
    segment (skipped + start) (skipped + stop) =
      (segment start stop).map (Extent.shift skipped) := by
  simp only [segment, Nat.add_lt_add_iff_left]
  split <;> rfl

theorem splitFrom_down (skipped depth start i : Nat) (ts : List Token) :
    splitFrom depth (skipped + start) (skipped + i) (ts.map (Token.down lines bytes)) =
      (splitFrom depth start i ts).map (Extent.shift skipped) := by
  induction ts generalizing depth start i with
  | nil => exact segment_shift skipped start i
  | cons t ts ih =>
    simp only [List.map_cons, splitFrom, Token.down_kind, Nat.add_assoc, ih, segment_shift]
    split
    · rfl
    · split
      · rfl
      · split
        · rw [List.map_append]
        · rfl

theorem blockFrom_down (skipped depth i : Nat) (ts : List Token) :
    blockFrom depth (skipped + i) (ts.map (Token.down lines bytes)) =
      (blockFrom depth i ts).map (skipped + ·) := by
  induction ts generalizing depth i with
  | nil => rfl
  | cons t ts ih =>
    simp only [List.map_cons, blockFrom, Token.down_kind, Nat.add_assoc, ih]
    split
    · rfl
    · split <;> rfl
    · rfl
    · rfl

end Down

/-! ## Searches that are decided -/

/-- No search for a closer goes past a token that breaks lists. -/
theorem closeFrom_of_breaksList {depth i : Nat} {front : List Token} {last : Token}
    (hlast : last.kind.breaksList = true) (tail : List Token) :
    closeFrom depth i (front ++ [last] ++ tail) = closeFrom depth i (front ++ [last]) := by
  induction front generalizing depth i with
  | nil =>
    have hopens : last.kind.opensList = false := by
      cases hk : last.kind <;> simp_all [Kind.breaksList, Kind.opensList]
    have hcloses : last.kind.closesList = false := by
      cases hk : last.kind <;> simp_all [Kind.breaksList, Kind.closesList]
    simp [closeFrom, hopens, hcloses, hlast]
  | cons t front ih =>
    simp only [List.cons_append, closeFrom, ih]

/-! ## A document in a larger one -/

/-- The document `ts` starts with the tokens `part`. In `ts'` they stand further down, behind as
many tokens as are skipped. They end with a `}` or with the end of `ts`, and every block that opens
among them closes among them. -/
structure Embedded (lines bytes skipped : Nat) (part ts ts' : List Token) : Prop where
  endsInEof : EndsInEof ts
  endsInEof' : EndsInEof ts'
  starts : ∃ rest, ts = part ++ rest
  stands : ∃ above rest, ts' = above ++ (part.map (Token.down lines bytes) ++ rest) ∧
    above.length = skipped
  stops : ∃ init last, part = init ++ [last] ∧ (last.kind = .rightBrace ∨ last.kind = .eof)
  closes : ∀ i, kindAt part i = .leftBrace → ∃ c, blockFrom 0 i (part.drop i) = some c

namespace Embedded

variable {lines bytes skipped : Nat} {part ts ts' : List Token} {i : Nat}

/-- What follows an index of the part, in both documents. -/
theorem drop_eq (h : Embedded lines bytes skipped part ts ts') (hi : i ≤ part.length) :
    ∃ rest rest', ts.drop i = part.drop i ++ rest ∧
      ts'.drop (skipped + i) = (part.drop i).map (Token.down lines bytes) ++ rest' := by
  obtain ⟨rest, rfl⟩ := h.starts
  obtain ⟨above, rest', rfl, rfl⟩ := h.stands
  refine ⟨rest, rest', List.drop_append_of_le_length hi, ?_⟩
  rw [List.drop_length_add_append, List.drop_append_of_le_length (by simpa using hi),
    List.map_drop]

theorem tokenAt_part (h : Embedded lines bytes skipped part ts ts') (hi : i < part.length) :
    AuroraLint.tokenAt ts i = AuroraLint.tokenAt part i := by
  obtain ⟨rest, rfl⟩ := h.starts
  simp [AuroraLint.tokenAt, List.getD, List.getElem?_append_left hi]

theorem tokenAt (h : Embedded lines bytes skipped part ts ts') (hi : i < part.length) :
    AuroraLint.tokenAt ts' (skipped + i) = (AuroraLint.tokenAt ts i).down lines bytes := by
  rw [h.tokenAt_part hi]
  obtain ⟨above, rest, rfl, rfl⟩ := h.stands
  simp [AuroraLint.tokenAt, List.getD, List.getElem?_append_right, List.getElem?_append_left, hi]

theorem kindAt (h : Embedded lines bytes skipped part ts ts') (hi : i < part.length) :
    AuroraLint.kindAt ts' (skipped + i) = AuroraLint.kindAt ts i := by
  rw [AuroraLint.kindAt, h.tokenAt hi]
  rfl

/-- Behind a token that cannot end the part stands another one. -/
theorem succ_lt (h : Embedded lines bytes skipped part ts ts') (hi : i < part.length) {k : Kind}
    (hk : AuroraLint.kindAt ts i = k) (hbrace : k ≠ .rightBrace) (heof : k ≠ .eof) :
    i + 1 < part.length := by
  refine Nat.lt_of_le_of_ne hi fun hlen => ?_
  rw [AuroraLint.kindAt, h.tokenAt_part hi] at hk
  obtain ⟨init, last, rfl, hlast⟩ := h.stops
  obtain rfl : i = init.length := by simpa using hlen
  rw [tokenAt_eq_getElem hi, List.getElem_concat_length rfl] at hk
  rcases hlast with hlast | hlast
  · exact hbrace (hk.symm.trans hlast)
  · exact heof (hk.symm.trans hlast)

theorem slice (h : Embedded lines bytes skipped part ts ts') {start stop : Nat}
    (hstart : start ≤ stop) (hstop : stop ≤ part.length) :
    (ts'.drop (skipped + start)).take (stop - start) =
      ((ts.drop start).take (stop - start)).map (Token.down lines bytes) := by
  obtain ⟨rest, rest', hdrop, hdrop'⟩ := h.drop_eq (Nat.le_trans hstart hstop)
  rw [hdrop, hdrop', List.take_append_of_le_length (by simp; omega),
    List.take_append_of_le_length (by simp; omega), List.map_take]

/-! ## Extents -/

/-- **A list closes at the same token**, and within the part. -/
theorem callClose (h : Embedded lines bytes skipped part ts ts') (hi : i < part.length) :
    AuroraLint.callClose ts' (skipped + i) = (AuroraLint.callClose ts i).map (skipped + ·) ∧
      ∀ closer, AuroraLint.callClose ts i = some closer → closer < part.length := by
  obtain ⟨rest, rest', hdrop, hdrop'⟩ := h.drop_eq (Nat.le_of_lt hi)
  obtain ⟨front, last, hpart, hbreaks⟩ : ∃ front last, part.drop i = front ++ [last] ∧
      last.kind.breaksList = true := by
    obtain ⟨init, last, rfl, hlast⟩ := h.stops
    refine ⟨init.drop i, last, List.drop_append_of_le_length ?_, ?_⟩
    · simpa [Nat.lt_succ_iff] using hi
    rcases hlast with hlast | hlast <;> rw [hlast] <;> rfl
  have hts : AuroraLint.callClose ts i = closeFrom 0 i (part.drop i) := by
    rw [AuroraLint.callClose, hdrop, hpart, closeFrom_of_breaksList hbreaks]
  have hts' : AuroraLint.callClose ts' (skipped + i) =
      closeFrom 0 (skipped + i) ((part.drop i).map (Token.down lines bytes)) := by
    rw [AuroraLint.callClose, hdrop', hpart, List.map_append, List.map_singleton,
      closeFrom_of_breaksList (by exact hbreaks)]
  refine ⟨by rw [hts, hts', closeFrom_down], fun closer hclose => ?_⟩
  have hbounds := closeFrom_bounds (hts.symm.trans hclose)
  rw [List.length_drop] at hbounds
  omega

theorem splitArguments (h : Embedded lines bytes skipped part ts ts') {opener closer : Nat}
    (hlt : opener < closer) (hcloser : closer ≤ part.length) :
    AuroraLint.splitArguments ts' (skipped + opener) (skipped + closer) =
      (AuroraLint.splitArguments ts opener closer).map (Extent.shift skipped) := by
  have hslice := @slice _ _ _ _ _ _ h (opener + 1) closer hlt hcloser
  have hlength : skipped + closer - (skipped + opener + 1) = closer - (opener + 1) := by omega
  rw [AuroraLint.splitArguments, AuroraLint.splitArguments, ← splitFrom_down lines bytes, ← hslice,
    hlength]
  rfl

/-- **A block ends at the same token**, within the part. -/
theorem blockEnd (h : Embedded lines bytes skipped part ts ts')
    (hopen : AuroraLint.kindAt ts i = .leftBrace) (hi : i < part.length) :
    AuroraLint.blockEnd ts' (skipped + i) = skipped + AuroraLint.blockEnd ts i ∧
      AuroraLint.blockEnd ts i < part.length := by
  obtain ⟨rest, rest', hdrop, hdrop'⟩ := h.drop_eq (Nat.le_of_lt hi)
  obtain ⟨c, hc⟩ := h.closes i (by rw [AuroraLint.kindAt, ← h.tokenAt_part hi]; exact hopen)
  have hc' : blockFrom 0 (skipped + i) ((part.drop i).map (Token.down lines bytes)) =
      some (skipped + c) := by
    rw [blockFrom_down, hc]
    rfl
  have hbounds := blockFrom_bounds hc
  rw [List.length_drop] at hbounds
  rw [AuroraLint.blockEnd, AuroraLint.blockEnd, hdrop, hdrop', blockFrom_append_of_some hc,
    blockFrom_append_of_some hc', Option.getD_some, Option.getD_some]
  exact ⟨rfl, by omega⟩

theorem endsLine (h : Embedded lines bytes skipped part ts ts') (hi : i + 1 < part.length) :
    AuroraLint.endsLine ts' (skipped + i) = AuroraLint.endsLine ts i := by
  have hlen : i + 1 < ts.length := by
    obtain ⟨rest, rfl⟩ := h.starts
    simp only [List.length_append]
    omega
  have hlen' : skipped + i + 1 < ts'.length := by
    obtain ⟨above, rest, rfl, rfl⟩ := h.stands
    simp only [List.length_append, List.length_map]
    omega
  unfold AuroraLint.endsLine
  rw [getElem?_eq_tokenAt hlen, getElem?_eq_tokenAt hlen', Nat.add_assoc, h.tokenAt hi,
    h.tokenAt (by omega)]
  have hline : ∀ a b : Nat, (a + lines != b + lines) = (a != b) := by
    intro a b
    rw [Bool.eq_iff_iff]
    simp
  simp only [Token.down_kind, Token.down_line, hline]

/-! ## Headers -/

theorem params (h : Embedded lines bytes skipped part ts ts') {opener closer : Nat}
    (hlt : opener < closer) (hcloser : closer ≤ part.length) :
    AuroraLint.params ts' (skipped + opener) (skipped + closer) =
      (AuroraLint.params ts opener closer).map (Param.down lines bytes) := by
  rw [AuroraLint.params, AuroraLint.params, h.splitArguments hlt hcloser, List.filterMap_map,
    List.map_filterMap]
  refine List.filterMap_congr fun e he => ?_
  have hbounds := mem_splitArguments hlt he
  have hslice := h.slice (Nat.le_of_lt hbounds.2.1) (by omega)
  have hlength : skipped + e.stop - (skipped + e.start) = e.stop - e.start := by omega
  rw [Function.comp_apply, Extent.tokens, Extent.shift, hlength, hslice, Param.ofTokens?_down]
  rfl

theorem typeRefAt (h : Embedded lines bytes skipped part ts ts') (hi : i < part.length) :
    AuroraLint.typeRefAt ts' (skipped + i) =
        ((AuroraLint.typeRefAt ts i).1.map (TypeRef.down lines bytes),
          skipped + (AuroraLint.typeRefAt ts i).2) ∧
      (AuroraLint.typeRefAt ts i).2 < part.length := by
  unfold AuroraLint.typeRefAt
  rw [h.kindAt hi]
  split
  · rename_i hid
    have hnext := h.succ_lt hi hid nofun nofun
    rw [Nat.add_assoc, h.kindAt hnext, h.tokenAt hi, h.tokenAt hnext]
    split
    · rename_i hmark
      exact ⟨by simp [TypeRef.down, Nat.add_assoc], h.succ_lt hnext hmark nofun nofun⟩
    · exact ⟨by simp [TypeRef.down], hnext⟩
  · exact ⟨rfl, hi⟩

theorem annotationAt (h : Embedded lines bytes skipped part ts ts') (mark : Kind)
    (hbrace : mark ≠ .rightBrace) (heof : mark ≠ .eof) (hi : i < part.length) :
    AuroraLint.annotationAt mark ts' (skipped + i) =
        ((AuroraLint.annotationAt mark ts i).1.map (TypeRef.down lines bytes),
          skipped + (AuroraLint.annotationAt mark ts i).2) ∧
      (AuroraLint.annotationAt mark ts i).2 < part.length := by
  unfold AuroraLint.annotationAt
  rw [h.kindAt hi]
  split
  · rename_i hmark
    exact h.typeRefAt (h.succ_lt hi hmark hbrace heof)
  · exact ⟨rfl, hi⟩

theorem bodyAfter (h : Embedded lines bytes skipped part ts ts') {last : Nat}
    (hlast : last + 1 < part.length) :
    AuroraLint.bodyAfter ts' (skipped + last) =
      (AuroraLint.bodyAfter ts last).map (skipped + ·) := by
  unfold AuroraLint.bodyAfter
  rw [Nat.add_assoc, h.kindAt hlast]
  split <;> rfl

theorem signature (h : Embedded lines bytes skipped part ts ts') {keyword opener : Nat}
    (hkeyword : keyword < part.length) (hopener : opener < part.length) (name : String)
    (nameSpan : Span) :
    (Reading.signature (skipped + keyword) name (nameSpan.down lines bytes)
        ⟨ts', skipped + opener⟩).1 =
      (Reading.signature keyword name nameSpan ⟨ts, opener⟩).1.map
        (FnHeader.down lines bytes skipped) := by
  have hkind := h.kindAt hopener
  obtain ⟨hcall, hbound⟩ := h.callClose hopener
  by_cases hopen : AuroraLint.kindAt ts opener = .leftParen
  · cases hclose : AuroraLint.callClose ts opener with
    | none =>
      rw [hclose] at hcall
      rw [Reading.signature_unclosed hopen hclose,
        Reading.signature_unclosed (hkind.trans hopen) hcall]
      rfl
    | some closer =>
      rw [hclose] at hcall
      obtain ⟨hcloses, hlt⟩ := callClose_spec hopen hclose
      have hcloser := hbound closer hclose
      have hnext := h.succ_lt hcloser hcloses nofun nofun
      obtain ⟨hann, hafter⟩ := h.annotationAt .arrow nofun nofun hnext
      have hle : closer + 1 ≤ (AuroraLint.annotationAt .arrow ts (closer + 1)).2 :=
        (annotationAt_bounds h.endsInEof .arrow nofun
          (h.endsInEof.succ_lt_of_eq hcloses nofun)).1
      obtain ⟨last, hlast⟩ := Nat.exists_eq_succ_of_ne_zero (Nat.ne_zero_of_lt hle)
      rw [hlast] at hann hafter
      rw [Reading.signature_closed h.endsInEof hopen hclose,
        Reading.signature_closed h.endsInEof' (hkind.trans hopen) hcall]
      have hbehind : skipped + last.succ - 1 = skipped + last := rfl
      have hsame : last.succ - 1 = last := rfl
      simp only [Nat.add_assoc, hann, hlast, hbehind, hsame, h.params hlt (Nat.le_of_lt hcloser),
        h.bodyAfter hafter, h.tokenAt hkeyword, h.tokenAt (Nat.lt_of_succ_lt hafter)]
      simp [FnHeader.down]
  · rw [Reading.signature_of_ne hopen, Reading.signature_of_ne (by rw [hkind]; exact hopen)]
    rfl

/-- **The same function headers are read.** -/
theorem fnHeaderAt (h : Embedded lines bytes skipped part ts ts') (hi : i < part.length) :
    AuroraLint.fnHeaderAt ts' (skipped + i) =
      (AuroraLint.fnHeaderAt ts i).map (FnHeader.down lines bytes skipped) := by
  unfold AuroraLint.fnHeaderAt Reading.fnHeader
  rw [Reading.cursor_bind, Reading.cursor_bind]
  by_cases hw : AuroraLint.kindAt ts i = .kwFn
  · have hnext := h.succ_lt hi hw nofun nofun
    rw [Reading.bind_of_some (Reading.expect_of_eq hw nofun),
      Reading.bind_of_some (Reading.expect_of_eq ((h.kindAt hi).trans hw) nofun)]
    by_cases hn : AuroraLint.kindAt ts (i + 1) = .identifier
    · rw [Reading.bind_of_some (Reading.expect_of_eq hn nofun), Nat.add_assoc,
        Reading.bind_of_some (Reading.expect_of_eq ((h.kindAt hnext).trans hn) nofun),
        h.tokenAt hnext]
      exact h.signature hi (h.succ_lt hnext hn nofun nofun) ..
    · rw [Reading.bind_of_none (Reading.expect_of_ne hn), Nat.add_assoc,
        Reading.bind_of_none (Reading.expect_of_ne (by rw [h.kindAt hnext]; exact hn))]
      rfl
  · rw [Reading.bind_of_none (Reading.expect_of_ne hw),
      Reading.bind_of_none (Reading.expect_of_ne (by rw [h.kindAt hi]; exact hw))]
    rfl

/-- The body of a function opens within the part. -/
theorem body_lt (h : Embedded lines bytes skipped part ts ts') (hi : i < part.length)
    {header : FnHeader} (hheader : AuroraLint.fnHeaderAt ts i = some header) {body : Nat}
    (hbody : header.body = some body) :
    AuroraLint.kindAt ts body = .leftBrace ∧ body < part.length := by
  obtain ⟨hword, hname, _, _, hread⟩ := (fnHeaderAt_eq_some_iff h.endsInEof).mp hheader
  obtain ⟨hbody, hopen⟩ := hread.body_spec hbody
  obtain ⟨closer, hclose, _, hann⟩ := hread.closes
  have hnext := h.succ_lt hi hword nofun nofun
  have hopener := h.succ_lt hnext hname nofun nofun
  have hcloser := (h.callClose hopener).2 closer hclose
  have hbehind := h.succ_lt hcloser (callClose_spec hread.opens hclose).1 nofun nofun
  have hlast := (h.annotationAt .arrow nofun nofun hbehind).2
  rw [hann, ← hbody] at hlast
  exact ⟨hopen, hlast⟩

end Embedded

end AuroraLint
