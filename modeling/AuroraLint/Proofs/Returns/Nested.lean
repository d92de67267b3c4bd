import AuroraLint.Proofs.Bodies
import AuroraLint.Returns
import Mathlib.Data.List.Basic
import Mathlib.Data.List.Nodup

/-!
# Return statements of nested functions

Every function is checked on its own, from its `{` to the brace that closes it. So a `return` is
judged by each of the functions around it, and not by the innermost one alone.

* `Returns.functionsAround` : the functions whose bodies reach over a token.
* `Returns.verdict`         : what one of them has against a `return`.
* `Returns.errorsAt`        : the errors that a document has at a token.

Main statements: `blockEnd_le_of_nested` — a block inside another one ends with it at the latest;
`Returns.functionsAround_nested` — of the functions around a token each lies in the body of the one
before; `Returns.errorsAt_return` — the errors at a `return` are the verdicts of all of them, so its
own function alone decides exactly if the others have nothing against it.
-/

set_option autoImplicit false

namespace AuroraLint

/-! ## Blocks in blocks -/

section Blocks

variable {ts : List Token}

/-- A search from a smaller depth ends no later. -/
theorem blockFrom_mono {depth depth' i c : Nat} {rest : List Token} (hle : depth ≤ depth')
    (h : blockFrom depth' i rest = some c) : ∃ c', blockFrom depth i rest = some c' ∧ c' ≤ c := by
  have hbound := (blockFrom_bounds h).1
  induction rest generalizing depth depth' i with
  | nil => cases h
  | cons t rest ih =>
    rw [blockFrom] at h ⊢
    split at h
    · exact ih (by omega) h (blockFrom_bounds h).1
    · split at h
      · rename_i hdepth
        exact ⟨i, if_pos (by omega), hbound⟩
      · split
        · exact ⟨i, rfl, hbound⟩
        · exact ih (by omega) h (blockFrom_bounds h).1
    · exact ⟨i, rfl, hbound⟩
    · exact ih hle h (blockFrom_bounds h).1

/-- Behind its first token, a block goes on at some depth until it closes. -/
theorem blockFrom_drop {opener c j : Nat} (h : blockFrom 0 opener (ts.drop opener) = some c)
    (hlt : opener < j) (hle : j ≤ c) : ∃ depth, blockFrom depth j (ts.drop j) = some c := by
  have hlen := (blockFrom_bounds h).2
  rw [List.length_drop] at hlen
  obtain ⟨n, rfl⟩ := Nat.exists_eq_add_of_lt hlt
  -- one token further on, the search has not ended yet
  have hnext : ∀ {depth i : Nat}, blockFrom depth i (ts.drop i) = some c → i < c →
      ∃ depth, blockFrom depth (i + 1) (ts.drop (i + 1)) = some c := by
    intro depth i hi hic
    rcases blockFrom_step (by omega) hi with ⟨heq, _⟩ | ⟨depth', hfrom, _⟩
    · omega
    · exact ⟨depth', hfrom⟩
  induction n with
  | zero => exact hnext h hle
  | succ n ih =>
    obtain ⟨depth, hdepth⟩ := ih (by omega) (by omega)
    exact hnext hdepth (by omega)

theorem blockFrom_eq_blockEnd (hts : EndsInEof ts) {opener : Nat} (h : opener < ts.length) :
    blockFrom 0 opener (ts.drop opener) = some (blockEnd ts opener) := by
  obtain ⟨init, last, rfl, hlast, _⟩ := hts
  have hle : opener ≤ init.length := by simpa [Nat.lt_succ_iff] using h
  obtain ⟨c, hc⟩ := exists_blockFrom_of_eof hlast 0 opener (init.drop opener)
  rw [← List.drop_append_of_le_length hle] at hc
  rw [blockEnd, hc, Option.getD_some]

/-- The search for the end of a block starts behind its brace. -/
theorem blockFrom_succ_eq_blockEnd (hts : EndsInEof ts) {b : Nat}
    (hb : kindAt ts b = .leftBrace) :
    blockFrom 1 (b + 1) (ts.drop (b + 1)) = some (blockEnd ts b) := by
  have hlen := hts.succ_lt_of_eq hb nofun
  rcases blockFrom_step (by omega) (blockFrom_eq_blockEnd hts (show b < ts.length by omega)) with
    ⟨_, heof | ⟨hr, _⟩⟩ | ⟨_, hfrom, ⟨_, rfl⟩ | ⟨hr, _⟩ | ⟨⟨hl, _⟩, _⟩⟩
  · cases hb.symm.trans heof
  · cases hb.symm.trans hr
  · exact hfrom
  · cases hb.symm.trans hr
  · exact absurd hb hl

/-- **A block inside another one ends with it at the latest.** -/
theorem blockEnd_le_of_nested (hts : EndsInEof ts) {outer inner : Nat} (hlt : outer < inner)
    (hin : inner < blockEnd ts outer) : blockEnd ts inner ≤ blockEnd ts outer := by
  have hlen : blockEnd ts outer < ts.length := by
    by_cases houter : outer < ts.length
    · exact (blockEnd_spec houter).2
    · rw [blockEnd, List.drop_of_length_le (by omega)] at hin
      simp only [blockFrom, Option.getD_none] at hin
      omega
  have houter := blockFrom_eq_blockEnd hts (show outer < ts.length by omega)
  obtain ⟨depth, hdepth⟩ := blockFrom_drop houter hlt (Nat.le_of_lt hin)
  obtain ⟨c, hc, hle⟩ := blockFrom_mono (Nat.zero_le depth) hdepth
  rw [blockFrom_eq_blockEnd hts (by omega)] at hc
  rw [Option.some.inj hc]
  exact hle

end Blocks

/-- The body of the second function lies in the body of the first. -/
def FnHeader.Encloses (ts : List Token) (h h' : FnHeader) : Prop :=
  ∃ b b', h.body = some b ∧ h'.body = some b' ∧ b < b' ∧ blockEnd ts b' ≤ blockEnd ts b

namespace Returns

/-! ## The functions around a token -/

/-- The body of a function reaches over token `r`. -/
def covers (doc : Document) (r : Nat) (h : FnHeader) : Bool :=
  h.body.any fun body => decide (body < r ∧ r < blockEnd doc.tokens body)

/-- The functions whose bodies reach over token `r`, in the order of their words. -/
def functionsAround (doc : Document) (r : Nat) : List FnHeader :=
  (List.range doc.tokens.length).filterMap fun k =>
    (fnHeaderAt doc.tokens k).filter (covers doc r)

/-- What a function around the `return` at token `r` has against it. -/
def verdict (doc : Document) (r : Nat) (h : FnHeader) : Option Diagnostic :=
  checkReturn doc h.name (TypeRef.typeOr h.returnType .void) r

/-- The diagnostic is an error that starts where token `r` does. -/
def isErrorAt (doc : Document) (r : Nat) (d : Diagnostic) : Bool :=
  d.isError && d.span.any fun s => s.start == (doc.token r).span.start

/-- The errors at token `r`. -/
def errorsAt (doc : Document) (r : Nat) : List Diagnostic :=
  (check doc).filter (isErrorAt doc r)

section Around

variable {doc : Document} {r : Nat}

theorem covers_eq_true {h : FnHeader} (hcovers : covers doc r h = true) :
    ∃ body, h.body = some body ∧ body < r ∧ r < blockEnd doc.tokens body := by
  obtain ⟨body, hbody, hlt⟩ := (Option.any_eq_true _ _).mp hcovers
  exact ⟨body, hbody, of_decide_eq_true hlt⟩

theorem callableAt_of_fnHeaderAt {k : Nat} {h : FnHeader} (hh : fnHeaderAt doc.tokens k = some h) :
    callableAt doc.tokens k = some h := by
  rw [callableAt, hh, Option.some_or]

/-- **Of the functions around a token each lies in the body of the one before.** -/
theorem functionsAround_nested (hts : EndsInEof doc.tokens) (r : Nat) :
    (functionsAround doc r).Pairwise (FnHeader.Encloses doc.tokens) := by
  refine List.pairwise_filterMap.mpr (List.pairwise_lt_range.imp fun {k k'} hlt h hh h' hh' => ?_)
  obtain ⟨hheader, hcovers⟩ := Option.filter_eq_some_iff.mp hh
  obtain ⟨hheader', hcovers'⟩ := Option.filter_eq_some_iff.mp hh'
  obtain ⟨b, hb, hbr, hrb⟩ := covers_eq_true hcovers
  obtain ⟨b', hb', hbr', _⟩ := covers_eq_true hcovers'
  obtain ⟨hkb, hbrace, hfirst⟩ := firstBrace_of_body hts (callableAt_of_fnHeaderAt hheader) hb
  obtain ⟨hkb', hbrace', _⟩ := firstBrace_of_body hts (callableAt_of_fnHeaderAt hheader') hb'
  have hbb' : b < b' := by
    rcases Nat.lt_trichotomy b b' with hbb' | rfl | hbb'
    · exact hbb'
    · have hsame := callableAt_body_inj hts (callableAt_of_fnHeaderAt hheader) hb
        (callableAt_of_fnHeaderAt hheader') hb'
      omega
    · exact absurd hbrace' (hfirst b' hbb' (by omega))
  exact ⟨b, b', hb, hb', hbb', blockEnd_le_of_nested hts hbb' (by omega)⟩

/-! ## The errors at a `return` -/

/-- What is wrong with a `return` is reported where it starts, and nowhere else. -/
theorem isErrorAt_of_checkReturn (hdoc : doc.Streamed) {i : Nat} (hi : i < doc.tokens.length)
    (hr : r < doc.tokens.length) {name : String} {returnType : Ty} {d : Diagnostic}
    (h : checkReturn doc name returnType i = some d) : isErrorAt doc r d = true ↔ i = r := by
  have hplace : isErrorAt doc r d = ((doc.token i).span.start == (doc.token r).span.start) := by
    unfold checkReturn at h
    split at h
    · obtain rfl := Option.some.inj h
      rfl
    · obtain rfl := Option.some.inj h
      rfl
    · cases h
  rw [hplace, beq_iff_eq]
  constructor
  · exact fun heq => hdoc.index_eq_of_start_eq hi hr (congrArg Position.offset heq)
  · rintro rfl
    rfl

theorem mem_returnsBetween {opener closer i : Nat} :
    i ∈ returnsBetween doc opener closer ↔ (opener < i ∧ i < closer) ∧ doc.kind i = .kwReturn := by
  simp only [returnsBetween, List.mem_filter, List.mem_range'_1, beq_iff_eq]
  refine and_congr_left fun _ => ?_
  omega

/-- Of tokens that are told apart, one alone has something reported. -/
theorem filterMap_ite_eq {l : List Nat} (hl : l.Nodup) (r : Nat) (v : Option Diagnostic) :
    (l.filterMap fun i => if i = r then v else none) = if r ∈ l then v.toList else [] := by
  induction l with
  | nil => rfl
  | cons i l ih =>
    obtain ⟨hi, hl⟩ := List.nodup_cons.mp hl
    rw [List.filterMap_cons, ih hl]
    by_cases hir : i = r
    · subst hir
      rw [if_pos rfl, if_neg hi, if_pos List.mem_cons_self]
      cases v <;> rfl
    · simp [hir, Ne.symm hir]

/-- A function reports at a `return` of its body what it has against it, and nothing at others. -/
theorem filter_checkFunction (hdoc : doc.Streamed) (hr : doc.kind r = .kwReturn) (h : FnHeader)
    {body : Nat} (hbody : body < doc.tokens.length) :
    (checkFunction doc h body).filter (isErrorAt doc r) =
      if body < r ∧ r < blockEnd doc.tokens body then (verdict doc r h).toList else [] := by
  have hlen := (blockEnd_spec hbody).2
  have hrlen := hdoc.endsInEof.succ_lt_of_eq hr nofun
  have hmem : r ∈ returnsBetween doc body (blockEnd doc.tokens body) ↔
      body < r ∧ r < blockEnd doc.tokens body := by
    rw [mem_returnsBetween, and_iff_left hr]
  have hone : ∀ i ∈ returnsBetween doc body (blockEnd doc.tokens body),
      (checkReturn doc h.name (TypeRef.typeOr h.returnType .void) i).filter (isErrorAt doc r) =
        if i = r then verdict doc r h else none := by
    intro i hi
    have hilen := (mem_returnsBetween.mp hi).1.2
    cases hc : checkReturn doc h.name (TypeRef.typeOr h.returnType .void) i with
    | none =>
      split
      · rename_i hir
        rw [verdict, ← hir, hc]
        rfl
      · rfl
    | some d =>
      have hplace := isErrorAt_of_checkReturn hdoc (by omega) (by omega) hc (r := r)
      by_cases hir : i = r
      · rw [if_pos hir, Option.filter_some_pos (hplace.mpr hir), verdict, ← hir, hc]
      · rw [if_neg hir, Option.filter_some_neg (Bool.eq_false_iff.mpr fun hd => hir (hplace.mp hd))]
  have hnodup : (returnsBetween doc body (blockEnd doc.tokens body)).Nodup :=
    List.Nodup.filter _ List.nodup_range'
  unfold checkFunction
  simp only [List.filter_append, List.filter_filterMap]
  rw [List.filterMap_congr hone, filterMap_ite_eq hnodup]
  -- that no value is returned is no error
  have hwarning : ∀ (c : Bool) (message : String),
      (if c then [Diagnostic.warning message h.span] else []).filter (isErrorAt doc r) = [] := by
    intro c message
    cases c <;> rfl
  rw [hwarning, List.append_nil]
  exact if_congr hmem rfl rfl

/-- What a function reports at a `return`, if one starts at token `k`. -/
theorem filter_checkAt (hdoc : doc.Streamed) (hr : doc.kind r = .kwReturn) (k : Nat) :
    (checkAt doc k).filter (isErrorAt doc r) =
      (((fnHeaderAt doc.tokens k).filter (covers doc r)).bind (verdict doc r)).toList := by
  unfold checkAt
  cases hheader : fnHeaderAt doc.tokens k with
  | none => rfl
  | some h =>
    cases hb : h.body with
    | none =>
      rw [Option.filter_some_neg (by simp [covers, hb])]
      simp only [hb]
      rfl
    | some body =>
      have hfirst := firstBrace_of_body hdoc.endsInEof (callableAt_of_fnHeaderAt hheader) hb
      have hlen := hdoc.endsInEof.succ_lt_of_eq hfirst.2.1 nofun
      simp only [hb, filter_checkFunction hdoc hr h (show body < doc.tokens.length by omega)]
      by_cases hin : body < r ∧ r < blockEnd doc.tokens body
      · rw [if_pos hin, Option.filter_some_pos (by simp [covers, hb, hin])]
        rfl
      · rw [if_neg hin, Option.filter_some_neg (by simpa [covers, hb] using hin)]
        rfl

end Around

/-- **A `return` is judged by every function around it.** The errors at it are what these functions
have against it, from the outermost to the innermost. Its own function, the last of them, decides
alone exactly if none of the others has anything against it. -/
theorem errorsAt_return (uri text : String) (r : Nat)
    (hr : (Document.ofText uri text).kind r = .kwReturn) :
    let doc := Document.ofText uri text
    (functionsAround doc r).Pairwise (FnHeader.Encloses doc.tokens) ∧
      errorsAt doc r = (functionsAround doc r).filterMap (verdict doc r) ∧
      (errorsAt doc r = ((functionsAround doc r).getLast?.bind (verdict doc r)).toList ↔
        ∀ h ∈ (functionsAround doc r).dropLast, verdict doc r h = none) := by
  intro doc
  have hdoc : doc.Streamed := Document.streamed_ofText uri text
  have herrors : errorsAt doc r = (functionsAround doc r).filterMap (verdict doc r) := by
    rw [errorsAt, check, List.filter_flatMap, functionsAround, List.filterMap_filterMap,
      List.filterMap_eq_flatMap_toList]
    exact List.flatMap_congr fun k _ => filter_checkAt hdoc hr k
  refine ⟨functionsAround_nested hdoc.endsInEof r, herrors, ?_⟩
  rw [herrors]
  rcases List.eq_nil_or_concat (functionsAround doc r) with hnil | ⟨outer, own, hown⟩
  · simp [hnil]
  · rw [hown, List.concat_eq_append, List.dropLast_concat, List.getLast?_concat,
      List.filterMap_append, Option.bind_some]
    have hlast : [own].filterMap (verdict doc r) = (verdict doc r own).toList := by
      rw [List.filterMap_cons]
      cases verdict doc r own <;> rfl
    rw [hlast, List.append_left_eq_self, List.filterMap_eq_nil_iff]

/-- Two functions without return type around a value: both have the same against it. -/
theorem errorsAt_return_both :
    let doc := Document.ofText "m"
      "fn f() \x7b\n    fn g() \x7b\n        return 1\n    \x7d\n\x7d"
    doc.kind 10 = .kwReturn ∧ errorsAt doc 10 =
      [.error "Cannot return a value from a void function 'f'" ⟨"m", ⟨3, 9, 30⟩, ⟨3, 17, 38⟩⟩,
        .error "Cannot return a value from a void function 'g'"
          ⟨"m", ⟨3, 9, 30⟩, ⟨3, 17, 38⟩⟩] := by
  intro doc
  have hr : doc.kind 10 = .kwReturn := by decide +kernel
  obtain ⟨_, herrors, _⟩ := errorsAt_return "m" _ 10 hr
  exact ⟨hr, herrors.trans (by decide +kernel)⟩

/-- A function that returns a number, inside one that returns nothing: its `return` is right, and
is an error all the same. -/
theorem errorsAt_ne_own :
    let doc := Document.ofText "m"
      "fn f() \x7b\n    fn g() -> int \x7b\n        return 1\n    \x7d\n\x7d"
    doc.kind 12 = .kwReturn ∧ (functionsAround doc 12).getLast?.map (·.name) = some "g" ∧
      ((functionsAround doc 12).getLast?.bind (verdict doc 12)).toList = [] ∧
      errorsAt doc 12 = [.error "Cannot return a value from a void function 'f'"
        ⟨"m", ⟨3, 9, 37⟩, ⟨3, 17, 45⟩⟩] := by
  decide +kernel

end Returns

end AuroraLint
