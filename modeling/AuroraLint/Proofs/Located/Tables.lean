import AuroraLint.Brackets
import AuroraLint.Proofs.Stream
import AuroraLint.Symbols.Collect

/-!
# Where lexical, bracket and symbol errors point

* `Diagnostic.Located`  : a diagnostic whose span and related spans are real.
* `SymbolTable.Located` : a table whose declarations stand before a place.

Main statements: `Brackets.check_located` and `SymbolTable.collect_located` — the stack of open
brackets and the symbol table hold real spans that do not start behind what is being read.
-/

set_option autoImplicit false

namespace AuroraLint

/-! ## Located diagnostics -/

/-- The diagnostic points to a real span of the document. So do its related places, and none of
them starts behind it. -/
def Diagnostic.Located (file : String) (text : List Char) (d : Diagnostic) : Prop :=
  ∃ span, d.span = some span ∧ span.Real file text ∧
    ∀ r ∈ d.related, r.span.Real file text ∧ r.span.start.offset ≤ span.start.offset

namespace Diagnostic

variable {file : String} {text : List Char}

theorem located_of_alone {d : Diagnostic} {span : Span} (hd : d.span = some span)
    (hreal : span.Real file text) (hrelated : d.related = []) : d.Located file text :=
  ⟨span, hd, hreal, by simp [hrelated]⟩

theorem located_error {message : String} {span : Span} (h : span.Real file text) :
    (error message span).Located file text :=
  located_of_alone rfl h rfl

/-- An error that refers back to an earlier place. -/
theorem located_error_withRelated {message note : String} {span earlier : Span}
    (h : span.Real file text) (he : earlier.Real file text)
    (hle : earlier.start.offset ≤ span.start.offset) :
    ((error message span).withRelated earlier note).Located file text := by
  refine ⟨span, rfl, h, ?_⟩
  intro r hr
  obtain rfl : r = ⟨earlier, note⟩ := by simpa [error, withRelated] using hr
  exact ⟨he, hle⟩

theorem Located.withSuggestion {d : Diagnostic} (h : d.Located file text) (suggestion : String) :
    (d.withSuggestion suggestion).Located file text := h

end Diagnostic

/-! ## Lexical errors -/

theorem Lexer.tokenize_located (file text : String) :
    ∀ d ∈ (Lexer.tokenize file text).2, d.Located file text.toList := by
  obtain ⟨scanned, htiling, heq⟩ := Lexer.tiling_tokenize file text
  rw [heq]
  intro d hd
  obtain ⟨s, hs, hdiag⟩ := List.mem_filterMap.mp hd
  unfold Scanned.diagnostic? at hdiag
  split at hdiag
  · cases hdiag
  · rename_i hterm
    obtain rfl := Option.some.inj hdiag
    rcases htiling.mem_cases hs with rfl | ⟨before, c, tail, lexeme, _, hsp, rfl⟩
    · exact absurd rfl hterm
    · exact Diagnostic.located_error (by simpa using hsp.real file)

/-! ## Brackets -/

namespace Brackets

variable {file : String} {text : List Char}

/-- The brackets of a verdict have real spans, and an opener stands before its closer. -/
def Verdict.Located (file : String) (text : List Char) : Verdict → Prop
  | .matched o _ c | .mismatched o _ c _ =>
    o.token.span.Real file text ∧ c.span.Real file text ∧
      o.token.span.start.offset ≤ c.span.start.offset
  | .unexpected _ c _ => c.span.Real file text
  | .unclosed o => o.token.span.Real file text

theorem Verdict.Located.diagnostic {v : Verdict} (h : v.Located file text) {d : Diagnostic}
    (hd : v.diagnostic? = some d) : d.Located file text := by
  cases v with
  | matched => cases hd
  | mismatched o i c found =>
    obtain rfl := Option.some.inj hd
    exact Diagnostic.located_error_withRelated h.2.1 h.1 h.2.2
  | unexpected i c found =>
    obtain rfl := Option.some.inj hd
    exact Diagnostic.located_error h
  | unclosed o =>
    obtain rfl := Option.some.inj hd
    exact Diagnostic.located_error h

theorem ne_eof_of_opens {k : Kind} {shape : BracketShape} (h : k.opens? = some shape) : k ≠ .eof := by
  rintro rfl
  cases h

theorem ne_eof_of_closes {k : Kind} {shape : BracketShape} (h : k.closes? = some shape) :
    k ≠ .eof := by
  rintro rfl
  cases h

/-- Brackets that wait are real and stand before all that is still to be read. -/
theorem verdictsFrom_located {waiting : List Opener} {rest : List (Token × Nat)}
    (hwait : ∀ o ∈ waiting, o.token.span.Real file text ∧
      ∀ p ∈ rest, o.token.span.start.offset ≤ p.1.span.start.offset)
    (hreal : ∀ p ∈ rest, p.1.kind ≠ .eof → p.1.span.Real file text)
    (hord : rest.Pairwise fun p q => p.1.span.start.offset ≤ q.1.span.start.offset) :
    ∀ v ∈ verdictsFrom waiting rest, v.Located file text := by
  fun_induction verdictsFrom waiting rest with
  | case1 waiting =>
    intro v hv
    obtain ⟨o, ho, rfl⟩ := List.mem_map.mp hv
    exact (hwait o (List.mem_reverse.mp ho)).1
  | case2 waiting t i rest shape hopens ih =>
    obtain ⟨hfirst, hord⟩ := List.pairwise_cons.mp hord
    refine ih ?_ (fun p hp => hreal p (List.mem_cons_of_mem _ hp)) hord
    intro o ho
    rcases List.mem_cons.mp ho with rfl | ho
    · exact ⟨hreal _ (List.mem_cons_self ..) (ne_eof_of_opens hopens), hfirst⟩
    · exact ⟨(hwait o ho).1, fun p hp => (hwait o ho).2 p (List.mem_cons_of_mem _ hp)⟩
  | case3 waiting t i rest _ _ ih =>
    refine ih ?_ (fun p hp => hreal p (List.mem_cons_of_mem _ hp)) (List.pairwise_cons.mp hord).2
    intro o ho
    exact ⟨(hwait o ho).1, fun p hp => (hwait o ho).2 p (List.mem_cons_of_mem _ hp)⟩
  | case4 t i rest shape hcloses _ ih =>
    intro v hv
    rcases List.mem_cons.mp hv with rfl | hv
    · exact hreal _ (List.mem_cons_self ..) (ne_eof_of_closes hcloses)
    · exact ih (List.forall_mem_nil _) (fun p hp => hreal p (List.mem_cons_of_mem _ hp))
        (List.pairwise_cons.mp hord).2 v hv
  | case5 t i rest shape o os hcloses _ ih =>
    intro v hv
    rcases List.mem_cons.mp hv with rfl | hv
    · have ho := hwait o (List.mem_cons_self ..)
      have hclose := hreal _ (List.mem_cons_self ..) (ne_eof_of_closes hcloses)
      have hle := ho.2 _ (List.mem_cons_self ..)
      split
      · exact ⟨ho.1, hclose, hle⟩
      · exact ⟨ho.1, hclose, hle⟩
    · refine ih ?_ (fun p hp => hreal p (List.mem_cons_of_mem _ hp))
        (List.pairwise_cons.mp hord).2 v hv
      intro o' ho'
      have ho := hwait o' (List.mem_cons_of_mem _ ho')
      exact ⟨ho.1, fun p hp => ho.2 p (List.mem_cons_of_mem _ hp)⟩

theorem check_located {ts : List Token} (h : TokenStream file text ts) :
    ∀ d ∈ check ts, d.Located file text := by
  intro d hd
  obtain ⟨v, hv, hdiag⟩ := List.mem_filterMap.mp hd
  refine (verdictsFrom_located (List.forall_mem_nil _) ?_ ?_ v hv).diagnostic hdiag
  · intro p hp
    exact h.real_of_mem (List.fst_mem_of_mem_zipIdx hp)
  · have hstarts := h.starts_ordered
    rw [← List.zipIdx_map_fst 0 ts, List.pairwise_map] at hstarts
    exact hstarts

end Brackets

/-! ## Symbols -/

/-- The span that an error about a declaration points to. -/
def Declaration.place : Declaration → Span
  | .function h | .external h => h.span
  | .classDef h _ => h.nameSpan

section Declarations

variable {file : String} {text : List Char} {ts : List Token}

theorem FnHeader.NamedAt.place {header : FnHeader} {i : Nat} {word : Kind}
    (hn : header.NamedAt ts i word) (h : TokenStream file text ts) :
    header.span.Real file text ∧
      (tokenAt ts i).span.start.offset ≤ header.span.start.offset ∧
      ∀ j, i < j → j < ts.length →
        header.span.start.offset ≤ (tokenAt ts j).span.start.offset := by
  obtain ⟨hreal, hstart⟩ := h.fnHeader_real hn.readAt (by omega)
  refine ⟨hreal, Nat.le_of_eq hstart.symm, fun j hij hj => ?_⟩
  exact Nat.le_trans (Nat.le_of_eq hstart) (h.start_le (by omega) hj)

/-- The place of a declaration is real, and stands between the token it starts at and all later
ones. -/
theorem declarationAt_place (h : TokenStream file text ts) {i last : Nat} {d : Declaration}
    (hd : declarationAt ts i = some (d, last)) :
    d.place.Real file text ∧ (tokenAt ts i).span.start.offset ≤ d.place.start.offset ∧
      ∀ j, i < j → j < ts.length → d.place.start.offset ≤ (tokenAt ts j).span.start.offset := by
  unfold declarationAt at hd
  split at hd
  · obtain ⟨header, hh, heq⟩ := Option.map_eq_some_iff.mp hd
    obtain ⟨rfl, rfl⟩ := Prod.mk.inj heq
    exact ((externHeaderAt_eq_some_iff h.endsInEof).mp hh).place h
  · obtain ⟨header, hh, heq⟩ := Option.map_eq_some_iff.mp hd
    obtain ⟨rfl, rfl⟩ := Prod.mk.inj heq
    exact ((fnHeaderAt_eq_some_iff h.endsInEof).mp hh).place h
  · obtain ⟨header, hh, heq⟩ := Option.map_eq_some_iff.mp hd
    obtain ⟨rfl, rfl⟩ := Prod.mk.inj heq
    have hread := (classHeaderAt_eq_some_iff h.endsInEof).mp hh
    have hlt := h.endsInEof.succ_lt_of_eq hread.name_kind nofun
    simp only [Declaration.place, hread.nameSpan_eq]
    exact ⟨h.real hlt, h.start_le (by omega) (by omega), fun j hij hj => h.start_le (by omega) hj⟩
  · cases hd

theorem mem_declarationsFrom {resume i : Nat} {rest : List Token} {d : Declaration}
    (hd : d ∈ declarationsFrom ts resume i rest) :
    ∃ k last, i ≤ k ∧ declarationAt ts k = some (d, last) := by
  fun_induction declarationsFrom ts resume i rest with
  | case1 => cases hd
  | case2 resume i t rest _ ih | case4 resume i t rest _ _ ih =>
    obtain ⟨k, last, hk, hat⟩ := ih hd
    exact ⟨k, last, by omega, hat⟩
  | case3 resume i t rest _ d' last hat ih =>
    rcases List.mem_cons.mp hd with rfl | hd
    · exact ⟨i, last, Nat.le_refl _, hat⟩
    · obtain ⟨k, last, hk, hat⟩ := ih hd
      exact ⟨k, last, by omega, hat⟩

theorem declarationAt_lt (hts : EndsInEof ts) {i last : Nat} {d : Declaration}
    (hd : declarationAt ts i = some (d, last)) : i + 1 < ts.length := by
  refine hts.succ_lt fun hk => ?_
  rw [declarationAt, hk] at hd
  cases hd

/-- Declarations stand in order. -/
theorem declarationsFrom_ordered (h : TokenStream file text ts) (resume i : Nat)
    (rest : List Token) :
    (declarationsFrom ts resume i rest).Pairwise fun a b =>
      a.place.start.offset ≤ b.place.start.offset := by
  fun_induction declarationsFrom ts resume i rest with
  | case1 => exact List.Pairwise.nil
  | case2 _ _ _ _ _ ih | case4 _ _ _ _ _ _ ih => exact ih
  | case3 resume i t rest _ d last hat ih =>
    refine List.pairwise_cons.mpr ⟨fun b hb => ?_, ih⟩
    obtain ⟨k, last', hk, hat'⟩ := mem_declarationsFrom hb
    have hlt := declarationAt_lt h.endsInEof hat'
    calc d.place.start.offset
        ≤ (tokenAt ts k).span.start.offset :=
          (declarationAt_place h hat).2.2 k (by omega) (by omega)
      _ ≤ b.place.start.offset := (declarationAt_place h hat').2.1

end Declarations

namespace SymbolTable

variable {file : String} {text : List Char}

/-- What the table holds was declared at real spans that start no later than byte `bound`. -/
structure Located (file : String) (text : List Char) (bound : Nat) (t : SymbolTable) : Prop where
  functions : ∀ name s span, t.function? name = some s → s.declaredAt = some span →
    span.Real file text ∧ span.start.offset ≤ bound
  classes : ∀ name c, t.class? name = some c →
    c.declaredAt.Real file text ∧ c.declaredAt.start.offset ≤ bound

theorem builtins_located (bound : Nat) : builtins.Located file text bound := by
  refine ⟨?_, ?_⟩
  · intro name s span hs hspan
    simp only [function?, builtins, Std.TreeMap.getElem?_insert] at hs
    split at hs
    · obtain rfl := Option.some.inj hs
      cases hspan
    · simp at hs
  · intro name c hc
    simp [class?, builtins] at hc

theorem Located.mono {t : SymbolTable} {bound bound' : Nat} (h : t.Located file text bound)
    (hle : bound ≤ bound') : t.Located file text bound' :=
  ⟨fun name s span hs hspan => (h.functions name s span hs hspan).imp_right (Nat.le_trans · hle),
    fun name c hc => (h.classes name c hc).imp_right (Nat.le_trans · hle)⟩

theorem declaredAt_addMembers (members : List Member) (c : ClassInfo) :
    (members.foldl ClassInfo.addMember c).declaredAt = c.declaredAt := by
  induction members generalizing c with
  | nil => rfl
  | cons m members ih =>
    rw [List.foldl_cons, ih]
    cases m <;> rfl

/-- Adding a function at a place behind the bound moves the bound there. -/
theorem Located.addFunction {t : SymbolTable} {bound : Nat} (h : t.Located file text bound)
    {header : FnHeader} {s : Signature} (hs : s.declaredAt = some header.span)
    (hreal : header.span.Real file text) (hle : bound ≤ header.span.start.offset) :
    (t.addFunction header s).1.Located file text header.span.start.offset ∧
      ∀ d ∈ (t.addFunction header s).2, d.Located file text := by
  unfold SymbolTable.addFunction
  split
  · rename_i earlier hearlier
    obtain ⟨s', hs', hdecl⟩ := Option.bind_eq_some_iff.mp hearlier
    obtain ⟨her, hes⟩ := h.functions _ _ _ hs' hdecl
    refine ⟨h.mono hle, ?_⟩
    intro d hd
    obtain rfl := List.mem_singleton.mp hd
    exact Diagnostic.located_error_withRelated hreal her (Nat.le_trans hes hle)
  · refine ⟨⟨?_, (h.mono hle).classes⟩, List.forall_mem_nil _⟩
    intro name s' span hs' hspan
    simp only [function?, Std.TreeMap.getElem?_insert] at hs'
    split at hs'
    · obtain rfl := Option.some.inj hs'
      obtain rfl := Option.some.inj (hs.symm.trans hspan)
      exact ⟨hreal, Nat.le_refl _⟩
    · exact (h.mono hle).functions name s' span hs' hspan

theorem Located.addClass {t : SymbolTable} {bound : Nat} (h : t.Located file text bound)
    {header : ClassHeader} {members : List Member} (hreal : header.nameSpan.Real file text)
    (hle : bound ≤ header.nameSpan.start.offset) :
    (t.addClass header members).1.Located file text header.nameSpan.start.offset ∧
      ∀ d ∈ (t.addClass header members).2, d.Located file text := by
  unfold SymbolTable.addClass
  split
  · rename_i earlier hearlier
    obtain ⟨her, hes⟩ := h.classes _ _ hearlier
    refine ⟨h.mono hle, ?_⟩
    intro d hd
    obtain rfl := List.mem_singleton.mp hd
    exact Diagnostic.located_error_withRelated hreal her (Nat.le_trans hes hle)
  · refine ⟨⟨(h.mono hle).functions, ?_⟩, List.forall_mem_nil _⟩
    intro name c hc
    simp only [class?, Std.TreeMap.getElem?_insert] at hc
    split at hc
    · obtain rfl := Option.some.inj hc
      rw [declaredAt_addMembers]
      exact ⟨hreal, Nat.le_refl _⟩
    · exact (h.mono hle).classes name c hc

/-- One declaration: the table stays located, with the bound at the declaration. -/
theorem Located.add {t : SymbolTable} {bound : Nat} (h : t.Located file text bound)
    {d : Declaration} (hreal : d.place.Real file text) (hle : bound ≤ d.place.start.offset) :
    (t.add d).1.Located file text d.place.start.offset ∧
      ∀ e ∈ (t.add d).2, e.Located file text := by
  cases d with
  | function header | external header => exact h.addFunction rfl hreal hle
  | classDef header members => exact h.addClass hreal hle

/-- All declarations in order. -/
theorem Located.addAll {t : SymbolTable} {bound : Nat} (h : t.Located file text bound)
    {ds : List Declaration} (hreal : ∀ d ∈ ds, d.place.Real file text)
    (hbound : ∀ d ∈ ds, bound ≤ d.place.start.offset)
    (hord : ds.Pairwise fun a b => a.place.start.offset ≤ b.place.start.offset) :
    ∀ e ∈ (t.addAll ds).2, e.Located file text := by
  induction ds generalizing t bound with
  | nil => exact List.forall_mem_nil _
  | cons d ds ih =>
    obtain ⟨hfirst, hrest⟩ := List.pairwise_cons.mp hord
    obtain ⟨hadd, hdiags⟩ := h.add (hreal d (List.mem_cons_self ..)) (hbound d (List.mem_cons_self ..))
    intro e he
    rcases List.mem_append.mp he with he | he
    · exact hdiags e he
    · exact ih hadd (fun d hd => hreal d (List.mem_cons_of_mem _ hd)) hfirst hrest e he

theorem collect_located {ts : List Token} (h : TokenStream file text ts) :
    ∀ d ∈ (collect ts).2, d.Located file text := by
  refine (builtins_located 0).addAll ?_ (fun d _ => Nat.zero_le _)
    (declarationsFrom_ordered h 0 0 ts)
  intro d hd
  obtain ⟨k, last, _, hat⟩ := mem_declarationsFrom hd
  exact (declarationAt_place h hat).1

end SymbolTable

end AuroraLint
