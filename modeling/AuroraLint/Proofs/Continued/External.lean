import AuroraLint.Proofs.ArgumentLists
import AuroraLint.Proofs.Words
import AuroraLint.Symbols.Collect
import Mathlib.Data.List.Basic

/-!
# A line that declares an external function

The line `extern NAME(p, q)` as it is lexed and read, wherever it stands.

* `externLine`    : the line.
* `ParamTokens`   : the tokens of parameters without annotation.
* `ExternTokens`  : the tokens of the line, and of the end of the document behind it.

Main statements: `Lexer.externTokens_scan` — the line is lexed as these tokens;
`ExternTokens.exists_header` — they are read as the header of that name and those parameters.
-/

set_option autoImplicit false

namespace AuroraLint

/-! ## The tokens of the line -/

/-- The line that declares an external function with parameters, none of them annotated. -/
def externLine (name : String) (params : List String) : String :=
  "extern " ++ name ++ "(" ++ ", ".intercalate params ++ ")"

/-- The tokens of parameters without annotation, with a comma between any two. -/
inductive ParamTokens : List String → List Token → Prop
  | nil : ParamTokens [] []
  | one {t : Token} (hkind : t.kind = .identifier) : ParamTokens [t.lexeme] [t]
  | more {q : String} {ps : List String} {t comma : Token} {ts : List Token}
      (hkind : t.kind = .identifier) (hcomma : comma.kind = .comma)
      (hrest : ParamTokens (q :: ps) ts) : ParamTokens (t.lexeme :: q :: ps) (t :: comma :: ts)

/-- The tokens of the line, and of the end of the document behind it. -/
inductive ExternTokens (params : List String) : String → List Token → Prop
  | mk {word name opener closer eof : Token} {args : List Token} (hword : word.kind = .kwExtern)
      (hname : name.kind = .identifier) (hopener : opener.kind = .leftParen)
      (hargs : ParamTokens params args) (hcloser : closer.kind = .rightParen)
      (heof : eof.kind = .eof) :
      ExternTokens params name.lexeme (word :: name :: opener :: (args ++ [closer, eof]))

/-- Tokens of these shapes are those of parameters. -/
theorem paramTokens_of_shapes {params : List String} {args : List Token}
    (h : args.map Token.shape =
      List.intercalate [(.comma, ",")] (params.map fun p => [(Kind.identifier, p)])) :
    ParamTokens params args := by
  induction params generalizing args with
  | nil =>
    obtain rfl : args = [] := List.map_eq_nil_iff.mp h
    exact .nil
  | cons p params ih =>
    cases params with
    | nil =>
      obtain ⟨t, rfl, ht⟩ := List.map_eq_singleton_iff.mp (by simpa [List.intercalate] using h)
      obtain ⟨hkind, rfl⟩ := Prod.mk.inj ht
      exact .one hkind
    | cons q params =>
      rw [List.map_cons, List.map_cons, List.intercalate_cons_cons] at h
      obtain ⟨t, rest, rfl, ht, hrest⟩ := List.map_eq_cons_iff.mp h
      obtain ⟨comma, args, rfl, hcomma, hargs⟩ := List.map_eq_cons_iff.mp hrest
      obtain ⟨hkind, rfl⟩ := Prod.mk.inj ht
      exact .more hkind (congrArg Prod.fst hcomma) (ih hargs)

namespace Lexer

/-- The kinds and lexemes of the line. -/
theorem lexes_externLine {name : String} {params : List String} (hname : isIdentifier name = true)
    (hparams : ∀ p ∈ params, isIdentifier p = true) :
    Lexes (externLine name params).toList
      ((.kwExtern, "extern") :: (.identifier, name) :: (.leftParen, "(") ::
        (List.intercalate [(.comma, ",")] (params.map fun p => [(Kind.identifier, p)]) ++
          [(.rightParen, ")")])) := by
  have hlist := (Lexes.intercalate fun p hp => Lexes.identifier (hparams p hp)).append
    (Lexeme.apart_cons (by decide) _) (Lexes.mark ')' [] .rightParen (by decide) .nil)
  have hhead := (Lexes.identifier hname).append (Lexeme.apart_cons (by decide) _)
    (Lexes.mark '(' [] .leftParen (by decide) hlist)
  have hline := (Lexes.keyword "extern" .kwExtern (by decide)).append
    (Lexeme.apart_cons (by decide) _) (Lexes.blank ' ' (by decide) hhead)
  simpa [externLine, String.toList_append, String.toList_intercalate] using hline

/-- **The line is lexed alike wherever it stands.** -/
theorem externTokens_scan (file : String) {name : String} {params : List String}
    (hname : isIdentifier name = true) (hparams : ∀ p ∈ params, isIdentifier p = true)
    (before : List Char) :
    ExternTokens params name
      ((scan (.between file before (externLine name params).toList)).map (·.token)) := by
  obtain ⟨tokens, hlexed, hshapes⟩ :=
    lexes_externLine hname hparams file before [] Lexeme.apart_nil
  obtain ⟨word, tokens, rfl, hword, hshapes⟩ := List.map_eq_cons_iff.mp hshapes
  obtain ⟨s, tokens, rfl, hs, hshapes⟩ := List.map_eq_cons_iff.mp hshapes
  obtain ⟨opener, tokens, rfl, hopener, hshapes⟩ := List.map_eq_cons_iff.mp hshapes
  obtain ⟨args, closing, rfl, hargs, hclosing⟩ := List.map_eq_append_iff.mp hshapes
  obtain ⟨closer, rfl, hcloser⟩ := List.map_eq_singleton_iff.mp hclosing
  obtain ⟨hkind, rfl⟩ := Prod.mk.inj hs
  have hspelled : ∀ ts : List Token, (ts.map fun t => Scanned.mk t true).map (·.token) = ts :=
    fun ts => by simp [Function.comp_def]
  rw [hlexed.scan_ending, List.map_append, hspelled, List.cons_append, List.cons_append,
    List.cons_append, List.append_assoc]
  exact .mk (congrArg Prod.fst hword) hkind (congrArg Prod.fst hopener)
    (paramTokens_of_shapes hargs) (congrArg Prod.fst hcloser) rfl

end Lexer

/-! ## The header of the line -/

namespace ParamTokens

variable {ps : List String} {args : List Token}

theorem kinds (h : ParamTokens ps args) : ∀ t ∈ args, t.kind = .identifier ∨ t.kind = .comma := by
  induction h with
  | nil => nofun
  | one hkind => simpa using Or.inl hkind
  | more hkind hcomma _ ih => simpa [hkind, hcomma] using ih

/-- Each parameter is a group of its own. -/
theorem joined (h : ParamTokens ps args) : ∃ names : List Token,
    Joined (names.map fun t => [t]) args ∧ (∀ t ∈ names, t.kind = .identifier) ∧
      names.map (·.lexeme) = ps := by
  induction h with
  | nil => exact ⟨[], .nil, nofun, rfl⟩
  | @one t hkind => exact ⟨[t], .one [t], by simpa using hkind, rfl⟩
  | @more q ps t comma ts hkind hcomma _ ih =>
    obtain ⟨names, hjoined, hkinds, hnames⟩ := ih
    cases names with
    | nil => cases hnames
    | cons u names =>
      refine ⟨t :: u :: names, .more [t] hcomma hjoined, ?_, by rw [← hnames]; rfl⟩
      exact List.forall_mem_cons.mpr ⟨hkind, hkinds⟩

/-- **The parameters are read as they are written**, all of type `double`. -/
theorem parameters_eq (h : ParamTokens ps args) {ts front behind : List Token} {opener : Token}
    (hts : ts = front ++ opener :: (args ++ behind)) :
    (params ts front.length (front.length + 1 + args.length)).map Param.toParameter =
      ps.map fun p => ⟨p, .double⟩ := by
  obtain ⟨names, hjoined, hkinds, rfl⟩ := h.joined
  have hread : names.filterMap (Param.ofTokens? ∘ fun t => [t]) =
      names.map fun t => ⟨t.lexeme, none, t.span⟩ :=
    List.filterMap_eq_map_iff_forall_eq_some.mpr fun t ht => if_pos (hkinds t ht)
  have hgroups : ∀ g ∈ names.map fun t => [t], g ≠ [] ∧ ∀ t ∈ g, t.kind.isItemPart = true := by
    intro g hg
    obtain ⟨t, ht, rfl⟩ := List.mem_map.mp hg
    simp [hkinds t ht, Kind.isItemPart, Kind.opensList, Kind.closesList, Kind.breaksList]
  rw [hjoined.params_list hgroups front behind opener hts, List.filterMap_map, hread, List.map_map,
    List.map_map]
  rfl

end ParamTokens

namespace ExternTokens

variable {name : String} {params : List String} {front ts : List Token}

theorem exists_word (h : ExternTokens params name ts) :
    ∃ word more, ts = word :: more ∧ word.kind = .kwExtern := by
  cases h with
  | mk hword => exact ⟨_, _, rfl, hword⟩

/-- The kinds of the first three tokens. -/
theorem kindAt_first (h : ExternTokens params name ts) :
    kindAt ts 0 = .kwExtern ∧ kindAt ts 1 = .identifier ∧ kindAt ts 2 = .leftParen := by
  cases h with
  | mk hword hname hopener => exact ⟨hword, hname, hopener⟩

/-- Behind the opening parenthesis stand names, commas, the closing one and the end. -/
theorem kindAt_behind (h : ExternTokens params name ts) (j : Nat) :
    kindAt ts (j + 3) ∈ [Kind.identifier, .comma, .rightParen, .eof] := by
  cases h with
  | @mk word name opener closer eof args _ _ _ hargs hcloser heof =>
    have htoken : kindAt (word :: name :: opener :: (args ++ [closer, eof])) (j + 3) =
        kindAt (args ++ [closer, eof]) j := rfl
    rw [htoken]
    by_cases hj : j < (args ++ [closer, eof]).length
    · have hmem := tokenAt_mem hj
      rw [kindAt]
      rcases List.mem_append.mp hmem with hmem | hmem
      · rcases hargs.kinds _ hmem with hk | hk <;> simp [hk]
      · rcases List.mem_cons.mp hmem with heq | hmem
        · simp [heq, hcloser]
        · simp [List.mem_singleton.mp hmem, heof]
    · simp [kindAt_of_length_le (Nat.le_of_not_lt hj)]

/-- **The line is read as the header of its name and parameters.** It reaches up to the end of the
document. -/
theorem exists_header (h : ExternTokens params name ts) (hts : EndsInEof (front ++ ts)) :
    ∃ header, externHeaderAt (front ++ ts) front.length = some header ∧ header.name = name ∧
      header.params.map Param.toParameter = params.map (fun p => ⟨p, .double⟩) ∧
      (front ++ ts).length = header.last + 2 := by
  cases h with
  | @mk word name opener closer eof args hword hname hopener hargs hcloser heof =>
    generalize hdoc : front ++ word :: name :: opener :: (args ++ [closer, eof]) = doc at hts ⊢
    have hlength : doc.length = front.length + 3 + args.length + 2 := by
      rw [← hdoc]
      simp only [List.length_append, List.length_cons, List.length_nil]
      omega
    have hparts : ∀ t ∈ args, t.kind.isListPart = true := by
      intro t ht
      rcases hargs.kinds t ht with hk | hk <;> rw [hk] <;> rfl
    have hann : annotationAt .arrow doc (front.length + 3 + args.length + 1) =
        (none, front.length + 3 + args.length + 1) := by
      have hend : kindAt doc (front.length + 3 + args.length + 1) = .eof :=
        hts.kindAt_eq_eof_iff.mpr (by omega)
      rw [annotationAt, hend, if_neg (by decide)]
    have hnamed := FnHeader.namedAt_list hdoc.symm hname hopener hparts hcloser hann
    rw [hword] at hnamed
    refine ⟨_, (externHeaderAt_eq_some_iff hts).mpr hnamed, rfl, ?_, hlength⟩
    have hsplit : doc = (front ++ [word, name]) ++ opener :: (args ++ [closer, eof]) := by
      rw [← hdoc, List.append_assoc]
      rfl
    simpa [Nat.add_assoc] using hargs.parameters_eq hsplit

end ExternTokens

end AuroraLint
