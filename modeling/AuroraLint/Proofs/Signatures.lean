import AuroraLint.Proofs.Continued.Symbols
import AuroraLint.Proofs.Stream
import AuroraLint.Proofs.Symbols
import AuroraLint.Proofs.Written

/-!
# Signatures that go through a source text

A document that is the declaration of one function is collected as the signature of that function.

* `Written.Header.functionText` : the declaration with an empty body.
* `Written.Header.externalText` : the declaration as an external function, without a body.
* `Written.Header.signature`    : the entry of the symbol table that the header stands for.

Main statement: `Written.Header.signature_collected`. The declaration is the only one of its document
(`declarations_eq_singleton`), and what was read is the signature that was written
(`Written.Header.ReadAs.signature_eq`).
-/

set_option autoImplicit false

namespace AuroraLint

/-- The only declaration of a document is the one at its start. -/
theorem declarations_eq_singleton {ts : List Token} {d : Declaration} {last : Nat}
    (hpos : ts ≠ []) (hfirst : declarationAt ts 0 = some (d, last))
    (hquiet : ∀ j, last < j → declarationAt ts j = none) : declarations ts = [d] := by
  obtain ⟨t, rest, hts⟩ := List.exists_cons_of_ne_nil hpos
  have hrest : declarationsFrom ts (last + 1) 1 rest = [] := by
    refine declarationsFrom_eq_nil fun j _ _ => ?_
    rcases Nat.lt_or_ge j (last + 1) with hlt | hge
    · exact .inl hlt
    · exact .inr (hquiet j hge)
  have hwalk : declarationsFrom ts 0 0 (t :: rest) = [d] := by
    rw [declarationsFrom, if_neg (Nat.lt_irrefl 0), hfirst]
    exact congrArg (d :: ·) hrest
  rw [declarations]
  rwa [← hts] at hwalk

/-- No declaration starts at any other word. -/
theorem declarationAt_eq_none {ts : List Token} {i : Nat}
    (h : kindAt ts i ∉ [Kind.kwFn, .kwExtern, .kwClass]) : declarationAt ts i = none := by
  simp only [List.mem_cons, List.not_mem_nil, or_false, not_or] at h
  unfold declarationAt
  split
  · rename_i hk
    exact absurd hk h.2.1
  · rename_i hk
    exact absurd hk h.1
  · rename_i hk
    exact absurd hk h.2.2
  · rfl

namespace SymbolTable

/-- No document declares a built-in function, so each can be declared. -/
theorem builtins_addFunction (h : FnHeader) (s : Signature) :
    builtins.addFunction h s = (builtins.withFunction h.name s, []) := by
  have hnone : (builtins.function? h.name).bind (·.declaredAt) = none := by
    rw [holds_builtins.functions, declaredAt_firstFunction?]
    rfl
  rw [addFunction, hnone]
  rfl

end SymbolTable

namespace Written.Header

/-- The declaration of a function with an empty body. -/
def functionText (h : Header) : String :=
  "fn " ++ h.text ++ " \x7b\n\x7d"

/-- The declaration of an external function. -/
def externalText (h : Header) : String :=
  "extern " ++ h.text

/-- The signature that the header declares. -/
def signature (h : Header) (fallback : Ty) (origin : Origin) (declaredAt : Span) : Signature where
  name := h.name.word
  params := h.params.map Param.declared
  returnType := h.returnType fallback
  origin := origin
  declaredAt := some declaredAt

theorem ReadAs.signature_eq {h : Header} {header : FnHeader} (hread : h.ReadAs header)
    (fallback : Ty) (origin : Origin) :
    header.signature fallback origin = h.signature fallback origin header.span := by
  simp only [FnHeader.signature, signature, hread.name_eq, hread.params_eq, hread.returnType_eq]

/-- The two forms of a declaration: its first word, the return type where none is written, and where
the function comes from. -/
def forms : List (Kind × Ty × Origin) :=
  [(.kwFn, .void, .function), (.kwExtern, .double, .external)]

/-- **A declaration that no other follows is collected as its signature**, without a diagnostic. -/
theorem collect_eq (h : Header) {ts inner behind : List Token} {word : Token}
    (hts : ts = word :: (inner ++ behind)) (hinner : inner.map Token.shape = h.shapes)
    (hend : EndsInEof ts) (hreturn : kindAt behind 0 ≠ .arrow ∧ kindAt behind 0 ≠ .question)
    (hquiet : ∀ t ∈ behind, t.kind ∉ [Kind.kwFn, .kwExtern, .kwClass]) {fallback : Ty}
    {origin : Origin} (hform : (word.kind, fallback, origin) ∈ forms) :
    ∃ last : Token, SymbolTable.collect ts =
      (SymbolTable.builtins.withFunction h.name.word
        (h.signature fallback origin (word.span.merge last.span)), []) := by
  obtain ⟨header, hnamed, hread, hlast⟩ := h.exists_named [] hinner hts hreturn
  rw [List.length_nil, Nat.zero_add] at hlast
  rw [List.length_nil] at hnamed
  have hpos : ts ≠ [] := by
    rw [hts]
    exact List.cons_ne_nil _ _
  have hnone : ∀ j, header.last < j → declarationAt ts j = none := by
    intro j hj
    refine declarationAt_eq_none ?_
    obtain ⟨n, rfl⟩ : ∃ n, j = (word :: inner).length + n :=
      ⟨j - (inner.length + 1), by rw [List.length_cons]; omega⟩
    have hkind : kindAt ts ((word :: inner).length + n) = kindAt behind n := by
      rw [hts, ← List.cons_append, kindAt_append_right]
    rw [hkind]
    by_cases hn : n < behind.length
    · exact hquiet _ (tokenAt_mem hn)
    · rw [kindAt_of_length_le (Nat.le_of_not_lt hn)]
      decide
  have hspan : header.span = word.span.merge (tokenAt ts header.last).span := by
    rw [hnamed.readAt.span_eq, hts]
    rfl
  have hadd : SymbolTable.builtins.addFunction header (header.signature fallback origin) =
      (SymbolTable.builtins.withFunction h.name.word
        (h.signature fallback origin (word.span.merge (tokenAt ts header.last).span)), []) := by
    rw [SymbolTable.builtins_addFunction, hread.name_eq, hread.signature_eq, hspan]
  -- the two forms are added alike
  have hcollect : ∀ d, declarationAt ts 0 = some (d, header.last) →
      SymbolTable.builtins.add d =
        SymbolTable.builtins.addFunction header (header.signature fallback origin) →
      SymbolTable.collect ts = (SymbolTable.builtins.withFunction h.name.word
        (h.signature fallback origin (word.span.merge (tokenAt ts header.last).span)), []) := by
    intro d hfirst hd
    rw [SymbolTable.collect, declarations_eq_singleton hpos hfirst hnone]
    simp only [SymbolTable.addAll, hd, hadd, List.append_nil]
  refine ⟨tokenAt ts header.last, ?_⟩
  simp only [forms, List.mem_cons, Prod.mk.injEq, List.not_mem_nil, or_false] at hform
  rcases hform with ⟨hkind, rfl, rfl⟩ | ⟨hkind, rfl, rfl⟩
  · rw [hkind] at hnamed
    refine hcollect (.function header) ?_ rfl
    rw [declarationAt, hnamed.word_kind]
    simp only [(fnHeaderAt_eq_some_iff hend).mpr hnamed, Option.map_some]
  · rw [hkind] at hnamed
    refine hcollect (.external header) ?_ rfl
    rw [declarationAt, hnamed.word_kind]
    simp only [(externHeaderAt_eq_some_iff hend).mpr hnamed, Option.map_some]

/-- What starts at the start of a document is on its first line. -/
theorem line_merge_first (file : String) (k : Kind) (text : List Char) (s : Span) :
    ((Lexer.spelled file [] k text).span.merge s).line = 1 := by
  have hstart : ((Lexer.spelled file [] k text).span.merge s).start = .ofFront [] := by
    rw [Span.merge, if_pos (by exact Nat.zero_le _)]
    rfl
  rw [Span.line, hstart]
  rfl

/-- The document of a declaration with a text behind it that declares nothing. -/
theorem collect_ofText (h : Header) {word : String} {k : Kind} {fallback : Ty} {origin : Origin}
    (behind : String) (hword : (word, k) ∈ Kind.keywords) (hform : (k, fallback, origin) ∈ forms)
    {shapes : List (Kind × String)} (hbehind : Lexer.Lexes behind.toList shapes)
    (happart : Lexeme.Apart behind.toList)
    (hreturn : ∀ s, shapes.head? = some s → s.1 ≠ .arrow ∧ s.1 ≠ .question)
    (hquiet : ∀ s ∈ shapes, s.1 ∉ [Kind.kwFn, .kwExtern, .kwClass]) (uri : String) :
    ∃ span : Span, span.line = 1 ∧
      SymbolTable.collect (Document.ofText uri (word ++ " " ++ h.text ++ behind)).tokens =
        (SymbolTable.builtins.withFunction h.name.word (h.signature fallback origin span), []) := by
  obtain ⟨tokens, htokens, rfl⟩ := hbehind uri (word ++ " " ++ h.text).toList []
    Lexeme.apart_nil
  obtain ⟨inner, hlexed, hinner⟩ := h.exists_lexed hword htokens
    (by rw [List.append_nil]; exact happart)
  rw [← String.toList_append] at hlexed
  obtain ⟨eof, htokenize, heof⟩ := hlexed.tokenize
  have hts : (Document.ofText uri (word ++ " " ++ h.text ++ behind)).tokens =
      Lexer.spelled uri [] k word.toList :: (inner ++ (tokens ++ [eof])) := by
    rw [Document.ofText, htokenize, List.cons_append, List.append_assoc]
  have hnext : kindAt (tokens ++ [eof]) 0 ≠ .arrow ∧ kindAt (tokens ++ [eof]) 0 ≠ .question := by
    cases tokens with
    | nil => exact ⟨by simp [kindAt, tokenAt, heof], by simp [kindAt, tokenAt, heof]⟩
    | cons t tokens => exact hreturn t.shape rfl
  have hnone : ∀ t ∈ tokens ++ [eof], t.kind ∉ [Kind.kwFn, .kwExtern, .kwClass] := by
    intro t ht
    rcases List.mem_append.mp ht with ht | ht
    · exact hquiet t.shape (List.mem_map_of_mem ht)
    · rw [List.mem_singleton.mp ht, heof]
      decide
  obtain ⟨last, hcollect⟩ :=
    h.collect_eq hts hinner (Document.streamed_ofText ..).endsInEof hnext hnone hform
  exact ⟨_, line_merge_first .., hcollect⟩

/-- **Declared signatures survive the round trip through source text.** The declaration of a function,
and of an external one, is collected without a diagnostic; the entry of its name in the table of
functions has the parameters, the return type and the origin that were written, and stands on
line 1; under every other name stands what stands there without declarations. -/
theorem signature_collected (h : Header) (uri : String) :
    let functions := SymbolTable.collect (Document.ofText uri h.functionText).tokens
    let externals := SymbolTable.collect (Document.ofText uri h.externalText).tokens
    (functions.2 = [] ∧
      (∃ span : Span, span.line = 1 ∧ functions.1.function? h.name.word =
        some (h.signature .void .function span)) ∧
      ∀ other ≠ h.name.word,
        functions.1.function? other = SymbolTable.builtins.function? other) ∧
    (externals.2 = [] ∧
      (∃ span : Span, span.line = 1 ∧ externals.1.function? h.name.word =
        some (h.signature .double .external span)) ∧
      ∀ other ≠ h.name.word,
        externals.1.function? other = SymbolTable.builtins.function? other) := by
  have hbody : Lexer.Lexes " \x7b\n\x7d".toList [(.leftBrace, "\x7b"), (.rightBrace, "\x7d")] := by
    have hclose := Lexer.Lexes.mark '}' [] .rightBrace (by decide) .nil
    have hopen := Lexer.Lexes.mark '{' [] .leftBrace (by decide) (hclose.blank '\n' (by decide))
    simpa using hopen.blank ' ' (by decide)
  have hfn : (Kind.kwFn, Ty.void, Origin.function) ∈ forms := by decide
  have hextern : (Kind.kwExtern, Ty.double, Origin.external) ∈ forms := by decide
  obtain ⟨span, hline, hfunctions⟩ := h.collect_ofText " \x7b\n\x7d" (show ("fn", _) ∈ _ by decide)
    hfn hbody (by simpa using Lexeme.apart_cons (by decide) _) (by simp) (by simp) uri
  obtain ⟨span', hline', hexternals⟩ := h.collect_ofText "" (show ("extern", _) ∈ _ by decide)
    hextern .nil Lexeme.apart_nil nofun nofun uri
  have hlookup : ∀ (s : Signature) (other : String),
      (SymbolTable.builtins.withFunction h.name.word s).function? other =
        if h.name.word = other then some s else SymbolTable.builtins.function? other :=
    fun s other => SymbolTable.function?_insert SymbolTable.builtins h.name.word other s
  rw [String.append_empty] at hexternals
  intro functions externals
  have hf : functions = _ := hfunctions
  have he : externals = _ := hexternals
  rw [hf, he]
  refine ⟨⟨rfl, ⟨span, hline, ?_⟩, fun other hne => ?_⟩, rfl, ⟨span', hline', ?_⟩,
    fun other hne => ?_⟩
  · rw [hlookup, if_pos rfl]
  · rw [hlookup, if_neg hne.symm]
  · rw [hlookup, if_pos rfl]
  · rw [hlookup, if_neg hne.symm]

end Written.Header

end AuroraLint
