import AuroraLint.Proofs.Respelled.Types
import AuroraLint.Resolve.State

/-!
# Types of initial values

The type of an initial value is read off its text in the source, or off its lexemes with a blank
between any two. The two texts differ in what stands between their first and their last lexeme.

Main statements: `Ty.infer_between` — the type depends on the first character and the last lexeme
alone, since digits and names are read as far as they go and so no literal but a string has more
than one lexeme; `Document.inferExtent_eq_joinLexemes` — so the two texts of an extent are of one
type; `VarDecl.initial_types_agree` — a variable has the same type as a field would.
-/

set_option autoImplicit false

namespace AuroraLint

/-! ## Digits and names are read as far as they go -/

/-- What stands behind a run of maximal length does not go on with it. -/
theorem not_of_takeWhile_length {p : Char → Bool} {run rest : List Char}
    (hrun : ∀ d ∈ run, p d = true) (h : ((run ++ rest).takeWhile p).length = run.length) :
    ∀ q, rest.head? = some q → p q = false := by
  intro q hq
  obtain ⟨more, rfl⟩ := List.head?_eq_some_iff.mp hq
  rw [List.takeWhile_append_of_pos hrun, List.length_append] at h
  cases hp : p q with
  | false => rfl
  | true => simp [hp] at h

namespace Lexeme

variable {prev : Option Char} {c : Char} {tail rest : List Char}

/-- Behind a lexeme of digits stands no digit. -/
theorem digits_end (hmore : (read prev c (tail ++ rest)).more = tail.length)
    (hdigits : ∀ d ∈ c :: tail, d.isDigit = true) :
    ∀ q, rest.head? = some q → q.isDigit = false := by
  have hc := hdigits c List.mem_cons_self
  have htail := fun d hd => hdigits d (List.mem_cons_of_mem c hd)
  have hquote : c ≠ '"' := (plain_of_isDigit hc).1
  rw [read, if_neg hquote, if_pos hc] at hmore
  rcases number_cases (tail ++ rest) with hn | ⟨after, hpoint, hn⟩
  · rw [hn] at hmore
    exact not_of_takeWhile_length htail hmore
  · -- a lexeme with a point in it is not of digits alone
    rw [hn] at hmore
    have hle : digits (tail ++ rest) < tail.length := by
      simp only at hmore
      omega
    have hdot : '.' ∈ tail := by
      rw [List.drop_append_of_le_length (Nat.le_of_lt hle)] at hpoint
      have hne : tail.drop (digits (tail ++ rest)) ≠ [] := by
        simpa [List.drop_eq_nil_iff] using hle
      obtain ⟨d, ds, hds⟩ := List.exists_cons_of_ne_nil hne
      rw [hds, List.cons_append] at hpoint
      refine List.mem_of_mem_drop (i := digits (tail ++ rest)) ?_
      rw [hds, (List.cons.inj hpoint).1]
      exact List.mem_cons_self
    exact absurd (htail '.' hdot) (by decide)

/-- Behind a name or a reserved word stands nothing that names go on with. -/
theorem name_ends (hmore : (read prev c (tail ++ rest)).more = tail.length)
    (hc : isNameStart c = true) (htail : ∀ d ∈ tail, isNamePart d = true) :
    ∀ q, rest.head? = some q → isNamePart q = false := by
  rw [read_name hc] at hmore
  exact not_of_takeWhile_length htail hmore

/-- Neither digits nor a name go on from the lexeme into `rest`. -/
structure EndsBefore (c : Char) (tail rest : List Char) : Prop where
  digits : (∀ d ∈ c :: tail, d.isDigit = true) → ∀ q, rest.head? = some q → q.isDigit = false
  name : isNameStart c = true → (∀ d ∈ tail, isNamePart d = true) →
    ∀ q, rest.head? = some q → isNamePart q = false

/-- **A lexeme is read as far as it goes.** -/
theorem endsBefore_of_read (hmore : (read prev c (tail ++ rest)).more = tail.length) :
    EndsBefore c tail rest :=
  ⟨digits_end hmore, name_ends hmore⟩

theorem endsBefore_blank (c : Char) (tail rest : List Char) : EndsBefore c tail (' ' :: rest) := by
  constructor
  · rintro - q hq
    obtain rfl := Option.some.inj hq
    rfl
  · rintro - - q hq
    obtain rfl := Option.some.inj hq
    rfl

theorem EndsBefore.congr {rest' : List Char} (h : EndsBefore c tail rest)
    (hhead : rest'.head? = rest.head?) : EndsBefore c tail rest' :=
  ⟨fun hd => hhead ▸ h.digits hd, fun hc ht => hhead ▸ h.name hc ht⟩

end Lexeme

/-! ## Types by the first and the last lexeme -/

namespace Ty

variable {c d : Char} {tail more between tail' : List Char}

/-- Where a lexeme ends and something follows, the text is no literal but a string. -/
theorem inferTrimmed_behind (h : Lexeme.EndsBefore c tail more) (hne : more ≠ []) :
    inferTrimmed (c :: (tail ++ more)) =
      if isStringText (c :: (tail ++ more)) then .string else .double := by
  by_cases hstring : isStringText (c :: (tail ++ more)) = true
  · have hquote : c = '"' := by
      simp only [isStringText, List.head?_cons, Bool.and_eq_true, beq_iff_eq,
        Option.some.injEq] at hstring
      exact hstring.1.2
    exact inferTrimmed_of_foreign (List.mem_cons_self (a := c)) (by rw [hquote]; decide)
      (by rw [hquote]; decide)
  · obtain ⟨q, qs, rfl⟩ := List.exists_cons_of_ne_nil hne
    have hint : isIntText (c :: (tail ++ q :: qs)) = false := by
      rw [Bool.eq_false_iff]
      intro hall
      simp only [isIntText, List.isEmpty_cons, Bool.not_false, Bool.true_and,
        List.all_eq_true] at hall
      have hq := hall q (by simp)
      rw [h.digits (fun d hd => hall d (List.mem_append_left (q :: qs) hd)) q rfl] at hq
      cases hq
    have hword : ∀ word : List Char, word.head?.any isNameStart = true →
        word.all isNamePart = true → c :: (tail ++ q :: qs) ≠ word := by
      rintro word hstart hparts rfl
      have hparts' := List.all_eq_true.mp hparts
      have hq := hparts' q (by simp)
      rw [h.name hstart (fun d hd => hparts' d (by simp [hd])) q rfl] at hq
      cases hq
    have htrue := hword ['t', 'r', 'u', 'e'] (by decide) (by decide)
    have hfalse := hword ['f', 'a', 'l', 's', 'e'] (by decide) (by decide)
    have hnull := hword ['n', 'u', 'l', 'l'] (by decide) (by decide)
    simp [inferTrimmed, hint, htrue, hfalse, hnull, hstring]

/-- **The type of a text with two lexemes or more**: whatever stands between the first and the last
of them, it is a string if the first character and the last that is not blank are quotes, and else
`double` as any other expression. -/
theorem infer_between (h : Lexeme.EndsBefore c tail (between ++ d :: tail'))
    (hc : Text.isBlank c = false) (hd : Text.isBlank d = false) :
    infer (c :: (tail ++ (between ++ d :: tail'))) =
      if c = '"' ∧ (Text.trimEnd (d :: tail')).getLast? = some '"' then .string else .double := by
  have hne : Text.trimEnd (d :: tail') ≠ [] := by
    simpa [Text.trimEnd] using Text.dropWhile_blank_ne_nil hd
  have htrim : Text.trim (c :: (tail ++ (between ++ d :: tail'))) =
      c :: (tail ++ (between ++ Text.trimEnd (d :: tail'))) := by
    rw [Text.trim, Text.trimStart_of_head rfl hc, ← List.append_assoc, ← List.cons_append,
      Text.trimEnd_append_cons hd, List.cons_append, List.append_assoc]
  have hprefix := Text.trimEnd_prefix (d :: tail')
  rw [infer, htrim]
  generalize Text.trimEnd (d :: tail') = last at hne hprefix ⊢
  obtain ⟨e, es, rfl⟩ := List.exists_cons_of_ne_nil hne
  -- the blanks that are trimmed stand behind the first character of the last lexeme
  obtain rfl := (List.cons_prefix_cons.mp hprefix).1
  obtain ⟨q, hq⟩ := Option.isSome_iff_exists.mp (List.getLast?_isSome.mpr hne)
  have hend : (c :: (tail ++ (between ++ e :: es))).getLast? = some q := by
    simp [List.getLast?_cons, List.getLast?_append, hq]
  have hlen : 2 ≤ (c :: (tail ++ (between ++ e :: es))).length := by
    simp only [List.length_cons, List.length_append]
    omega
  have hstring : isStringText (c :: (tail ++ (between ++ e :: es))) = true ↔
      c = '"' ∧ (e :: es).getLast? = some '"' := by
    simp only [isStringText, hlen, decide_true, Bool.true_and, List.head?_cons, hend, hq,
      Bool.and_eq_true, beq_iff_eq, Option.some.injEq]
  rw [inferTrimmed_behind (h.congr (by cases between <;> rfl)) (by simp)]
  simp only [hstring]

end Ty

/-! ## Joined lexemes -/

theorem joinLexemes_cons_cons (t u : Token) (ts : List Token) :
    joinLexemes (t :: u :: ts) = t.lexeme.toList ++ ' ' :: joinLexemes (u :: ts) := by
  simp [joinLexemes]

/-- The last of some lexemes ends their joined text. -/
theorem exists_joinLexemes_concat (ts : List Token) (last : Token) :
    ∃ front, joinLexemes (ts ++ [last]) = front ++ last.lexeme.toList := by
  induction ts with
  | nil => exact ⟨[], by simp [joinLexemes]⟩
  | cons t ts ih =>
    obtain ⟨front, hfront⟩ := ih
    obtain ⟨u, us, hus⟩ := List.exists_cons_of_ne_nil (l := ts ++ [last]) (by simp)
    rw [hus] at hfront
    refine ⟨t.lexeme.toList ++ ' ' :: front, ?_⟩
    rw [List.cons_append, hus, joinLexemes_cons_cons, hfront]
    simp

/-- An extent of two tokens or more, with its first and its last one told apart. -/
theorem Extent.tokens_eq_cons_concat {ts : List Token} {e : Extent} (hlt : e.start + 1 < e.stop)
    (hstop : e.stop ≤ ts.length) :
    ∃ mid, e.tokens ts = tokenAt ts e.start :: (mid ++ [tokenAt ts (e.stop - 1)]) := by
  have hfirst : e.tokens ts = tokenAt ts e.start :: (e.tokens ts).tail := by
    rw [Extent.tokens, drop_eq_tokenAt_cons (by omega),
      show e.stop - e.start = e.stop - e.start - 1 + 1 by omega]
    rfl
  have hlen : (e.tokens ts).tail.length = e.stop - e.start - 1 := by
    simp only [Extent.tokens, List.length_tail, List.length_take, List.length_drop]
    omega
  have hne : (e.tokens ts).tail ≠ [] := by
    intro hnil
    rw [hnil] at hlen
    simp at hlen
    omega
  have hlast : (e.tokens ts).tail.getLast hne = tokenAt ts (e.stop - 1) := by
    rw [List.getLast_eq_getElem, tokenAt_eq_getElem (show e.stop - 1 < ts.length by omega)]
    simp only [Extent.tokens, List.getElem_tail, List.getElem_take, List.getElem_drop,
      List.length_tail, List.length_take, List.length_drop]
    congr 1
    omega
  refine ⟨(e.tokens ts).tail.dropLast, ?_⟩
  rw [← hlast, List.dropLast_concat_getLast hne]
  exact hfirst

/-- The joined lexemes of two tokens or more: the first, a blank, and at the end the last. -/
theorem exists_joinLexemes_extent {ts : List Token} {e : Extent} (hlt : e.start + 1 < e.stop)
    (hstop : e.stop ≤ ts.length) :
    ∃ front, joinLexemes (e.tokens ts) = (tokenAt ts e.start).lexeme.toList ++
      ' ' :: (front ++ (tokenAt ts (e.stop - 1)).lexeme.toList) := by
  obtain ⟨mid, htokens⟩ := Extent.tokens_eq_cons_concat hlt hstop
  obtain ⟨u, us, hus⟩ := List.exists_cons_of_ne_nil (l := mid ++ [tokenAt ts (e.stop - 1)]) (by simp)
  obtain ⟨front, hfront⟩ := exists_joinLexemes_concat mid (tokenAt ts (e.stop - 1))
  refine ⟨front, ?_⟩
  rw [htokens, hus, joinLexemes_cons_cons, ← hus, hfront]

/-- The joined lexemes of one token. -/
theorem joinLexemes_extent_of_one {ts : List Token} {e : Extent} (heq : e.start + 1 = e.stop)
    (hstop : e.stop ≤ ts.length) :
    joinLexemes (e.tokens ts) = (tokenAt ts e.start).lexeme.toList := by
  have htokens : e.tokens ts = [tokenAt ts e.start] := by
    rw [Extent.tokens, drop_eq_tokenAt_cons (by omega), show e.stop - e.start = 1 by omega]
    rfl
  simp [htokens, joinLexemes]

/-! ## The two texts of an extent -/

section Extents

variable {uri text : String} {e : Extent} {before front tail tail' rest rest' : List Char}
  {c d : Char} {lexeme lexeme' : Lexeme}

/-- Behind the first lexeme of an extent the source goes on with something, and then the last. -/
theorem endsBefore_of_spells (hfirst : Lexer.Spells text.toList before c tail lexeme)
    (hlast : Lexer.Spells text.toList (before ++ front) d tail' lexeme')
    (hord : Text.byteSize (before ++ c :: tail) ≤ Text.byteSize (before ++ front)) :
    ∃ between, front = c :: tail ++ between ∧
      Lexeme.EndsBefore c tail (between ++ d :: tail') := by
  obtain ⟨rest, htext, hread⟩ := hfirst.text_eq
  obtain ⟨rest', htext', _⟩ := hlast.text_eq
  obtain ⟨between, rfl⟩ : c :: tail <+: front :=
    (List.prefix_append_right_inj before).mp
      (Text.prefix_of_byteSize_le hfirst.prefix_text ⟨_, htext'.symm⟩ hord)
  have hrest : rest = (between ++ d :: tail') ++ rest' := by
    rw [htext] at htext'
    simpa using htext'
  have hmore : (Lexeme.read (lastOnLine before) c (tail ++ rest)).more = tail.length := by
    rw [hread, hfirst.more_eq]
  refine ⟨between, rfl, (Lexeme.endsBefore_of_read hmore).congr ?_⟩
  rw [hrest]
  cases between <;> rfl

/-- **The text of an extent in the source and its joined lexemes are of one type.** -/
theorem Document.inferExtent_eq_joinLexemes (hlt : e.start < e.stop)
    (hstop : e.stop < (ofText uri text).tokens.length) :
    ((ofText uri text).inferExtent e).1 =
      Ty.infer (joinLexemes (e.tokens (ofText uri text).tokens)) := by
  have hstream := streamed_ofText uri text
  obtain ⟨before, c, tail, lexeme, hfirst, htoken⟩ :=
    hstream.spelled_tokenAt (i := e.start) (by omega)
  obtain ⟨before', d, tail', lexeme', hlast, htoken'⟩ :=
    hstream.spelled_tokenAt (i := e.stop - 1) (by omega)
  obtain ⟨rest, htext, _⟩ := hfirst.text_eq
  obtain ⟨rest', htext', _⟩ := hlast.text_eq
  obtain ⟨front, rfl, htype⟩ := @inferExtent_fst _ _ _ hlt hstop before (c :: tail) before'
    (d :: tail') rest rest' lexeme lexeme' htext htoken htext' htoken'
  have hfirstText : (tokenAt (ofText uri text).tokens e.start).lexeme.toList = c :: tail := by
    rw [htoken]
    exact String.toList_ofList
  have hlastText : (tokenAt (ofText uri text).tokens (e.stop - 1)).lexeme.toList = d :: tail' := by
    rw [htoken']
    exact String.toList_ofList
  rw [htype]
  rcases Nat.lt_or_eq_of_le (show e.start + 1 ≤ e.stop from hlt) with hmany | hone
  · have hord := List.pairwise_iff_getElem.mp hstream.ordered e.start (e.stop - 1) (by omega)
      (by omega) (by omega)
    rw [← tokenAt_eq_getElem, ← tokenAt_eq_getElem, htoken, htoken'] at hord
    obtain ⟨between, rfl, hends⟩ := endsBefore_of_spells hfirst hlast hord
    obtain ⟨joined, hjoined⟩ := exists_joinLexemes_extent hmany (Nat.le_of_lt hstop)
    have hsourceType := Ty.infer_between hends hfirst.not_blank hlast.not_blank
    have hblank : Lexeme.EndsBefore c tail ((' ' :: joined) ++ d :: tail') :=
      Lexeme.endsBefore_blank c tail (joined ++ d :: tail')
    have hjoinedType := Ty.infer_between hblank hfirst.not_blank hlast.not_blank
    rw [hjoined, hfirstText, hlastText]
    simp only [List.cons_append, List.append_assoc] at hsourceType hjoinedType ⊢
    rw [hsourceType, hjoinedType]
  · have hindex : e.stop - 1 = e.start := by omega
    have hfront : front = [] := by
      rw [hindex, htoken] at htoken'
      have hsize : Text.byteSize before = Text.byteSize (before ++ front) :=
        congrArg (·.span.start.offset) htoken'
      rw [Text.byteSize_append] at hsize
      by_contra hne
      have := Text.byteSize_pos hne
      omega
    rw [joinLexemes_extent_of_one hone (Nat.le_of_lt hstop), ← hindex, hlastText, hfront]
    rfl

end Extents

/-! ## Initial values -/

namespace VarDecl

/-- **A variable and a field with the same declaration have the same type.** The initial value of
every declaration that is found has a text in the source. The type of that text, which is the
variable's, is the type of its joined lexemes, which is the field's. -/
theorem initial_types_agree (uri text : String) (i : Nat) (d : VarDecl) (e : Extent)
    (hd : varDeclAt (Document.ofText uri text).tokens i = some d) (he : d.init = some e) :
    let doc := Document.ofText uri text
    let span := e.span doc.tokens
    (∃ written, doc.source.slice? span.start span.stop = some written ∧
      Ty.infer written = Ty.infer (joinLexemes (e.tokens doc.tokens))) ∧
    Resolve.declaredType doc d = d.fieldType doc.tokens := by
  intro doc span
  have hstream : doc.Streamed := Document.streamed_ofText uri text
  obtain ⟨stop, hread⟩ := (varDeclAt_eq_some_iff hstream.endsInEof).mp hd
  obtain ⟨_, hlt, hstop⟩ := hread.init_bounds hstream.endsInEof he
  have htypes : (doc.inferExtent e).1 = Ty.infer (joinLexemes (e.tokens doc.tokens)) :=
    Document.inferExtent_eq_joinLexemes hlt hstop
  constructor
  · obtain ⟨written, hwritten⟩ := (hstream.extent_real hlt hstop).exists_slice?
    refine ⟨written, hwritten, ?_⟩
    rw [← htypes, Document.inferExtent, Source.slice, hwritten]
    rfl
  · unfold Resolve.declaredType fieldType
    rw [he]
    cases d.type with
    | some t => rfl
    | none => exact htypes

/-- Two strings with no blank between them, and behind them blanks and a comment. -/
theorem initial_types_agree_strings :
    let doc := Document.ofText "m" "let s = \"a\"+\"b\"  # c"
    ∃ d e, varDeclAt doc.tokens 0 = some d ∧ d.init = some e ∧
      (∃ written, doc.source.slice? (e.span doc.tokens).start (e.span doc.tokens).stop =
          some written ∧
        Ty.infer written = Ty.infer (joinLexemes (e.tokens doc.tokens))) ∧
      Resolve.declaredType doc d = d.fieldType doc.tokens := by
  intro doc
  have hfound : ((varDeclAt doc.tokens 0).bind (·.init)).isSome = true := by decide +kernel
  obtain ⟨e, hinit⟩ := Option.isSome_iff_exists.mp hfound
  obtain ⟨d, hd, he⟩ := Option.bind_eq_some_iff.mp hinit
  exact ⟨d, e, hd, he, initial_types_agree "m" "let s = \"a\"+\"b\"  # c" 0 d e hd he⟩

end VarDecl

end AuroraLint
