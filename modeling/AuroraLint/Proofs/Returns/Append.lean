import AuroraLint.Proofs.Embedded
import AuroraLint.Proofs.Stream
import AuroraLint.Returns

/-!
# Return statements of two texts

A text whose brackets are balanced and that ends with a block is finished: whatever is written below
it, its functions are judged alike. Nor has the text below anything to do with what stands above.

* `Document.Embedded` : a document in a larger one, with lines that end at the same columns.

Main statements: `Source.lineEnd_append_left` and `Source.lineEnd_append_right` — the lines of two
texts with a line feed between them; `Document.Embedded.checkAt` — a function has the same errors in
the larger document; `Returns.check_append_line` — the errors of two texts are those of both.
-/

set_option autoImplicit false

namespace AuroraLint

/-! ## Lines of two texts -/

namespace Text

theorem rawLines_append_line (above below : List Char) :
    rawLines (above ++ '\n' :: below) = rawLines above ++ rawLines below := by
  induction above with
  | nil => simp [rawLines]
  | cons c above ih =>
    rw [List.cons_append, rawLines, rawLines, ih]
    split
    · rfl
    · cases hl : rawLines above with
      | nil => exact absurd hl (rawLines_ne_nil above)
      | cons line rest => rfl

end Text

namespace Source

theorem bytesOfLines_append_left {n : Nat} {front : List (List Char)} (hn : n ≤ front.length)
    (back : List (List Char)) : bytesOfLines n (front ++ back) = bytesOfLines n front := by
  induction front generalizing n with
  | nil =>
    obtain rfl : n = 0 := by simpa using hn
    simp [bytesOfLines]
  | cons line front ih =>
    cases n with
    | zero => simp [bytesOfLines]
    | succ n => simp only [List.cons_append, bytesOfLines, ih (Nat.le_of_succ_le_succ hn)]

theorem bytesOfLines_append_right (front back : List (List Char)) (n : Nat) :
    bytesOfLines (front.length + n) (front ++ back) =
      bytesOfLines front.length front + bytesOfLines n back := by
  induction front with
  | nil => simp [bytesOfLines]
  | cons line front ih =>
    rw [List.length_cons, Nat.add_right_comm, List.cons_append, bytesOfLines, bytesOfLines, ih]
    omega

/-- All lines, each with a line feed, take one byte more than the text. -/
theorem bytesOfLines_rawLines (text : List Char) :
    bytesOfLines (Text.rawLines text).length (Text.rawLines text) = Text.byteSize text + 1 := by
  induction text with
  | nil => rfl
  | cons c text ih =>
    rw [Text.rawLines]
    split
    · rename_i hc
      rw [List.length_cons, bytesOfLines, ih, hc, Text.byteSize_cons, Text.utf8Size_newline,
        Text.byteSize_nil]
      omega
    · cases hl : Text.rawLines text with
      | nil => exact absurd hl (Text.rawLines_ne_nil text)
      | cons line rest =>
        rw [hl] at ih
        simp only [List.length_cons, bytesOfLines, Text.byteSize_cons] at ih ⊢
        omega

variable (uri : String) (above below : String)

theorem rawLines_append_line :
    (Source.mk uri (above ++ "\n" ++ below)).rawLines =
      (Source.mk uri above).rawLines ++ (Source.mk uri below).rawLines := by
  have htext : (above ++ "\n" ++ below).toList = above.toList ++ '\n' :: below.toList := by
    simp [String.toList_append]
  rw [rawLines, chars, htext, Text.rawLines_append_line]
  rfl

/-- **The lines of the upper text end where they did.** -/
theorem lineEnd_append_left {n : Nat} (hpos : 1 ≤ n) (hn : n ≤ above.toList.count '\n' + 1) :
    (Source.mk uri (above ++ "\n" ++ below)).lineEnd n = (Source.mk uri above).lineEnd n := by
  obtain ⟨n, rfl⟩ : ∃ m, n = m + 1 := ⟨n - 1, by omega⟩
  have hlen : n < (Source.mk uri above).rawLines.length := by
    rw [rawLines, Text.length_rawLines]
    exact hn
  have hline : (Source.mk uri (above ++ "\n" ++ below)).line? (n + 1) =
      (Source.mk uri above).line? (n + 1) := by
    rw [line?, rawLine?, rawLines_append_line, List.getElem?_append_left hlen]
    rfl
  have hsome : ((Source.mk uri above).line? (n + 1)).isSome := by
    simp [line?, rawLine?, hlen]
  have hstart : (Source.mk uri (above ++ "\n" ++ below)).lineStart (n + 1) =
      (Source.mk uri above).lineStart (n + 1) := by
    rw [lineStart, rawLines_append_line, bytesOfLines_append_left (by simp; omega)]
    rfl
  obtain ⟨row, hrow⟩ := Option.isSome_iff_exists.mp hsome
  simp only [lineEnd, position?, lineLength, hline, hrow, hstart, Option.map_some,
    Option.getD_some]

/-- **The lines of the lower text end further down.** -/
theorem lineEnd_append_right {n : Nat} (hpos : 1 ≤ n) :
    (Source.mk uri (above ++ "\n" ++ below)).lineEnd (n + (above.toList.count '\n' + 1)) =
      ((Source.mk uri below).lineEnd n).down (above.toList.count '\n' + 1)
        (Text.byteSize above.toList + 1) := by
  obtain ⟨n, rfl⟩ : ∃ m, n = m + 1 := ⟨n - 1, by omega⟩
  have hlen : (Source.mk uri above).rawLines.length = above.toList.count '\n' + 1 :=
    Text.length_rawLines _
  rw [← hlen]
  have hline : (Source.mk uri (above ++ "\n" ++ below)).line?
      (n + 1 + (Source.mk uri above).rawLines.length) = (Source.mk uri below).line? (n + 1) := by
    rw [Nat.add_right_comm, line?, rawLine?, rawLines_append_line,
      List.getElem?_append_right (Nat.le_add_left ..), Nat.add_sub_cancel]
    rfl
  have hstart : (Source.mk uri (above ++ "\n" ++ below)).lineStart
      (n + 1 + (Source.mk uri above).rawLines.length) =
        (Source.mk uri below).lineStart (n + 1) + (Text.byteSize above.toList + 1) := by
    have hindex : n + 1 + (Source.mk uri above).rawLines.length - 1 =
        (Source.mk uri above).rawLines.length + n := by omega
    have habove : bytesOfLines (Source.mk uri above).rawLines.length
        (Source.mk uri above).rawLines = Text.byteSize above.toList + 1 :=
      bytesOfLines_rawLines above.toList
    rw [lineStart, rawLines_append_line, hindex, bytesOfLines_append_right, habove, Nat.add_comm]
    rfl
  have hsize : (Source.mk uri (above ++ "\n" ++ below)).byteSize =
      (Source.mk uri below).byteSize + (Text.byteSize above.toList + 1) := by
    have hnewline : Text.byteSize ("\n" : String).toList = 1 := by decide
    simp only [byteSize, chars, String.toList_append, Text.byteSize_append, hnewline]
    omega
  simp only [lineEnd, position?, lineLength, hline, hstart, hsize]
  cases (Source.mk uri below).line? (n + 1) with
  | none => rfl
  | some row =>
    simp only [Option.map_some, Option.getD_some, Position.down, Position.mk.injEq, true_and]
    omega

end Source

/-! ## Documents in larger ones -/

/-- The first tokens of a document stand in a larger one, on lines that end at the same columns. -/
structure Document.Embedded (lines bytes skipped : Nat) (part : List Token) (doc doc' : Document) :
    Prop where
  tokens : AuroraLint.Embedded lines bytes skipped part doc.tokens doc'.tokens
  name_eq : doc'.source.name = doc.source.name
  lineEnd_eq : ∀ i, i + 1 < part.length →
    doc'.source.lineEnd ((doc.token i).line + lines) =
      (doc.source.lineEnd (doc.token i).line).down lines bytes

namespace Document.Embedded

variable {lines bytes skipped : Nat} {part : List Token} {doc doc' : Document} {i : Nat}

theorem hasValue (h : doc.Embedded lines bytes skipped part doc') (hi : i + 1 < part.length) :
    Returns.hasValue doc' (skipped + i) = Returns.hasValue doc i := by
  have hkind : doc'.kind (skipped + i + 1) = doc.kind (i + 1) := h.tokens.kindAt hi
  rw [Returns.hasValue, Returns.hasValue, h.tokens.endsLine hi, hkind]

theorem checkReturn (h : doc.Embedded lines bytes skipped part doc') (name : String)
    (returnType : Ty) (hi : i + 1 < part.length) :
    Returns.checkReturn doc' name returnType (skipped + i) =
      (Returns.checkReturn doc name returnType i).map (Diagnostic.down lines bytes) := by
  have htoken : doc'.token (skipped + i) = (doc.token i).down lines bytes :=
    h.tokens.tokenAt (by omega)
  have hend : doc'.source.toLineEnd (doc'.token (skipped + i)).span.start =
      (doc.source.toLineEnd (doc.token i).span.start).down lines bytes := by
    have hline := h.lineEnd_eq i hi
    rw [htoken, Source.toLineEnd, Source.toLineEnd, Source.span, Source.span, h.name_eq]
    exact congrArg (Span.mk _ _) hline
  unfold Returns.checkReturn
  rw [h.hasValue hi, hend, htoken]
  split <;> rfl

theorem returnsBetween (h : doc.Embedded lines bytes skipped part doc') {opener closer : Nat}
    (hcloser : closer < part.length) :
    Returns.returnsBetween doc' (skipped + opener) (skipped + closer) =
      (Returns.returnsBetween doc opener closer).map (skipped + ·) := by
  have hlength : skipped + closer - (skipped + opener + 1) = closer - (opener + 1) := by omega
  rw [Returns.returnsBetween, Returns.returnsBetween, hlength, Nat.add_assoc,
    ← List.map_add_range', List.filter_map]
  congr 1
  refine List.filter_congr fun i hi => ?_
  have hbounds := List.mem_range'_1.mp hi
  have hkind : doc'.kind (skipped + i) = doc.kind i := h.tokens.kindAt (by omega)
  rw [Function.comp_apply, hkind]

theorem checkFunction (h : doc.Embedded lines bytes skipped part doc') (header : FnHeader)
    {body : Nat} (hopen : doc.kind body = .leftBrace) (hbody : body < part.length) :
    Returns.checkFunction doc' (header.down lines bytes skipped) (skipped + body) =
      (Returns.checkFunction doc header body).map (Diagnostic.down lines bytes) := by
  obtain ⟨hend, hlt⟩ := h.tokens.blockEnd hopen hbody
  have hname : (header.down lines bytes skipped).name = header.name := rfl
  have hreturn : TypeRef.typeOr (header.down lines bytes skipped).returnType .void =
      TypeRef.typeOr header.returnType .void := by
    rw [FnHeader.down]
    cases header.returnType <;> rfl
  have hreturns : ((Returns.returnsBetween doc body (blockEnd doc.tokens body)).map
      (skipped + ·)).filterMap (Returns.checkReturn doc' header.name
        (TypeRef.typeOr header.returnType .void)) =
      ((Returns.returnsBetween doc body (blockEnd doc.tokens body)).filterMap
        (Returns.checkReturn doc header.name (TypeRef.typeOr header.returnType .void))).map
          (Diagnostic.down lines bytes) := by
    rw [List.filterMap_map, List.map_filterMap]
    refine List.filterMap_congr fun i hi => ?_
    have hbounds := List.mem_range'_1.mp (List.mem_filter.mp hi).1
    exact h.checkReturn _ _ (by omega)
  simp only [Returns.checkFunction, hend, h.returnsBetween hlt, hname, hreturn, hreturns,
    List.isEmpty_map, List.map_append]
  split <;> rfl

/-- **A function has the same errors in the larger document**, further down. -/
theorem checkAt (h : doc.Embedded lines bytes skipped part doc') (hi : i < part.length) :
    Returns.checkAt doc' (skipped + i) =
      (Returns.checkAt doc i).map (Diagnostic.down lines bytes) := by
  unfold Returns.checkAt
  rw [h.tokens.fnHeaderAt hi]
  cases hheader : fnHeaderAt doc.tokens i with
  | none => rfl
  | some header =>
    have hbody : (header.down lines bytes skipped).body = header.body.map (skipped + ·) := rfl
    simp only [Option.map_some, hbody]
    cases hb : header.body with
    | none => rfl
    | some body =>
      obtain ⟨hopen, hlt⟩ := h.tokens.body_lt hi hheader hb
      exact h.checkFunction header hopen hlt

end Document.Embedded

/-! ## Two texts -/

section Down

variable (t : Token) (d : Diagnostic)

@[simp] theorem Span.down_zero (s : Span) : s.down 0 0 = s := rfl

@[simp] theorem Token.down_zero : t.down 0 0 = t := rfl

@[simp] theorem Diagnostic.down_zero : d.down 0 0 = d := by
  have hspan : Span.down 0 0 = id := funext Span.down_zero
  have hrelated : Related.down 0 0 = id := rfl
  simp [down, hspan, hrelated]

end Down

namespace Lexer

/-- The tokens of two texts with a line feed between them, and those of the upper one. -/
theorem tokens_append_line (uri above below : String) :
    ∃ front last, (tokenize uri above).1 = front ++ [last] ∧ last.kind = .eof ∧
      (tokenize uri (above ++ "\n" ++ below)).1 = front ++ (tokenize uri below).1.map
        (Token.down (above.toList.count '\n' + 1) (Text.byteSize above.toList + 1)) := by
  obtain ⟨init, hinit, _⟩ := scan_eq_append_ending uri above.toList
  have htext : (above ++ "\n" ++ below).toList = above.toList ++ '\n' :: below.toList := by
    simp [String.toList_append]
  refine ⟨init.map (·.token), (Scanned.ending uri above.toList).token, ?_, rfl, ?_⟩
  · simp only [tokenize, hinit, List.map_append, List.map_singleton]
  · simp only [tokenize, htext, scan_append_line, hinit, List.dropLast_concat, List.map_append,
      List.map_map]
    rfl

end Lexer

/-- A token stands on a line of its text. -/
theorem TokenStream.line_bounds {file : String} {text : List Char} {ts : List Token}
    (h : TokenStream file text ts) {i : Nat} (hi : i + 1 < ts.length) :
    1 ≤ (tokenAt ts i).line ∧ (tokenAt ts i).line ≤ text.count '\n' + 1 := by
  obtain ⟨before, c, tail, lexeme, hspells, htoken⟩ := h.spelled_tokenAt hi
  have hline : (tokenAt ts i).line = 1 + before.count '\n' := by
    rw [htoken]
    rfl
  have hle : before.count '\n' ≤ text.count '\n' :=
    ((List.prefix_append ..).trans hspells.prefix_text).sublist.count_le _
  omega

section Texts

variable {uri above below : String} {front : List Token} {last : Token}
  (hjoined : (Lexer.tokenize uri (above ++ "\n" ++ below)).1 =
    front ++ (Lexer.tokenize uri below).1.map
      (Token.down (above.toList.count '\n' + 1) (Text.byteSize above.toList + 1)))

include hjoined

/-- **A finished text above another one** stands in the document of the two. -/
theorem Document.embedded_above (htokens : (Lexer.tokenize uri above).1 = front ++ [last])
    (heof : last.kind = .eof) (hbal : Brackets.check (front ++ [last]) = [])
    (hlast : front.getLast?.map Token.kind = some .rightBrace) :
    (Document.ofText uri above).Embedded 0 0 0 front (.ofText uri (above ++ "\n" ++ below)) := by
  refine ⟨⟨(tokenStream_tokenize uri _).endsInEof, (tokenStream_tokenize uri _).endsInEof,
    ⟨[last], htokens⟩, ?_, ?_, ?_⟩, rfl, ?_⟩
  · have hid : Token.down 0 0 = id := funext Token.down_zero
    rw [hid, List.map_id]
    exact ⟨[], _, hjoined, rfl⟩
  · obtain ⟨brace, hbrace, hkind⟩ := Option.map_eq_some_iff.mp hlast
    obtain ⟨init, hinit⟩ := List.getLast?_eq_some_iff.mp hbrace
    exact ⟨init, brace, hinit, .inl hkind⟩
  · exact fun i hopen =>
      Brackets.exists_blockFrom_of_check (Brackets.check_front hbal heof) hopen
  · intro i hi
    obtain ⟨hpos, hle⟩ := (tokenStream_tokenize uri above).line_bounds (i := i)
      (by rw [htokens, List.length_append]; omega)
    exact Source.lineEnd_append_left uri above below hpos hle

/-- **A text below another one** stands in the document of the two. -/
theorem Document.embedded_below :
    (Document.ofText uri below).Embedded (above.toList.count '\n' + 1)
      (Text.byteSize above.toList + 1) front.length (Lexer.tokenize uri below).1
      (.ofText uri (above ++ "\n" ++ below)) := by
  have hstream := tokenStream_tokenize uri below
  obtain ⟨init, eof, hinit, heof, _⟩ := hstream.endsInEof
  refine ⟨⟨hstream.endsInEof, (tokenStream_tokenize uri _).endsInEof, ⟨[], by simp [ofText]⟩,
    ⟨front, [], by rw [List.append_nil]; exact hjoined, rfl⟩, ⟨init, eof, hinit, .inr heof⟩, ?_⟩,
    rfl, ?_⟩
  · intro i hopen
    have hi := hstream.endsInEof.succ_lt_of_eq hopen nofun
    rw [hinit] at hi ⊢
    rw [List.drop_append_of_le_length (by simp at hi; omega)]
    exact exists_blockFrom_of_eof heof ..
  · intro i hi
    exact Source.lineEnd_append_right uri above below (hstream.line_bounds hi).1

end Texts

namespace Returns

theorem checkAt_of_eof {doc : Document} (hts : EndsInEof doc.tokens) {i : Nat}
    (h : doc.kind i = .eof) : checkAt doc i = [] := by
  unfold checkAt
  cases hheader : fnHeaderAt doc.tokens i with
  | none => rfl
  | some header =>
    have hword := ((fnHeaderAt_eq_some_iff hts).mp hheader).word_kind
    cases h.symm.trans hword

/-- **Return checking is compositional.** Above stands a text whose brackets are balanced and whose
last token is a `}`; below, after a line feed, any text. The errors of the two are those of the
first, and those of the second as many lines and bytes further down as the first and the line feed
take. -/
theorem check_append_line (uri above below : String)
    (hbal : Brackets.check (Lexer.tokenize uri above).1 = [])
    (hlast : (Lexer.tokenize uri above).1.dropLast.getLast?.map Token.kind = some .rightBrace) :
    check (.ofText uri (above ++ "\n" ++ below)) =
      check (.ofText uri above) ++ (check (.ofText uri below)).map
        (Diagnostic.down (above.toList.count '\n' + 1) (Text.byteSize above.toList + 1)) := by
  obtain ⟨front, last, htokens, heof, hjoined⟩ := Lexer.tokens_append_line uri above below
  rw [htokens] at hbal hlast
  rw [List.dropLast_concat] at hlast
  have habove := Document.embedded_above hjoined htokens heof hbal hlast
  have hbelow := Document.embedded_below hjoined
  -- the first document stands there without its end, at which no function starts
  have hlength : (Document.ofText uri (above ++ "\n" ++ below)).tokens.length =
      front.length + (Document.ofText uri below).tokens.length := by
    rw [Document.ofText, hjoined, List.length_append, List.length_map]
    rfl
  have hlength' : (Document.ofText uri above).tokens.length = front.length + 1 := by
    rw [Document.ofText, htokens, List.length_append]
    rfl
  have hend : checkAt (.ofText uri above) front.length = [] := by
    refine checkAt_of_eof habove.tokens.endsInEof ?_
    exact habove.tokens.endsInEof.kindAt_eq_eof_iff.mpr (Nat.le_of_eq hlength')
  have hfirst : (List.range front.length).flatMap
        (checkAt (.ofText uri (above ++ "\n" ++ below))) =
      (List.range front.length).flatMap (checkAt (.ofText uri above)) := by
    refine List.flatMap_congr fun i hi => ?_
    have hat := habove.checkAt (List.mem_range.mp hi)
    have hid : Diagnostic.down 0 0 = id := funext Diagnostic.down_zero
    rwa [Nat.zero_add, hid, List.map_id] at hat
  have hsecond : (List.range (Document.ofText uri below).tokens.length).flatMap
        (fun i => checkAt (.ofText uri (above ++ "\n" ++ below)) (front.length + i)) =
      (List.range (Document.ofText uri below).tokens.length).flatMap (fun i =>
        (checkAt (.ofText uri below) i).map
          (Diagnostic.down (above.toList.count '\n' + 1) (Text.byteSize above.toList + 1))) :=
    List.flatMap_congr fun i hi => hbelow.checkAt (List.mem_range.mp hi)
  rw [check, check, check, hlength, hlength', List.range_add, List.range_succ, List.flatMap_append,
    List.flatMap_append, List.flatMap_singleton, hend, List.append_nil, hfirst, List.map_flatMap,
    List.flatMap_map, hsecond]

/-- A function above that gives a value it should not, and one below that gives none. -/
theorem check_append_line_two :
    let above := "fn f() \x7b return 1 \x7d"
    let below := "fn g() -> int \x7b return \x7d"
    Brackets.check (Lexer.tokenize "m" above).1 = [] ∧
      check (.ofText "m" (above ++ "\n" ++ below)) =
        [.error "Cannot return a value from a void function 'f'" ⟨"m", ⟨1, 10, 9⟩, ⟨1, 20, 19⟩⟩,
          .error ("Cannot use empty return in non-void function 'g'. " ++
            "Expected return type: 'int'") ⟨"m", ⟨2, 17, 36⟩, ⟨2, 23, 42⟩⟩] := by
  intro above below
  have hbal : Brackets.check (Lexer.tokenize "m" above).1 = [] := by decide +kernel
  refine ⟨hbal, (check_append_line "m" above below hbal ?_).trans ?_⟩
  · decide +kernel
  · decide +kernel

end Returns

end AuroraLint
