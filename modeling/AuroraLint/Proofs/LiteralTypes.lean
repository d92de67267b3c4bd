import AuroraLint.Proofs.Forms

/-!
# Types of single tokens

The lexer and the inference of types both know numbers, strings and reserved words, the one by
scanning and the other by looking at a text as a whole.

* `Kind.literalType` : the type of what is written as one token of a kind.

Main statements: `Ty.infer_of_form` — a lexeme of any form, an unfinished string literal apart, is of
the type of its kind; `Ty.infer_quote` — the type of any string literal; `Ty.infer_lexeme` — the two
together for the tokens of a text.
-/

set_option autoImplicit false

namespace AuroraLint

/-- The type of an expression that is one token of this kind. What is no literal may have any value;
like every other expression it counts as `double`. -/
def Kind.literalType : Kind → Ty
  | .intLiteral => .int
  | .floatLiteral => .double
  | .kwTrue | .kwFalse => .bool
  | .kwNull => .null
  | .stringLiteral => .string
  | _ => .double

/-- Of the words, `true`, `false` and `null` are literals. -/
theorem Kind.literalType_word (w : List Char) :
    ((keyword? (String.ofList w)).getD .identifier).literalType =
      if w = ['t', 'r', 'u', 'e'] ∨ w = ['f', 'a', 'l', 's', 'e'] then .bool
      else if w = ['n', 'u', 'l', 'l'] then .null else .double := by
  have htable : ∀ p ∈ keywords, p.1 = "true" ∨ p.1 = "false" ∨ p.1 = "null" ∨
      p.2.literalType = .double := by decide
  split
  · rename_i h
    rcases h with rfl | rfl <;> decide
  · rename_i hbool
    simp only [not_or] at hbool
    split
    · rename_i hnull
      subst hnull
      decide
    · rename_i hnull
      cases hk : keyword? (String.ofList w) with
      | none => rfl
      | some k =>
        obtain ⟨front, back, hmem, _⟩ := List.lookup_eq_some_iff.mp hk
        have hspelled : ∀ word : List Char, String.ofList w = String.ofList word → w = word :=
          fun word heq => String.ofList_injective heq
        rcases htable (String.ofList w, k) (by simp [hmem]) with h | h | h | h
        · exact absurd (hspelled ['t', 'r', 'u', 'e'] h) hbool.1
        · exact absurd (hspelled ['f', 'a', 'l', 's', 'e'] h) hbool.2
        · exact absurd (hspelled ['n', 'u', 'l', 'l'] h) hnull
        · exact h

/-- In front of a character that is not blank nothing is trimmed from the end. -/
theorem Text.trimEnd_cons {c : Char} (hc : isBlank c = false) (tail : List Char) :
    trimEnd (c :: tail) = c :: trimEnd tail := by
  rw [trimEnd, trimEnd, List.reverse_cons, List.dropWhile_append]
  split
  · rename_i hempty
    rw [List.isEmpty_iff.mp hempty]
    simp [hc]
  · simp

namespace Ty

variable {c : Char} {tail : List Char}

/-! ## Words, strings and single characters -/

/-- A word is of the type of its kind. -/
theorem infer_word (hc : isNameStart c = true) (htail : ∀ d ∈ tail, isNamePart d = true) :
    infer (c :: tail) = ((Kind.keyword? (String.ofList (c :: tail))).getD .identifier).literalType := by
  have hparts : ∀ d ∈ c :: tail, isNamePart d = true := by
    intro d hd
    rcases List.mem_cons.mp hd with rfl | hd
    · exact isNamePart_of_isNameStart hc
    · exact htail d hd
  have hdigit : c.isDigit = false := by
    rw [Bool.eq_false_iff]
    intro h
    rw [Lexeme.not_isNameStart_of_isDigit h] at hc
    cases hc
  have hint : isIntText (c :: tail) = false := by simp [isIntText, hdigit]
  have hdouble : isDoubleText (c :: tail) = false := by
    have hnone : (c :: tail).dropWhile (· != '.') = [] := by
      refine List.dropWhile_eq_nil_iff.mpr fun d hd => ?_
      rw [bne_iff_ne]
      rintro rfl
      exact absurd (hparts _ hd) (by decide)
    rw [isDoubleText, hnone]
  have hstring : isStringText (c :: tail) = false := by
    have hquote : c ≠ '"' := (Lexeme.plain_of_isNamePart (isNamePart_of_isNameStart hc)).1
    simp [isStringText, hquote]
  rw [infer, Text.trim_of_plain fun d hd => isBlank_of_isNamePart (hparts d hd), inferTrimmed, hint,
    hdouble, hstring, Kind.literalType_word]
  rfl

/-- **The type of a text that starts with a quote**: it is a string if the rest ends in a quote,
blanks apart, and else `double`. A string literal that its line cuts off may end in a quote that a
backslash precedes. -/
theorem infer_quote (tail : List Char) :
    infer ('"' :: tail) =
      if (Text.trimEnd tail).getLast? = some '"' then .string else .double := by
  have htrim : Text.trim ('"' :: tail) = '"' :: Text.trimEnd tail := by
    rw [Text.trim, Text.trimStart_of_head rfl (by decide), Text.trimEnd_cons (by decide)]
  rw [infer, htrim,
    inferTrimmed_of_foreign (q := '"') List.mem_cons_self (by decide) (by decide)]
  cases hlast : (Text.trimEnd tail).getLast? with
  | none =>
    rw [List.getLast?_eq_none_iff.mp hlast]
    rfl
  | some d =>
    have hne : Text.trimEnd tail ≠ [] := by
      intro hnil
      rw [hnil] at hlast
      cases hlast
    have hlen : 2 ≤ ('"' :: Text.trimEnd tail).length := by
      have := List.length_pos_iff.mpr hne
      rw [List.length_cons]
      omega
    have hend : ('"' :: Text.trimEnd tail).getLast? = some d := by
      rw [List.getLast?_cons, hlast, Option.getD_some]
    simp only [isStringText, hlen, decide_true, Bool.true_and, List.head?_cons, hend,
      Bool.and_eq_true, beq_iff_eq, true_and]

/-- A single character that is no digit. -/
theorem infer_single (hc : c.isDigit = false) : infer [c] = .double := by
  by_cases hblank : Text.isBlank c = true
  · have htrim : Text.trim [c] = [] := by simp [Text.trim, Text.trimStart, Text.trimEnd, hblank]
    rw [infer, htrim]
    rfl
  · rw [infer, Text.trim_of_plain (by simpa using hblank)]
    by_cases hdot : c = '.'
    · subst hdot
      rfl
    · simp [inferTrimmed, isIntText, isDoubleText, isStringText, hc, hdot]

/-! ## Lexemes -/

/-- **A lexeme is of the type of its kind**, unless it is a string literal that its line cuts
off. -/
theorem infer_of_form {k : Kind} {closed : Bool} (h : Lexeme.Form c tail k closed)
    (hclosed : k = .stringLiteral → closed = true) : infer (c :: tail) = k.literalType := by
  cases h with
  | int hc htail =>
    have hdigits : ∀ d ∈ c :: tail, d.isDigit = true := List.forall_mem_cons.mpr ⟨hc, htail⟩
    exact (Written.Literal.int ⟨c :: tail, hdigits⟩ (List.cons_ne_nil c tail)).infer_chars
  | @decimal _ whole fraction hc hwhole hfraction =>
    have hdigits : ∀ d ∈ c :: whole, d.isDigit = true := List.forall_mem_cons.mpr ⟨hc, hwhole⟩
    exact (Written.Literal.double ⟨c :: whole, hdigits⟩ ⟨fraction, hfraction⟩
      (.inl (List.cons_ne_nil c whole))).infer_chars
  | fraction hne hdigits =>
    exact (Written.Literal.double ⟨[], List.forall_mem_nil _⟩ ⟨tail, hdigits⟩ (.inr hne)).infer_chars
  | word hc htail => exact infer_word hc htail
  | symbol hmem =>
    have htable : ∀ p ∈ Kind.symbols, infer p.1 = p.2.literalType := by decide
    exact htable _ hmem
  | unknown _ hdigit _ _ => exact infer_single hdigit
  | escaped => exact infer_single (by decide)
  | string htail =>
    obtain rfl := hclosed rfl
    have hlast := @Lexeme.getLast?_stringTail '"' tail (by rw [htail])
    rw [htail, List.take_length] at hlast
    rw [infer_quote, Text.trimEnd_of_last hlast (by decide), if_pos hlast]
    rfl

/-- **Type inference agrees with the lexer on single tokens.** The text of every token but the end
of the document is of the type of the token's kind, if the token is no string literal that was
reported as cut off. Any string literal is of type `string` if behind its first quote it ends in
another one, blanks apart, and of type `double` otherwise. -/
theorem infer_lexeme (uri text : String) (t : Token) (ht : t ∈ (Lexer.tokenize uri text).1)
    (hk : t.kind ≠ .eof) :
    let cutOff := Diagnostic.error "unterminated string literal" t.span ∈
      (Lexer.tokenize uri text).2
    ((t.kind = .stringLiteral → ¬ cutOff) → infer t.lexeme.toList = t.kind.literalType) ∧
    (t.kind = .stringLiteral → infer t.lexeme.toList =
      if (Text.trimEnd t.lexeme.toList.tail).getLast? = some '"' then .string else .double) := by
  intro cutOff
  obtain ⟨scanned, htiling, heq⟩ := Lexer.tiling_tokenize uri text
  rw [heq] at ht
  obtain ⟨s, hs, rfl⟩ := List.mem_map.mp ht
  rcases htiling.mem_cases hs with rfl | ⟨before, c, tail, lexeme, _, hsp, rfl⟩
  · exact absurd rfl hk
  · obtain ⟨after, _, hread⟩ := hsp.text_eq
    have hlexeme : (Lexer.Scanned.spelling uri before lexeme (c :: tail)).token.lexeme.toList =
        c :: tail := String.toList_ofList
    rw [hlexeme]
    constructor
    · intro hfinished
      refine infer_of_form (Lexeme.form_of_read hread hsp.more_eq) fun hstring => ?_
      by_contra hopen
      -- an unfinished string literal is reported
      refine hfinished hstring ?_
      show _ ∈ (Lexer.tokenize uri text).2
      rw [heq]
      refine List.mem_filterMap.mpr ⟨_, hs, ?_⟩
      exact if_neg hopen
    · intro hstring
      obtain ⟨⟨rfl, _⟩, _⟩ := Lexeme.string_of_read hread hstring
      exact infer_quote tail

/-- Two string literals, each with an escaped quote. The second is cut off and is a string all the
same. -/
theorem infer_lexeme_quotes :
    let text := "\"a\\\"\" \"b\\\" "
    let ts := (Lexer.tokenize "t.aur" text).1
    let cutOff := fun t : Token => Diagnostic.error "unterminated string literal" t.span ∈
      (Lexer.tokenize "t.aur" text).2
    (tokenAt ts 0 ∈ ts ∧ (tokenAt ts 0).kind = .stringLiteral ∧ ¬ cutOff (tokenAt ts 0) ∧
      infer (tokenAt ts 0).lexeme.toList = .string) ∧
    (tokenAt ts 1 ∈ ts ∧ (tokenAt ts 1).kind = .stringLiteral ∧ cutOff (tokenAt ts 1) ∧
      infer (tokenAt ts 1).lexeme.toList = .string) := by
  intro text ts cutOff
  have hmem : tokenAt ts 0 ∈ ts := by decide +kernel
  have hkind : (tokenAt ts 0).kind = .stringLiteral := by decide +kernel
  have hfinished : ¬ cutOff (tokenAt ts 0) := by decide +kernel
  have hmem' : tokenAt ts 1 ∈ ts := by decide +kernel
  have hkind' : (tokenAt ts 1).kind = .stringLiteral := by decide +kernel
  have htype := (infer_lexeme "t.aur" text _ hmem (by rw [hkind]; nofun)).1 fun _ => hfinished
  have htype' := (infer_lexeme "t.aur" text _ hmem' (by rw [hkind']; nofun)).2 hkind'
  rw [hkind] at htype
  exact ⟨⟨hmem, hkind, hfinished, htype⟩,
    ⟨hmem', hkind', by decide +kernel, htype'.trans (by decide +kernel)⟩⟩

end Ty

end AuroraLint
