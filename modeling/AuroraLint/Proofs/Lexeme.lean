import AuroraLint.Token.Lexeme

/-!
# What a lexeme is made of

Facts about the token at the head of a text, for every text.

* `Lexeme.Plain` : a character that neither opens a string or comment nor ends a line.

Main statements: a lexeme stays within the text (`more_read_le`) and within its line
(`newline_not_mem_read`), only a quote that no backslash precedes makes a string
(`kind_read_eq_string_iff`), and the tail of any other lexeme is plain (`plain_of_mem_read`).
-/

set_option autoImplicit false

namespace AuroraLint

theorem take_length_takeWhile {α : Type} (p : α → Bool) (xs : List α) :
    xs.take (xs.takeWhile p).length = xs.takeWhile p :=
  (List.prefix_iff_eq_take.mp (List.takeWhile_prefix p)).symm

/-- A run ends before the first character that is not of it. -/
theorem takeWhile_run {p : Char → Bool} {run : List Char} {c : Char} (hrun : ∀ d ∈ run, p d = true)
    (hc : p c = false) (rest : List Char) : (run ++ c :: rest).takeWhile p = run := by
  rw [List.takeWhile_append_of_pos hrun, List.takeWhile_cons_of_neg (by simp [hc]), List.append_nil]

namespace Lexeme

/-- Neither a quote nor `#` nor a line feed. -/
def Plain (c : Char) : Prop :=
  c ≠ '"' ∧ c ≠ '#' ∧ c ≠ '\n'

instance (c : Char) : Decidable (Plain c) :=
  inferInstanceAs (Decidable (_ ∧ _))

theorem toNat_of_isDigit {c : Char} (h : c.isDigit = true) : 48 ≤ c.toNat ∧ c.toNat ≤ 57 := by
  obtain ⟨hlo, hhi⟩ := (Bool.and_eq_true ..).mp h
  exact ⟨of_decide_eq_true hlo, of_decide_eq_true hhi⟩

theorem plain_of_isNamePart {c : Char} (h : isNamePart c = true) : Plain c := by
  refine ⟨?_, ?_, ?_⟩ <;> rintro rfl <;> revert h <;> decide

theorem plain_of_isDigit {c : Char} (h : c.isDigit = true) : Plain c := by
  refine ⟨?_, ?_, ?_⟩ <;> rintro rfl <;> revert h <;> decide

end Lexeme

/-! ## Characters of names -/

theorem toNat_of_isAlpha {c : Char} (h : c.isAlpha = true) : 65 ≤ c.toNat ∧ c.toNat ≤ 122 := by
  rcases (Bool.or_eq_true ..).mp h with hupper | hlower
  · obtain ⟨hlo, hhi⟩ := of_decide_eq_true hupper
    exact ⟨hlo, Nat.le_trans hhi (by decide)⟩
  · obtain ⟨hlo, hhi⟩ := (Bool.and_eq_true ..).mp hlower
    exact ⟨Nat.le_trans (by decide) (of_decide_eq_true hlo), of_decide_eq_true hhi⟩

/-- The characters of names are letters, digits and underscores of ASCII. -/
theorem toNat_of_isNamePart {c : Char} (h : isNamePart c = true) :
    48 ≤ c.toNat ∧ c.toNat ≤ 122 := by
  simp only [isNamePart, Char.isAlphanum, Bool.or_eq_true, beq_iff_eq] at h
  rcases h with (halpha | hdigit) | rfl
  · have := toNat_of_isAlpha halpha
    omega
  · have := Lexeme.toNat_of_isDigit hdigit
    omega
  · decide

theorem isBlank_of_isNamePart {c : Char} (h : isNamePart c = true) : Text.isBlank c = false := by
  have hrange := toNat_of_isNamePart h
  rw [Text.isBlank, Bool.eq_false_iff, Ne, Text.inRanges_iff]
  simp only [Text.blankRanges, List.mem_cons, List.not_mem_nil, or_false]
  rintro ⟨r, hr, hlo, hhi⟩
  rcases hr with rfl | rfl | rfl | rfl | rfl | rfl | rfl | rfl | rfl | rfl <;>
    simp only at hlo hhi <;> omega

theorem isNamePart_of_isNameStart {c : Char} (h : isNameStart c = true) : isNamePart c = true := by
  simp only [isNameStart, isNamePart, Char.isAlphanum, Bool.or_eq_true] at h ⊢
  exact h.imp .inl id

namespace Lexeme

/-! ## String literals -/

theorem stringTail_le (prev : Char) (cs : List Char) : (stringTail prev cs).1 ≤ cs.length := by
  induction cs generalizing prev with
  | nil => simp [stringTail]
  | cons c cs ih =>
    rw [stringTail]
    split
    · simp
    · split
      · simp
      · simpa using ih c

/-- A string literal stays within its line. -/
theorem newline_not_mem_stringTail (prev : Char) (cs : List Char) :
    '\n' ∉ cs.take (stringTail prev cs).1 := by
  induction cs generalizing prev with
  | nil => simp
  | cons c cs ih =>
    rw [stringTail]
    split
    · rename_i h
      obtain ⟨rfl, _⟩ := h
      simp
    · split
      · simp
      · rename_i hn
        have := ih c
        simp only [List.take_succ_cons, List.mem_cons, not_or]
        exact ⟨fun h => hn h.symm, this⟩

/-- A closed string literal ends in its quote. -/
theorem getLast?_stringTail {p : Char} {cs : List Char} (h : (stringTail p cs).2 = true) :
    (cs.take (stringTail p cs).1).getLast? = some '"' := by
  induction cs generalizing p with
  | nil => cases h
  | cons c cs ih =>
    rw [stringTail] at h ⊢
    split at h
    · rename_i hq
      rw [if_pos hq, hq.1]
      rfl
    · rename_i hq
      split at h
      · cases h
      · rename_i hn
        rw [if_neg hq, if_neg hn]
        simp only [List.take_succ_cons, List.getLast?_cons, ih h]
        rfl

/-- A string literal that is not closed is cut off by a line feed or the end of the text. -/
theorem drop_stringTail_of_not_closed {prev : Char} {cs : List Char}
    (h : (stringTail prev cs).2 = false) :
    cs.drop (stringTail prev cs).1 = [] ∨ (cs.drop (stringTail prev cs).1).head? = some '\n' := by
  induction cs generalizing prev with
  | nil => simp
  | cons c cs ih =>
    rw [stringTail] at h ⊢
    split at h
    · cases h
    · split at h
      · rename_i hq hn
        simp [hn]
      · rename_i hq hn
        rw [if_neg hq, if_neg hn]
        exact ih h

/-! ## Numbers, names and symbols -/

/-- A kind that a spelling can have: neither a string literal nor the end of the document. -/
def Spelled (k : Kind) : Prop :=
  k ≠ .stringLiteral ∧ k ≠ .eof

instance (k : Kind) : Decidable (Spelled k) :=
  inferInstanceAs (Decidable (_ ∧ _))

theorem digits_le (cs : List Char) : digits cs ≤ cs.length :=
  (List.takeWhile_prefix Char.isDigit).length_le

theorem isDigit_of_mem_digits {c : Char} {cs : List Char} (h : c ∈ cs.take (digits cs)) :
    c.isDigit = true := by
  rw [digits, take_length_takeWhile] at h
  exact List.all_eq_true.mp List.all_takeWhile c h

/-- A number is an integer that ends with its digits, or a float with a point after them. -/
theorem number_cases (cs : List Char) :
    number cs = ⟨.intLiteral, digits cs, true⟩ ∨
      ∃ after, cs.drop (digits cs) = '.' :: after ∧
        number cs = ⟨.floatLiteral, digits cs + 1 + digits after, true⟩ := by
  simp only [number]
  split
  · rename_i after hd
    split
    · exact .inl rfl
    · exact .inr ⟨after, hd, rfl⟩
  · exact .inl rfl

theorem more_number_le (cs : List Char) : (number cs).more ≤ cs.length := by
  have hw := digits_le cs
  rcases number_cases cs with h | ⟨after, hd, h⟩
  · rw [h]
    exact hw
  · have hl := congrArg List.length hd
    have ha := digits_le after
    simp only [List.length_drop, List.length_cons] at hl
    rw [h]
    show digits cs + 1 + digits after ≤ cs.length
    omega

/-- After its first digit a number has digits and at most a point. -/
theorem plain_of_mem_number {c : Char} {cs : List Char} (h : c ∈ cs.take (number cs).more) :
    Plain c := by
  rcases number_cases cs with hn | ⟨after, hd, hn⟩
  · rw [hn] at h
    exact plain_of_isDigit (isDigit_of_mem_digits h)
  · rw [hn, Nat.add_assoc, List.take_add, List.mem_append, hd, Nat.add_comm 1,
      List.take_succ_cons, List.mem_cons] at h
    rcases h with h | rfl | h
    · exact plain_of_isDigit (isDigit_of_mem_digits h)
    · decide
    · exact plain_of_isDigit (isDigit_of_mem_digits h)

theorem spelled_number (cs : List Char) : Spelled (number cs).kind := by
  rcases number_cases cs with h | ⟨_, _, h⟩ <;> rw [h] <;> exact ⟨nofun, nofun⟩

theorem more_name_le (c : Char) (cs : List Char) : (name c cs).more ≤ cs.length :=
  (List.takeWhile_prefix isNamePart).length_le

theorem plain_of_mem_name {c d : Char} {cs : List Char} (h : d ∈ cs.take (name c cs).more) :
    Plain d := by
  simp only [name, take_length_takeWhile] at h
  exact plain_of_isNamePart (List.all_eq_true.mp List.all_takeWhile d h)

theorem spelled_keyword {word : String} {k : Kind} (h : Kind.keyword? word = some k) :
    Spelled k := by
  have hall : ∀ p ∈ Kind.keywords, Spelled p.2 := by decide
  obtain ⟨front, back, he, _⟩ := List.lookup_eq_some_iff.mp h
  exact hall (word, k) (by simp [he])

theorem spelled_name (c : Char) (cs : List Char) : Spelled (name c cs).kind := by
  simp only [name]
  cases h : Kind.keyword? (String.ofList (c :: cs.takeWhile isNamePart)) with
  | none => decide
  | some k => exact spelled_keyword h

/-- What the table of symbols holds: short plain spellings of kinds of their own. -/
theorem symbols_spec : ∀ p ∈ Kind.symbols,
    p.1 ≠ [] ∧ (∀ c ∈ p.1, Plain c) ∧ Spelled p.2 := by
  have hall : Kind.symbols.all (fun p => p.1 ≠ [] ∧ p.1.all (Plain ·) ∧ Spelled p.2) := by rfl
  intro p hp
  simpa using List.all_eq_true.mp hall p hp

theorem symbol_spec (c : Char) (cs : List Char) :
    (symbol c cs).more ≤ cs.length ∧ (∀ d ∈ cs.take (symbol c cs).more, Plain d) ∧
      Spelled (symbol c cs).kind := by
  unfold symbol
  split
  · rename_i spelling kind hf
    obtain ⟨hne, hplain, hkind⟩ := symbols_spec _ (List.mem_of_find?_eq_some hf)
    have hp : spelling <+: c :: cs := by simpa using List.find?_some hf
    cases spelling with
    | nil => exact absurd rfl hne
    | cons s ss =>
      obtain ⟨rfl, hss⟩ := List.cons_prefix_cons.mp hp
      refine ⟨by simpa using hss.length_le, ?_, hkind⟩
      intro d hd
      simp only [List.length_cons, Nat.add_sub_cancel, ← List.prefix_iff_eq_take.mp hss] at hd
      exact hplain d (List.mem_cons_of_mem _ hd)
  · refine ⟨Nat.zero_le _, ?_, by decide⟩
    intro d hd
    simp at hd

/-- What starts with a letter or underscore is a name or a reserved word. -/
theorem read_name {c : Char} (h : isNameStart c = true) (prev : Option Char) (cs : List Char) :
    read prev c cs = name c cs := by
  have hquote : c ≠ '"' := (plain_of_isNamePart (isNamePart_of_isNameStart h)).1
  have hdigit : ¬ c.isDigit = true := by
    intro hd
    have hrange := toNat_of_isDigit hd
    rcases (Bool.or_eq_true ..).mp h with halpha | hscore
    · have := toNat_of_isAlpha halpha
      omega
    · rw [beq_iff_eq.mp hscore] at hrange
      exact absurd hrange (by decide)
  rw [read, if_neg hquote, if_neg hdigit, if_pos h]

/-! ## Any lexeme -/

variable (prev : Option Char) (c : Char) (cs : List Char)

/-- Only a quote that no backslash precedes makes a string literal. -/
theorem kind_read_eq_string_iff :
    (read prev c cs).kind = .stringLiteral ↔ c = '"' ∧ prev ≠ some '\\' := by
  unfold read
  split
  · split
    · rename_i hq hb
      simp [hb]
    · rename_i hq hb
      simp [hq, hb]
  · rename_i hq
    simp only [hq, false_and, iff_false]
    split
    · exact (spelled_number cs).1
    · split
      · exact (spelled_name c cs).1
      · split
        · nofun
        · exact (symbol_spec c cs).2.2.1

theorem kind_read_ne_eof : (read prev c cs).kind ≠ .eof := by
  unfold read
  split
  · split <;> simp
  · split
    · exact (spelled_number cs).2
    · split
      · exact (spelled_name c cs).2
      · split
        · simp
        · exact (symbol_spec c cs).2.2.2

/-- A lexeme stays within the text. -/
theorem more_read_le : (read prev c cs).more ≤ cs.length := by
  unfold read
  split
  · split
    · simp
    · exact stringTail_le c cs
  · split
    · exact more_number_le cs
    · split
      · exact more_name_le c cs
      · split
        · exact digits_le cs
        · exact (symbol_spec c cs).1

variable {prev c cs}

/-- The tail of a lexeme that is no string literal is plain. -/
theorem plain_of_mem_read {d : Char} (hk : (read prev c cs).kind ≠ .stringLiteral)
    (h : d ∈ cs.take (read prev c cs).more) : Plain d := by
  unfold read at hk h
  split at h
  · split at h
    · simp at h
    · rename_i hq hb
      simp [hq, hb] at hk
  · split at h
    · exact plain_of_mem_number h
    · split at h
      · exact plain_of_mem_name h
      · split at h
        · exact plain_of_isDigit (isDigit_of_mem_digits h)
        · exact (symbol_spec c cs).2.1 d h

/-- An identifier is no reserved word. -/
theorem keyword?_of_read_identifier (h : (read prev c cs).kind = .identifier) :
    Kind.keyword? (String.ofList (c :: cs.take (read prev c cs).more)) = none := by
  have hsymbols : ∀ p ∈ Kind.symbols, p.2 ≠ .identifier := by decide
  have hkeywords : ∀ p ∈ Kind.keywords, p.2 ≠ .identifier := by decide
  unfold read at h ⊢
  split at h
  · split at h <;> cases h
  · rename_i hquote
    rw [if_neg hquote]
    split at h
    · rcases number_cases cs with hn | ⟨_, _, hn⟩ <;> rw [hn] at h <;> cases h
    · rename_i hdigit
      rw [if_neg hdigit]
      split at h
      · rename_i hname
        simp only [if_pos hname, name, take_length_takeWhile] at h ⊢
        cases hk : Kind.keyword? (String.ofList (c :: cs.takeWhile isNamePart)) with
        | none => rfl
        | some k =>
          rw [hk] at h
          obtain ⟨front, back, he, _⟩ := List.lookup_eq_some_iff.mp hk
          exact absurd h (hkeywords (_, k) (he ▸ List.mem_append_right front List.mem_cons_self))
      · split at h
        · cases h
        · unfold symbol at h
          split at h
          · rename_i hf
            exact absurd h (hsymbols _ (List.mem_of_find?_eq_some hf))
          · cases h

/-- The tail of a string literal is what `stringTail` reads. -/
theorem read_of_string (h : c = '"' ∧ prev ≠ some '\\') :
    read prev c cs = ⟨.stringLiteral, (stringTail c cs).1, (stringTail c cs).2⟩ := by
  obtain ⟨rfl, hb⟩ := h
  simp [read, hb]

/-- Only a quote that no backslash precedes makes a string literal, and its tail says the rest. -/
theorem string_of_read {lexeme : Lexeme} (h : read prev c cs = lexeme)
    (hk : lexeme.kind = .stringLiteral) :
    (c = '"' ∧ prev ≠ some '\\') ∧
      lexeme = ⟨.stringLiteral, (stringTail c cs).1, (stringTail c cs).2⟩ := by
  have hq : c = '"' ∧ prev ≠ some '\\' := by
    rw [← kind_read_eq_string_iff prev c cs, h]
    exact hk
  exact ⟨hq, h.symm.trans (read_of_string hq)⟩

/-- A string literal that goes on with `tail` is what `stringTail` reads. -/
theorem stringTail_of_read {tail rest : List Char} {lexeme : Lexeme}
    (h : read prev c (tail ++ rest) = lexeme) (hmore : lexeme.more = tail.length)
    (hk : lexeme.kind = .stringLiteral) :
    (c = '"' ∧ prev ≠ some '\\') ∧
      stringTail c (tail ++ rest) = (tail.length, lexeme.terminated) := by
  obtain ⟨hq, rfl⟩ := string_of_read h hk
  exact ⟨hq, Prod.ext hmore rfl⟩

variable (prev c cs)

/-- A lexeme stays within its line. -/
theorem newline_not_mem_read : '\n' ∉ cs.take (read prev c cs).more := by
  intro hm
  by_cases hk : (read prev c cs).kind = .stringLiteral
  · rw [read_of_string ((kind_read_eq_string_iff prev c cs).mp hk)] at hm
    exact newline_not_mem_stringTail c cs hm
  · exact (plain_of_mem_read hk hm).2.2 rfl

end Lexeme

end AuroraLint
