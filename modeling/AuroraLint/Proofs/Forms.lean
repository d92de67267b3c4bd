import AuroraLint.Proofs.Literals

/-!
# The forms of lexemes

What a lexeme looks like, said by its own characters and not by what stands around it.

* `Lexeme.Form` : the lexemes of each kind as they are spelled.

Main statements: `Lexeme.form_of_read` — whatever stands in front of a lexeme and behind it, it has
one of the forms; `Lexeme.read_of_form` — a lexeme of one of the forms, a quote that opens no string
apart, is read back where it stands alone.
-/

set_option autoImplicit false

namespace AuroraLint

namespace Lexeme

/-- A lexeme `c :: tail` of kind `k`; `closed` is false for a string literal that its line cuts
off. -/
inductive Form : Char → List Char → Kind → Bool → Prop
  | int {c : Char} {tail : List Char} (hc : c.isDigit = true)
      (htail : ∀ d ∈ tail, d.isDigit = true) : Form c tail .intLiteral true
  /-- Digits with a point among them or behind them. -/
  | decimal {c : Char} {whole fraction : List Char} (hc : c.isDigit = true)
      (hwhole : ∀ d ∈ whole, d.isDigit = true) (hfraction : ∀ d ∈ fraction, d.isDigit = true) :
      Form c (whole ++ '.' :: fraction) .floatLiteral true
  /-- Digits with a point in front of them. -/
  | fraction {digits : List Char} (hne : digits ≠ []) (hdigits : ∀ d ∈ digits, d.isDigit = true) :
      Form '.' digits .floatLiteral true
  | word {c : Char} {tail : List Char} (hc : isNameStart c = true)
      (htail : ∀ d ∈ tail, isNamePart d = true) :
      Form c tail ((Kind.keyword? (String.ofList (c :: tail))).getD .identifier) true
  | symbol {c : Char} {tail : List Char} {k : Kind} (h : (c :: tail, k) ∈ Kind.symbols) :
      Form c tail k true
  /-- A character that starts no lexeme of another kind. -/
  | unknown {c : Char} (hquote : c ≠ '"') (hdigit : c.isDigit = false)
      (hname : isNameStart c = false) (hsymbol : ∀ p ∈ Kind.symbols, p.1 ≠ [c]) :
      Form c [] .unknown true
  /-- A quote behind a backslash, which opens no string. -/
  | escaped : Form '"' [] .unknown true
  | string {tail : List Char} {closed : Bool} (h : stringTail '"' tail = (tail.length, closed)) :
      Form '"' tail .stringLiteral closed

/-! ## Every lexeme has a form -/

variable {prev : Option Char} {c : Char} {tail rest : List Char}

/-- A string literal is read alike without what stands behind it. -/
theorem stringTail_front {p : Char} {closed : Bool}
    (h : stringTail p (tail ++ rest) = (tail.length, closed)) :
    stringTail p tail = (tail.length, closed) := by
  induction tail generalizing p with
  | nil =>
    -- nothing of the rest belongs to the literal, and so no quote closes it
    have hclosed : closed = false := by
      cases rest with
      | nil => exact (congrArg Prod.snd h).symm
      | cons d rest =>
        rw [List.nil_append, stringTail] at h
        split at h
        · cases congrArg Prod.fst h
        · split at h
          · exact (congrArg Prod.snd h).symm
          · cases congrArg Prod.fst h
    rw [hclosed]
    rfl
  | cons d tail ih =>
    rw [List.cons_append, stringTail] at h
    rw [stringTail]
    split at h
    · rename_i hquote
      obtain ⟨hlen, rfl⟩ := Prod.mk.inj h
      rw [if_pos hquote, hlen]
    · rename_i hquote
      split at h
      · cases congrArg Prod.fst h
      · rename_i hline
        obtain ⟨hlen, hclosed⟩ := Prod.mk.inj h
        have htail : stringTail d (tail ++ rest) = (tail.length, closed) :=
          Prod.ext (Nat.succ.inj hlen) hclosed
        rw [if_neg hquote, if_neg hline, ih htail]
        rfl

/-- A number is of digits, with at most one point among or behind them. -/
theorem number_front (h : (number (tail ++ rest)).more = tail.length) :
    (number (tail ++ rest) = ⟨.intLiteral, tail.length, true⟩ ∧ ∀ d ∈ tail, d.isDigit = true) ∨
      ∃ whole fraction, tail = whole ++ '.' :: fraction ∧ (∀ d ∈ whole, d.isDigit = true) ∧
        (∀ d ∈ fraction, d.isDigit = true) ∧
        number (tail ++ rest) = ⟨.floatLiteral, tail.length, true⟩ := by
  rcases number_cases (tail ++ rest) with hn | ⟨after, hpoint, hn⟩
  · rw [hn] at h
    have hlen : digits (tail ++ rest) = tail.length := h
    refine .inl ⟨by rw [hn, hlen], fun d hd => @isDigit_of_mem_digits d (tail ++ rest) ?_⟩
    rwa [hlen, List.take_left' rfl]
  · rw [hn] at h
    have hlen : digits (tail ++ rest) + 1 + digits after = tail.length := h
    have htail : tail = (tail ++ rest).take (digits (tail ++ rest)) ++
        '.' :: after.take (digits after) := by
      have hsplit := List.take_add (l := tail ++ rest) (i := digits (tail ++ rest))
        (j := 1 + digits after)
      rw [← Nat.add_assoc, hlen, List.take_left' rfl, hpoint, Nat.add_comm 1,
        List.take_succ_cons] at hsplit
      exact hsplit
    exact .inr ⟨_, _, htail, fun d hd => isDigit_of_mem_digits hd,
      fun d hd => isDigit_of_mem_digits hd, by rw [hn, hlen]⟩

/-- A symbol is one of the table, or a single character that is none. -/
theorem symbol_front (h : (symbol c (tail ++ rest)).more = tail.length) :
    (∃ k, (c :: tail, k) ∈ Kind.symbols ∧ symbol c (tail ++ rest) = ⟨k, tail.length, true⟩) ∨
      tail = [] ∧ (∀ p ∈ Kind.symbols, p.1 ≠ [c]) ∧
        symbol c (tail ++ rest) = ⟨.unknown, 0, true⟩ := by
  unfold symbol at h ⊢
  split at h
  · rename_i spelling kind hfind
    have hmem := List.mem_of_find?_eq_some hfind
    have hprefix : spelling <+: c :: (tail ++ rest) := by simpa using List.find?_some hfind
    obtain ⟨d, ds, rfl⟩ := List.exists_cons_of_ne_nil (symbols_spec _ hmem).1
    obtain ⟨rfl, hds⟩ := List.cons_prefix_cons.mp hprefix
    have hlen : ds.length = tail.length := h
    obtain rfl : ds = tail :=
      (List.prefix_of_prefix_length_le hds (List.prefix_append tail rest)
        (Nat.le_of_eq hlen)).eq_of_length hlen
    exact .inl ⟨kind, hmem, rfl⟩
  · rename_i hfind
    refine .inr ⟨List.length_eq_zero_iff.mp h.symm, fun p hp heq => ?_, rfl⟩
    have := List.find?_eq_none.mp hfind p hp
    simp [heq] at this

/-- **Every lexeme has a form**, whatever stands in front of it and behind it. -/
theorem form_of_read {lexeme : Lexeme} (hread : read prev c (tail ++ rest) = lexeme)
    (hmore : lexeme.more = tail.length) : Form c tail lexeme.kind lexeme.terminated := by
  subst hread
  unfold read at hmore ⊢
  split at hmore
  · rename_i hquote
    subst hquote
    split at hmore
    · rename_i hprev
      obtain rfl := List.length_eq_zero_iff.mp hmore.symm
      rw [if_pos rfl, if_pos hprev]
      exact .escaped
    · rename_i hprev
      rw [if_pos rfl, if_neg hprev]
      exact .string (stringTail_front (Prod.ext hmore rfl))
  · rename_i hquote
    rw [if_neg hquote]
    split at hmore
    · rename_i hdigit
      rw [if_pos hdigit]
      rcases number_front hmore with ⟨hn, htail⟩ | ⟨whole, fraction, rfl, hwhole, hfraction, hn⟩
      · rw [hn]
        exact .int hdigit htail
      · rw [hn]
        exact .decimal hdigit hwhole hfraction
    · rename_i hdigit
      rw [if_neg hdigit]
      split at hmore
      · rename_i hname
        rw [if_pos hname]
        have hrun : (tail ++ rest).takeWhile isNamePart = tail := by
          have hlen : ((tail ++ rest).takeWhile isNamePart).length = tail.length := hmore
          rw [← take_length_takeWhile, hlen, List.take_left' rfl]
        simp only [name, hrun]
        refine .word hname fun d hd => ?_
        rw [← hrun] at hd
        exact List.all_eq_true.mp List.all_takeWhile d hd
      · rename_i hname
        rw [if_neg hname]
        split at hmore
        · rename_i hpoint
          obtain ⟨rfl, hpos⟩ := hpoint
          have hlen : digits (tail ++ rest) = tail.length := hmore
          rw [if_pos ⟨rfl, hpos⟩]
          refine .fraction ?_ fun d hd => @isDigit_of_mem_digits d (tail ++ rest) ?_
          · rw [hlen] at hpos
            exact List.length_pos_iff.mp hpos
          · rwa [hlen, List.take_left' rfl]
        · rename_i hpoint
          rw [if_neg hpoint]
          rcases symbol_front hmore with ⟨k, hk, hs⟩ | ⟨rfl, hnone, hs⟩
          · rw [hs]
            exact .symbol hk
          · rw [hs]
            exact .unknown hquote (by simpa using hdigit) (by simpa using hname) hnone

/-! ## A form is read back -/

/-- Every symbol of the table is read as the whole of itself. -/
theorem read_symbol {k : Kind} (h : (c :: tail, k) ∈ Kind.symbols) :
    read none c tail = ⟨k, tail.length, true⟩ := by
  have htable : ∀ p ∈ Kind.symbols, p.1.head?.map (fun c => read none c p.1.tail) =
      some ⟨p.2, p.1.length - 1, true⟩ := by decide
  exact Option.some.inj (htable _ h)

/-- A character that starts nothing else is read as unknown. -/
theorem read_unknown (hquote : c ≠ '"') (hdigit : c.isDigit = false) (hname : isNameStart c = false)
    (hsymbol : ∀ p ∈ Kind.symbols, p.1 ≠ [c]) : read none c [] = ⟨.unknown, 0, true⟩ := by
  have hnone : Kind.symbols.find? (fun p => p.1.isPrefixOf [c]) = none := by
    refine List.find?_eq_none.mpr fun p hp hprefix => ?_
    obtain ⟨d, ds, hd⟩ := List.exists_cons_of_ne_nil (symbols_spec p hp).1
    rw [hd, List.isPrefixOf_iff_prefix, List.cons_prefix_cons, List.prefix_nil] at hprefix
    exact hsymbol p hp (by rw [hd, hprefix.1, hprefix.2])
  have hsymbol' : symbol c [] = ⟨.unknown, 0, true⟩ := by
    rw [symbol, hnone]
  simp [read, hquote, hdigit, hname, digits, hsymbol']

/-- **A lexeme of one of the forms is read back where it stands alone**, unless it is a quote that
opens no string: alone, it opens one. -/
theorem read_of_form {k : Kind} {closed : Bool} (h : Form c tail k closed)
    (hescaped : k = .unknown → c :: tail ≠ ['"']) : read none c tail = ⟨k, tail.length, closed⟩ := by
  cases h with
  | int hc htail =>
    have hnumber := number_of_digits htail apart_nil
    rw [List.append_nil] at hnumber
    rw [read, if_neg (plain_of_isDigit hc).1, if_pos hc, hnumber]
  | @decimal _ whole fraction hc hwhole hfraction =>
    have hnumber := number_of_decimal hwhole hfraction apart_nil
    rw [List.append_nil] at hnumber
    rw [read, if_neg (plain_of_isDigit hc).1, if_pos hc, hnumber, List.length_append,
      List.length_cons]
    congr 1
    omega
  | fraction hne hdigits =>
    have hcount := digits_apart hdigits apart_nil
    rw [List.append_nil] at hcount
    rw [read, if_neg (by decide), if_neg (by decide), if_neg (by decide),
      if_pos ⟨rfl, by rw [hcount]; exact List.length_pos_iff.mpr hne⟩, hcount]
  | word hc htail =>
    have hrun : tail.takeWhile isNamePart = tail := List.takeWhile_eq_self_iff.mpr htail
    simp only [read_name hc, name, hrun]
  | symbol hmem => exact read_symbol hmem
  | unknown hquote hdigit hname hsymbol => exact read_unknown hquote hdigit hname hsymbol
  | escaped => exact absurd rfl (hescaped rfl)
  | string htail =>
    have hopens : '"' = '"' ∧ (none : Option Char) ≠ some '\\' := ⟨rfl, by simp⟩
    rw [read_of_string hopens, htail]

end Lexeme

end AuroraLint
