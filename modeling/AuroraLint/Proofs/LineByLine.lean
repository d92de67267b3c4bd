import AuroraLint.Proofs.Tiling

/-!
# Lexing line by line

A line feed ends all that the scanner keeps in mind: no string literal, no comment and no look at
the next characters reaches over it, and the character before a line is forgotten.

* `Position.down`, `Token.down`, `Diagnostic.down` : the same columns, further down in the document.
* `Lexeme.Separates` : a character that goes on no number, name or symbol, as a line feed.

Main statements: `Lexeme.read_append_newline` — a lexeme is read alike before a line feed and at the
end of the text; `Lexer.Tiling.append_line` and `Lexer.Tiling.down` — tilings of two texts make one
of the two with a line feed between them; `Lexer.tokenize_append_line` — so do their tokens and
errors.
-/

set_option autoImplicit false

namespace AuroraLint

/-! ## Further down -/

/-- The position `lines` lines and `bytes` bytes further down; the column stays. -/
def Position.down (lines bytes : Nat) (p : Position) : Position :=
  ⟨p.line + lines, p.column, p.offset + bytes⟩

/-- The span with both its ends further down. -/
def Span.down (lines bytes : Nat) (s : Span) : Span :=
  ⟨s.file, s.start.down lines bytes, s.stop.down lines bytes⟩

/-- The related place further down. -/
def Related.down (lines bytes : Nat) (r : Related) : Related :=
  { r with span := r.span.down lines bytes }

/-- The token further down. -/
def Token.down (lines bytes : Nat) (t : Token) : Token :=
  { t with span := t.span.down lines bytes }

/-- The diagnostic with all its places further down. -/
def Diagnostic.down (lines bytes : Nat) (d : Diagnostic) : Diagnostic :=
  { d with
    span := d.span.map (Span.down lines bytes)
    related := d.related.map (Related.down lines bytes) }

/-! ## Lexemes before a separator -/

theorem takeWhile_append_stop {p : Char → Bool} {q : Char} (hq : p q = false)
    (cs rest : List Char) : (cs ++ q :: rest).takeWhile p = cs.takeWhile p := by
  induction cs with
  | nil => simp [hq]
  | cons c cs ih =>
    rw [List.cons_append, List.takeWhile_cons, List.takeWhile_cons, ih]

theorem isPrefixOf_append_stop {word : List Char} {q : Char} (hword : q ∉ word)
    (cs rest : List Char) : word.isPrefixOf (cs ++ q :: rest) = word.isPrefixOf cs := by
  induction word generalizing cs with
  | nil => simp
  | cons w word ih =>
    simp only [List.mem_cons, not_or] at hword
    cases cs with
    | nil =>
      have hne : (w == q) = false := by simpa using Ne.symm hword.1
      simp [List.isPrefixOf, hne]
    | cons c cs => simp only [List.cons_append, List.isPrefixOf, ih hword.2]

namespace Lexeme

/-- The character goes on no number, name or symbol. -/
def Separates (q : Char) : Prop :=
  isNamePart q = false ∧ q ≠ '.' ∧ ∀ p ∈ Kind.symbols, q ∉ p.1

instance (q : Char) : Decidable (Separates q) :=
  inferInstanceAs (Decidable (_ ∧ _))

section Separator

variable {q : Char} (hq : Separates q) (c : Char) (cs rest : List Char)

include hq

theorem Separates.not_isDigit : q.isDigit = false := by
  have hpart := hq.1
  simp only [isNamePart, Char.isAlphanum, Bool.or_eq_false_iff] at hpart
  exact hpart.1.2

theorem Separates.not_isNameStart : isNameStart q = false := by
  have hpart := hq.1
  simp only [isNamePart, Char.isAlphanum, Bool.or_eq_false_iff] at hpart
  simp [isNameStart, hpart]

theorem digits_append_separator : digits (cs ++ q :: rest) = digits cs := by
  rw [digits, digits, takeWhile_append_stop hq.not_isDigit]

/-- Behind the digits of a number, a separator is no more than the end of the text. -/
theorem number_append_separator : number (cs ++ q :: rest) = number cs := by
  have hdrop : (cs ++ q :: rest).drop (digits cs) = cs.drop (digits cs) ++ q :: rest :=
    List.drop_append_of_le_length (digits_le cs)
  simp only [number, digits_append_separator hq, hdrop]
  cases cs.drop (digits cs) with
  | nil => simp [hq.2.1]
  | cons d after =>
    by_cases hd : d = '.'
    · subst hd
      simp only [List.cons_append, digits_append_separator hq]
      cases after with
      | nil => simp [hq.2.1, hq.not_isNameStart]
      | cons e after => rfl
    · simp [hd]

theorem name_append_separator : name c (cs ++ q :: rest) = name c cs := by
  rw [name, name, takeWhile_append_stop hq.1]

theorem symbol_append_separator : symbol c (cs ++ q :: rest) = symbol c cs := by
  unfold symbol
  congr 1
  -- the same symbol is found, since none has the separator in it
  rw [← List.head?_filter, ← List.head?_filter]
  refine congrArg List.head? (List.filter_congr fun p hp => ?_)
  exact isPrefixOf_append_stop (hq.2.2 p hp) (c :: cs) rest

/-- A lexeme ends before a separator if it is no string literal or one that ends there. -/
theorem read_append_separator {prev : Option Char}
    (hstring : c = '"' → prev ≠ some '\\' → stringTail c (cs ++ q :: rest) = stringTail c cs) :
    read prev c (cs ++ q :: rest) = read prev c cs := by
  unfold read
  rw [number_append_separator hq, name_append_separator hq, digits_append_separator hq,
    symbol_append_separator hq]
  split
  · rename_i hc
    split
    · rfl
    · rename_i hprev
      rw [hstring hc hprev]
  · rfl

end Separator

variable (c : Char) (cs rest : List Char)

theorem stringTail_append_newline : stringTail c (cs ++ '\n' :: rest) = stringTail c cs := by
  induction cs generalizing c with
  | nil => simp [stringTail]
  | cons d cs ih => simp only [List.cons_append, stringTail, ih]

/-- **A lexeme is read alike before a line feed and at the end of the text.** -/
theorem read_append_newline (prev : Option Char) :
    read prev c (cs ++ '\n' :: rest) = read prev c cs :=
  read_append_separator (by decide) c cs rest fun _ _ => stringTail_append_newline c cs rest

end Lexeme

/-! ## Gaps before a line feed -/

/-- A gap ends before a character whatever stands behind it. -/
theorem trivia_of_cons {inComment : Bool} {gap xs : List Char} {c : Char}
    (h : trivia inComment (gap ++ c :: xs) = gap.length) (ys : List Char) :
    trivia inComment (gap ++ c :: ys) = gap.length := by
  induction gap generalizing inComment with
  | nil =>
    have hc := trivia_cons_eq_zero h
    simp only [not_or, Bool.not_eq_true] at hc
    simp [trivia, hc]
  | cons g gap ih =>
    obtain ⟨hg, hgap⟩ := trivia_cons_eq_succ_iff.mp h
    exact trivia_cons_eq_succ_iff.mpr ⟨hg, ih hgap⟩

/-- A gap at the end of a text goes on behind a line feed, with no comment open. -/
theorem trivia_append_newline {inComment : Bool} {gap : List Char}
    (h : trivia inComment gap = gap.length) (rest : List Char) :
    trivia inComment (gap ++ '\n' :: rest) = gap.length + (trivia false rest + 1) := by
  induction gap generalizing inComment with
  | nil => cases inComment <;> simp [trivia]
  | cons g gap ih =>
    obtain ⟨hg, hgap⟩ := trivia_cons_eq_succ_iff.mp h
    have hnext := trivia_cons_eq_succ_iff.mpr ⟨hg, ih hgap⟩
    rw [List.cons_append, hnext, List.length_cons]
    omega

/-! ## Places behind a line feed -/

theorem Position.ofFront_down (above front : List Char) :
    ofFront (above ++ '\n' :: front) =
      (ofFront front).down (above.count '\n' + 1) (Text.byteSize above + 1) := by
  have hline : (above ++ '\n' :: front).count '\n' = above.count '\n' + (front.count '\n' + 1) := by
    rw [List.count_append, List.count_cons_self]
  have hcolumn : (above ++ '\n' :: front).reverse.takeWhile (· != '\n') =
      front.reverse.takeWhile (· != '\n') := by
    rw [List.reverse_append, List.reverse_cons, List.append_assoc, List.singleton_append,
      takeWhile_append_stop (by decide)]
  have hbytes : Text.byteSize (above ++ '\n' :: front) =
      Text.byteSize above + (1 + Text.byteSize front) := by
    rw [Text.byteSize_append, Text.byteSize_cons]
    rfl
  simp only [ofFront, down, hline, hcolumn, hbytes, Position.mk.injEq, true_and]
  omega

theorem lastOnLine_down (above front : List Char) :
    lastOnLine (above ++ '\n' :: front) = lastOnLine front := by
  cases front with
  | nil => simp [lastOnLine]
  | cons c front => simp [lastOnLine, List.getLast?_append, List.getLast?_cons]

namespace Lexer

/-- The token further down. -/
def Scanned.down (lines bytes : Nat) (s : Scanned) : Scanned :=
  { s with token := s.token.down lines bytes }

section Down

variable (file : String) (above : List Char)

theorem Scanned.ending_down (text : List Char) :
    (ending file text).down (above.count '\n' + 1) (Text.byteSize above + 1) =
      ending file (above ++ '\n' :: text) := by
  simp only [ending, Position.ofFront_down]
  rfl

theorem Scanned.spelling_down (before : List Char) (lexeme : Lexeme) (cs : List Char) :
    (spelling file before lexeme cs).down (above.count '\n' + 1) (Text.byteSize above + 1) =
      spelling file (above ++ '\n' :: before) lexeme cs := by
  simp only [spelling, List.append_assoc, List.cons_append, Position.ofFront_down]
  rfl

theorem Scanned.diagnostic?_down (lines bytes : Nat) (s : Scanned) :
    (s.down lines bytes).diagnostic? = s.diagnostic?.map (Diagnostic.down lines bytes) := by
  unfold diagnostic?
  have hterminated : (s.down lines bytes).terminated = s.terminated := rfl
  rw [hterminated]
  split
  · rfl
  · rfl

end Down

/-! ## Tilings of two texts -/

namespace Tiling

variable {file : String} {front rest gap : List Char} {scanned scanned' : List Scanned}

/-- **A text is tiled alike wherever its first line stands.** -/
theorem down (above : List Char) (h : Tiling file front rest scanned) :
    Tiling file (above ++ '\n' :: front) rest
      (scanned.map (Scanned.down (above.count '\n' + 1) (Text.byteSize above + 1))) := by
  induction h with
  | @ending front gap hgap =>
    have hending := @Tiling.ending file (above ++ '\n' :: front) gap hgap
    rw [List.map_singleton, Scanned.ending_down]
    simpa using hending
  | @token front gap tail rest c scanned lexeme hgap hread hmore next ih =>
    have hassoc : above ++ '\n' :: (front ++ gap) = above ++ '\n' :: front ++ gap := by simp
    have hread' : Lexeme.read (lastOnLine (above ++ '\n' :: front ++ gap)) c (tail ++ rest) =
        lexeme := by
      rw [← hassoc, lastOnLine_down]
      exact hread
    have hnext : Tiling file (above ++ '\n' :: front ++ gap ++ c :: tail) rest
        (scanned.map (Scanned.down (above.count '\n' + 1) (Text.byteSize above + 1))) := by
      simpa using ih
    rw [List.map_cons, Scanned.spelling_down, hassoc]
    exact .token lexeme hgap hread' hmore hnext

/-- A gap and a line feed in front of a tiled text join its first gap. -/
theorem prepend_gap (hgap : trivia false gap = gap.length)
    (h : Tiling file (front ++ gap ++ ['\n']) rest scanned) :
    Tiling file front (gap ++ '\n' :: rest) scanned := by
  cases h with
  | @ending _ gap' hgap' =>
    have hjoined : trivia false ((gap ++ '\n' :: rest) ++ []) = (gap ++ '\n' :: rest).length := by
      rw [List.append_nil] at hgap' ⊢
      rw [trivia_append_newline hgap, hgap', List.length_append, List.length_cons]
    simpa using @Tiling.ending file front _ hjoined
  | @token _ gap' tail rest c scanned lexeme hgap' hread hmore next =>
    have hjoined : trivia false ((gap ++ '\n' :: gap') ++ c :: (tail ++ rest)) =
        (gap ++ '\n' :: gap').length := by
      rw [List.append_assoc, List.cons_append, trivia_append_newline hgap, hgap',
        List.length_append, List.length_cons]
    have hassoc : front ++ gap ++ ['\n'] ++ gap' = front ++ (gap ++ '\n' :: gap') := by simp
    rw [hassoc] at hread next ⊢
    simpa using Tiling.token lexeme hjoined hread hmore next

/-- **A tiled text and one behind a line feed.** The end of the first text is no token of the two;
the induction is over its tiling. -/
theorem append_line (h : Tiling file front rest scanned) {below : List Char}
    (hbelow : Tiling file (front ++ rest ++ ['\n']) below scanned') :
    Tiling file front (rest ++ '\n' :: below) (scanned.dropLast ++ scanned') := by
  induction h with
  | @ending front gap hgap =>
    rw [List.append_nil] at hgap
    exact hbelow.prepend_gap hgap
  | @token front gap tail rest c scanned lexeme hgap hread hmore next ih =>
    have hassoc : front ++ (gap ++ c :: (tail ++ rest)) ++ ['\n'] =
        front ++ gap ++ c :: tail ++ rest ++ ['\n'] := by simp
    have hnext := ih (by rw [← hassoc]; exact hbelow)
    have hgap' := trivia_of_cons hgap (tail ++ (rest ++ '\n' :: below))
    have hread' : Lexeme.read (lastOnLine (front ++ gap)) c (tail ++ (rest ++ '\n' :: below)) =
        lexeme := by
      rw [← List.append_assoc, Lexeme.read_append_newline]
      exact hread
    have hne : scanned ≠ [] := by
      obtain ⟨init, hinit, _⟩ := next.eq_append_ending
      rw [hinit]
      simp
    rw [List.dropLast_cons_of_ne_nil hne]
    simpa using Tiling.token lexeme hgap' hread' hmore hnext

end Tiling

/-- The scan of two texts with a line feed between them. -/
theorem scan_append_line (file : String) (above below : List Char) :
    scan (.ofText file (above ++ '\n' :: below)) =
      (scan (.ofText file above)).dropLast ++ (scan (.ofText file below)).map
        (Scanned.down (above.count '\n' + 1) (Text.byteSize above + 1)) := by
  have habove := tiling_scan file [] above
  have hbelow := (tiling_scan file [] below).down above
  exact (habove.append_line hbelow).scan_eq

/-- The end of the document is the last token, and no error. -/
theorem scan_eq_append_ending (file : String) (text : List Char) :
    ∃ init, scan (.ofText file text) = init ++ [.ending file text] ∧
      ∀ s ∈ init, s.token.kind ≠ .eof :=
  (tiling_scan file [] text).eq_append_ending

/-- **Lexing is compositional over lines.** The tokens of two texts with a line feed between them
are those of the first, without its end, and those of the second, as many lines and bytes further
down as the first text and the line feed take. So are the errors. -/
theorem tokenize_append_line (file above below : String) :
    let lines := above.toList.count '\n' + 1
    let bytes := Text.byteSize above.toList + 1
    tokenize file (above ++ "\n" ++ below) =
      ((tokenize file above).1.filter (·.kind ≠ .eof) ++
          (tokenize file below).1.map (Token.down lines bytes),
        (tokenize file above).2 ++ (tokenize file below).2.map (Diagnostic.down lines bytes)) := by
  intro lines bytes
  have htext : (above ++ "\n" ++ below).toList = above.toList ++ '\n' :: below.toList := by
    simp [String.toList_append]
  obtain ⟨init, hinit, hkinds⟩ := scan_eq_append_ending file above.toList
  have hscan := scan_append_line file above.toList below.toList
  rw [hinit, List.dropLast_concat] at hscan
  have htokens : ((init ++ [Scanned.ending file above.toList]).map (·.token)).filter
      (·.kind ≠ .eof) = init.map (·.token) := by
    rw [List.map_append, List.filter_append]
    have hkept : (init.map (·.token)).filter (·.kind ≠ .eof) = init.map (·.token) :=
      List.filter_eq_self.mpr (by simpa using hkinds)
    rw [hkept]
    simp [Scanned.ending]
  have herrors : (init ++ [Scanned.ending file above.toList]).filterMap Scanned.diagnostic? =
      init.filterMap Scanned.diagnostic? := by
    rw [List.filterMap_append]
    simp [Scanned.ending, Scanned.diagnostic?]
  refine Prod.ext ?_ ?_
  · simp only [tokenize, htext, hscan, hinit, htokens]
    rw [List.map_append, List.map_map, List.map_map]
    rfl
  · simp only [tokenize, htext, hscan, hinit, herrors]
    rw [List.filterMap_append, List.filterMap_map, List.map_filterMap]
    exact congrArg _ (congrArg (List.filterMap · _) (funext (Scanned.diagnostic?_down lines bytes)))

end Lexer

end AuroraLint
