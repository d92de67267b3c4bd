import AuroraLint.Proofs.ReadBack

/-!
# The pattern of findings

Findings are those places of an output that a pattern matches. The pattern is a list of repeated
characters; each takes as many as it can, and gives some back where the rest does not go on.

* `Pattern.Item`    : so many characters of one kind.
* `Pattern.match?`  : the texts that the items of a pattern take at the head of a text.
* `Pattern.all`     : the matches in a text, from left to right and without overlap.
* `Finding.pattern` : the pattern of findings.
* `Finding.ReadAs`  : a finding is what a match took.

Main statements: `Pattern.match?_run` — an item gives nothing back if what follows it starts with
other characters; `Finding.match?_pattern` — a finding is read at the head of a text exactly if the
pattern matches there; `compilerDiagnostics_clamped` — so the diagnostics of an output are those of
the matches in it that are kept.
-/

set_option autoImplicit false

namespace AuroraLint

namespace Pattern

/-! ## Patterns -/

/-- Characters of one kind: at least so many, and at most so many if there is a limit. -/
structure Item where
  accepts : Char → Bool
  least : Nat
  most : Option Nat

namespace Item

/-- Exactly the character `c`. -/
def char (c : Char) : Item := ⟨(· == c), 1, some 1⟩

/-- The character `c`, or nothing. -/
def optional (c : Char) : Item := ⟨(· == c), 0, some 1⟩

/-- One character or more. -/
def plus (accepts : Char → Bool) : Item := ⟨accepts, 1, none⟩

/-- Any number of characters. -/
def star (accepts : Char → Bool) : Item := ⟨accepts, 0, none⟩

/-- The largest number of characters that the item can take at the head of a text. -/
def longest (item : Item) (cs : List Char) : Nat :=
  let run := (cs.takeWhile item.accepts).length
  match item.most with
  | some n => min run n
  | none => run

/-- The numbers of characters that it can take, the largest first. -/
def lengths (item : Item) (cs : List Char) : List Nat :=
  (List.range' item.least (item.longest cs + 1 - item.least)).reverse

end Item

/-- The texts that the items of a pattern take at the head of a text. The first item takes as many
characters as it can such that the others match behind it. -/
def match? : List Item → List Char → Option (List (List Char))
  | [], _ => some []
  | item :: rest, cs =>
    (item.lengths cs).findSome? fun n => (match? rest (cs.drop n)).map (cs.take n :: ·)

/-- The matches of a text whose first `skip` characters belong to the match before. -/
def allFrom (pattern : List Item) (skip : Nat) : List Char → List (List (List Char))
  | [] => []
  | c :: cs =>
    match skip with
    | skip + 1 => allFrom pattern skip cs
    | 0 =>
      match match? pattern (c :: cs) with
      | some taken => taken :: allFrom pattern (taken.flatten.length - 1) cs
      | none => allFrom pattern 0 cs

/-- The matches in a text, from left to right: each is the first behind the one before. -/
def all (pattern : List Item) (cs : List Char) : List (List (List Char)) :=
  allFrom pattern 0 cs

/-! ## One item -/

section Items

variable {α : Type} {item : Item} {rest : List Item} {cs : List Char}

theorem Item.mem_lengths {n : Nat} :
    n ∈ item.lengths cs ↔ item.least ≤ n ∧ n ≤ item.longest cs := by
  simp only [Item.lengths, List.mem_reverse, List.mem_range'_1]
  omega

/-- If only the largest number can lead on, it is taken. -/
theorem Item.findSome?_lengths {f : Nat → Option α} (hle : item.least ≤ item.longest cs)
    (h : (f (item.longest cs)).isSome ∨ ∀ n, item.least ≤ n → n < item.longest cs → f n = none) :
    (item.lengths cs).findSome? f = f (item.longest cs) := by
  have hlengths : item.lengths cs =
      item.longest cs :: (List.range' item.least (item.longest cs - item.least)).reverse := by
    rw [Item.lengths, show item.longest cs + 1 - item.least = item.longest cs - item.least + 1 by
      omega, List.range'_concat, List.reverse_append, Nat.one_mul, Nat.add_sub_cancel' hle]
    rfl
  rw [hlengths, List.findSome?_cons]
  cases hf : f (item.longest cs) with
  | some b => rfl
  | none =>
    rcases h with h | h
    · rw [hf] at h
      cases h
    · refine List.findSome?_eq_none_iff.mpr fun n hn => ?_
      simp only [List.mem_reverse, List.mem_range'_1] at hn
      exact h n hn.1 (by omega)

theorem match?_eq_none (h : ∀ n, item.least ≤ n → n ≤ item.longest cs →
    match? rest (cs.drop n) = none) : match? (item :: rest) cs = none := by
  refine List.findSome?_eq_none_iff.mpr fun n hn => ?_
  obtain ⟨hle, hlt⟩ := Item.mem_lengths.mp hn
  rw [h n hle hlt]
  rfl

/-- Of a match, the first item takes one of the numbers that it can. -/
theorem exists_of_match? {taken : List (List Char)} (h : match? (item :: rest) cs = some taken) :
    ∃ n others, item.least ≤ n ∧ n ≤ item.longest cs ∧ match? rest (cs.drop n) = some others ∧
      taken = cs.take n :: others := by
  obtain ⟨n, hn, htaken⟩ := List.exists_of_findSome?_eq_some h
  obtain ⟨others, hothers, rfl⟩ := Option.map_eq_some_iff.mp htaken
  exact ⟨n, others, (Item.mem_lengths.mp hn).1, (Item.mem_lengths.mp hn).2, hothers, rfl⟩

/-- There is a match if one of the numbers leads on. -/
theorem exists_match? {n : Nat} (hle : item.least ≤ n) (hlt : n ≤ item.longest cs)
    {others : List (List Char)} (h : match? rest (cs.drop n) = some others) :
    ∃ taken, match? (item :: rest) cs = some taken := by
  refine Option.isSome_iff_exists.mp (List.findSome?_isSome_iff.mpr ⟨n, ?_, ?_⟩)
  · exact Item.mem_lengths.mpr ⟨hle, hlt⟩
  · rw [h]
    rfl

/-- A run is given back in part only if what follows it matches then, too. -/
theorem exists_match?_star (p : Char → Bool) {others : List (List Char)}
    (h : match? rest cs = some others) :
    ∃ n others', n ≤ (cs.takeWhile p).length ∧ match? rest (cs.drop n) = some others' ∧
      match? (.star p :: rest) cs = some (cs.take n :: others') := by
  have hleast : (Item.star p).least ≤ 0 := Nat.le_refl 0
  obtain ⟨taken, htaken⟩ := exists_match? hleast (Nat.zero_le _) h
  obtain ⟨n, others', -, hn, hothers, rfl⟩ := exists_of_match? htaken
  exact ⟨n, others', hn, hothers, htaken⟩

theorem match?_char (c : Char) (rest : List Item) (cs : List Char) :
    match? (.char c :: rest) (c :: cs) = (match? rest cs).map ([c] :: ·) := by
  have hlongest : (Item.char c).longest (c :: cs) = 1 := by
    simp [Item.longest, Item.char]
  rw [match?, Item.findSome?_lengths (by rw [hlongest]; exact Nat.le_refl 1), hlongest]
  · rfl
  · refine .inr fun n hn hlt => ?_
    rw [hlongest] at hlt
    have : 1 ≤ n := hn
    omega

/-- The run of a character is empty if the text does not start with it. -/
theorem takeWhile_beq_of_ne {c : Char} (h : ∀ tail, cs ≠ c :: tail) :
    cs.takeWhile (· == c) = [] := by
  cases cs with
  | nil => rfl
  | cons d cs =>
    have hd : d ≠ c := fun hd => h cs (by rw [hd])
    simp [hd]

theorem match?_char_of_ne {c : Char} (h : ∀ tail, cs ≠ c :: tail) :
    match? (.char c :: rest) cs = none := by
  have hlongest : (Item.char c).longest cs = 0 := by
    rw [Item.longest, Item.char, takeWhile_beq_of_ne h]
    rfl
  refine match?_eq_none fun n hn hle => ?_
  rw [hlongest] at hle
  have : 1 ≤ n := hn
  omega

/-- A text that does not start with a word does not match it. -/
theorem match?_word_of_ne (word : List Char) (rest : List Item) {cs : List Char}
    (h : ∀ tail, cs ≠ word ++ tail) : match? (word.map .char ++ rest) cs = none := by
  induction word generalizing cs with
  | nil => exact absurd rfl (h cs)
  | cons c word ih =>
    by_cases hhead : ∃ tail, cs = c :: tail
    · obtain ⟨tail, rfl⟩ := hhead
      have htail : ∀ tail', tail ≠ word ++ tail' := fun tail' heq => h tail' (congrArg (c :: ·) heq)
      rw [List.map_cons, List.cons_append, match?_char, ih htail]
      rfl
    · exact match?_char_of_ne (not_exists.mp hhead)

/-- A character of one kind is not one that is not of it. -/
theorem match?_char_of_kind {p : Char → Bool} {d : Char} (hd : p d = false) (rest : List Item) :
    ∀ c tail, p c = true → match? (.char d :: rest) (c :: tail) = none := by
  intro c tail hc
  refine match?_char_of_ne fun tail' htail => ?_
  rw [(List.cons.inj htail).1, hd] at hc
  cases hc

theorem match?_optional_of_ne {c : Char} (h : ∀ tail, cs ≠ c :: tail) :
    match? (.optional c :: rest) cs = (match? rest cs).map ([] :: ·) := by
  have hlongest : (Item.optional c).longest cs = 0 := by
    rw [Item.longest, Item.optional, takeWhile_beq_of_ne h]
    rfl
  rw [match?, Item.lengths, hlongest]
  exact List.findSome?_singleton

theorem drop_length_takeWhile (p : Char → Bool) (cs : List Char) :
    cs.drop (cs.takeWhile p).length = cs.dropWhile p := by
  have h : (cs.takeWhile p ++ cs.dropWhile p).drop (cs.takeWhile p).length = cs.dropWhile p :=
    List.drop_left
  rwa [List.takeWhile_append_dropWhile] at h

theorem take_of_le_takeWhile {p : Char → Bool} {n : Nat} (h : n ≤ (cs.takeWhile p).length) :
    cs.take n = (cs.takeWhile p).take n := by
  rw [← take_length_takeWhile, List.take_take, Nat.min_eq_left h]

/-- Within a run there is one more character of it. -/
theorem drop_of_lt_takeWhile {p : Char → Bool} {n : Nat} (h : n < (cs.takeWhile p).length) :
    ∃ c tail, cs.drop n = c :: tail ∧ p c = true := by
  have hsplit := List.takeWhile_append_dropWhile (p := p) (l := cs)
  have hdrop := List.drop_eq_getElem_cons h
  refine ⟨(cs.takeWhile p)[n], (cs.takeWhile p).drop (n + 1) ++ cs.dropWhile p, ?_,
    List.mem_takeWhile_imp (List.getElem_mem h)⟩
  rw [← List.cons_append, ← hdrop, ← List.drop_append_of_le_length (Nat.le_of_lt h), hsplit]

/-- **An item takes the whole run of its characters** if what follows it cannot start with one. -/
theorem match?_run (item : Item) (hmost : item.most = none)
    (hrest : ∀ c tail, item.accepts c = true → match? rest (c :: tail) = none) (cs : List Char) :
    match? (item :: rest) cs =
      if item.least ≤ (cs.takeWhile item.accepts).length then
        (match? rest (cs.drop (cs.takeWhile item.accepts).length)).map
          (cs.takeWhile item.accepts :: ·)
      else none := by
  have hlongest : item.longest cs = (cs.takeWhile item.accepts).length := by
    rw [Item.longest, hmost]
  split
  · rename_i hle
    rw [match?, Item.findSome?_lengths (by rwa [hlongest]), hlongest, take_length_takeWhile]
    refine .inr fun n _ hlt => ?_
    obtain ⟨c, tail, hdrop, hc⟩ := drop_of_lt_takeWhile (hlongest ▸ hlt)
    rw [hdrop, hrest c tail hc]
    rfl
  · rename_i hlt
    refine match?_eq_none fun n hn hle => ?_
    rw [hlongest] at hle
    exact absurd (Nat.le_trans hn hle) hlt

theorem match?_plus {p : Char → Bool}
    (hrest : ∀ c tail, p c = true → match? rest (c :: tail) = none) (cs : List Char) :
    match? (.plus p :: rest) cs =
      if cs.takeWhile p = [] then none
      else (match? rest (cs.drop (cs.takeWhile p).length)).map (cs.takeWhile p :: ·) := by
  rw [match?_run (.plus p) rfl hrest]
  simp only [Item.plus, Nat.one_le_iff_ne_zero, ne_eq, List.length_eq_zero_iff, ite_not]

theorem match?_star {p : Char → Bool}
    (hrest : ∀ c tail, p c = true → match? rest (c :: tail) = none) (cs : List Char) :
    match? (.star p :: rest) cs =
      (match? rest (cs.drop (cs.takeWhile p).length)).map (cs.takeWhile p :: ·) := by
  rw [match?_run (.star p) rfl hrest]
  exact if_pos (Nat.zero_le _)

theorem match?_plus_of_nil {p : Char → Bool} (h : cs.takeWhile p = []) :
    match? (.plus p :: rest) cs = none := by
  have hlongest : (Item.plus p).longest cs = 0 := congrArg List.length h
  refine match?_eq_none fun n hn hle => ?_
  rw [hlongest] at hle
  exact absurd (Nat.le_trans hn hle) (by decide : ¬ 1 ≤ 0)

/-- The last item takes its whole run. -/
theorem match?_plus_last (p : Char → Bool) (cs : List Char) :
    match? [.plus p] cs = if cs.takeWhile p = [] then none else some [cs.takeWhile p] := by
  have hlongest : (Item.plus p).longest cs = (cs.takeWhile p).length := rfl
  split
  · rename_i hnil
    exact match?_plus_of_nil hnil
  · rename_i hne
    have hle : (Item.plus p).least ≤ (Item.plus p).longest cs := List.length_pos_iff.mpr hne
    rw [match?, Item.findSome?_lengths hle (.inl rfl), hlongest, take_length_takeWhile]
    rfl

end Items

end Pattern

/-! ## The pattern of findings -/

namespace Finding

open Pattern

/-- Any character within a line. -/
def isInLine (c : Char) : Bool :=
  c != '\n'

/-- A place of a line and column: `:(\d+):(\d+)`. -/
def placePattern : List Item :=
  [.char ':', .plus Text.isDigit, .char ':', .plus Text.isDigit]

/-- A path and its place: `[ \t]*(.+):(\d+):(\d+)`. -/
def targetPattern : List Item :=
  .star isGap :: .plus isInLine :: placePattern

/-- The second line of a finding: `[ \t]*-->[ \t]*(.+):(\d+):(\d+)`. -/
def arrowPattern : List Item :=
  .star isGap :: .char '-' :: .char '-' :: .char '>' :: targetPattern

/-- A message and the second line: `[ \t]*(.+)\r?\n[ \t]*-->[ \t]*(.+):(\d+):(\d+)`. -/
def messagePattern : List Item :=
  .star isGap :: .plus isInLine :: .optional '\r' :: .char '\n' :: arrowPattern

/-- The pattern of findings:
`(\w+)\[(\w+)\]:[ \t]*(.+)\r?\n[ \t]*-->[ \t]*(.+):(\d+):(\d+)`. -/
def pattern : List Item :=
  .plus Text.isWord :: .char '[' :: .plus Text.isWord :: .char ']' :: .char ':' :: messagePattern

/-- The finding of a match: what its parts in brackets took. -/
def ofMatch (taken : List (List Char)) : Finding :=
  let part := fun i => taken.getD i []
  ⟨part 0, part 2, part 6, part 16, part 18⟩

/-! ### Places -/

theorem match?_placePattern (cs : List Char) :
    match? placePattern cs =
      (place? cs).map fun (line, column) => [[':'], line, [':'], column] := by
  unfold placePattern place?
  split
  · rename_i cs
    rw [match?_char, match?_plus (match?_char_of_kind (by decide) _)]
    dsimp only
    split
    · rename_i hline
      split
      · rename_i after hafter
        simp [hline]
      · rfl
    · rename_i hline
      split
      · rename_i after hafter
        rw [hafter, match?_char, match?_plus_last]
        by_cases hcolumn : after.takeWhile Text.isDigit = []
        · simp [hcolumn]
        · simp [hline, hcolumn]
      · rename_i hne
        rw [match?_char_of_ne hne]
        rfl
  · rename_i hne
    rw [match?_char_of_ne hne]
    rfl

/-! ### Paths and their places -/

/-- Behind the rest of its line a text is over or has a line feed. -/
theorem drop_restOfLine (cs : List Char) :
    cs.drop (restOfLine cs).length = [] ∨
      ∃ rest, cs.drop (restOfLine cs).length = '\n' :: rest := by
  unfold restOfLine
  rw [drop_length_takeWhile]
  cases hend : cs.dropWhile (· != '\n') with
  | nil => exact .inl rfl
  | cons c tail =>
    have hc := List.head_dropWhile_not (l := cs) (· != '\n') (by simp [hend])
    simp only [hend, List.head_cons, bne_eq_false_iff_eq] at hc
    exact .inr ⟨tail, by rw [hc]⟩

theorem newline_notMem_restOfLine (cs : List Char) : '\n' ∉ restOfLine cs :=
  fun hmem => absurd (List.mem_takeWhile_imp hmem) (by decide)

theorem restOfLine_drop {cs : List Char} {n : Nat} (h : n ≤ (restOfLine cs).length) :
    restOfLine (cs.drop n) = (restOfLine cs).drop n := by
  have hdrop : cs.drop n = (restOfLine cs).drop n ++ cs.drop (restOfLine cs).length := by
    rw [← List.drop_append_of_le_length h, restOfLine, drop_length_takeWhile,
      List.takeWhile_append_dropWhile]
  rw [hdrop]
  refine restOfLine_append (fun hmem => ?_) ?_
  · exact newline_notMem_restOfLine cs (List.mem_of_mem_drop hmem)
  · exact (drop_restOfLine cs).imp_right List.head?_eq_some_iff.mpr

/-- A place does not reach over a line feed. -/
theorem place?_newline (cs rest : List Char) : place? (cs ++ '\n' :: rest) = place? cs := by
  have hdigits : ∀ xs : List Char,
      (xs ++ '\n' :: rest).takeWhile Text.isDigit = xs.takeWhile Text.isDigit := by
    intro xs
    induction xs with
    | nil => exact List.takeWhile_cons_of_neg (by decide)
    | cons x xs ih => rw [List.cons_append, List.takeWhile_cons, ih, List.takeWhile_cons]
  cases cs with
  | nil => rfl
  | cons c cs =>
    by_cases hc : c = ':'
    · subst hc
      have hdrop : (cs ++ '\n' :: rest).drop (cs.takeWhile Text.isDigit).length =
          cs.drop (cs.takeWhile Text.isDigit).length ++ '\n' :: rest :=
        List.drop_append_of_le_length (List.takeWhile_prefix _).length_le
      simp only [place?, List.cons_append, hdigits, hdrop]
      cases cs.drop (cs.takeWhile Text.isDigit).length with
      | nil => rfl
      | cons d after =>
        by_cases hd : d = ':'
        · subst hd
          simp only [List.cons_append, hdigits]
        · simp [hd]
    · simp [place?, hc]

theorem place?_restOfLine (cs : List Char) : place? (restOfLine cs) = place? cs := by
  have hsplit : restOfLine cs ++ cs.drop (restOfLine cs).length = cs := by
    rw [restOfLine, drop_length_takeWhile, List.takeWhile_append_dropWhile]
  rcases drop_restOfLine cs with hend | ⟨rest, hend⟩
  · rw [hend, List.append_nil] at hsplit
    rw [hsplit]
  · rw [hend] at hsplit
    rw [← place?_newline _ rest, hsplit]

/-- The last place is the first that is found from the end. -/
theorem lastPlace?_eq_findSome? (i : Nat) (cs : List Char) :
    lastPlace? i cs = (List.range cs.length).reverse.findSome? fun n =>
      (place? (cs.drop n)).map fun p => (p.1, p.2, i + n + p.1.length + p.2.length + 2) := by
  induction cs generalizing i with
  | nil => rfl
  | cons c cs ih =>
    have hnext : ∀ n (p : List Char × List Char),
        i + 1 + n + p.1.length + p.2.length + 2 = i + (n + 1) + p.1.length + p.2.length + 2 := by
      omega
    rw [lastPlace?, ih, List.length_cons, List.range_succ_eq_map, List.reverse_cons,
      List.findSome?_append, ← List.map_reverse, List.findSome?_map]
    simp only [Function.comp_def, Nat.succ_eq_add_one, List.drop_succ_cons, hnext,
      List.findSome?_singleton, List.drop_zero, Nat.add_zero]
    cases List.findSome? _ _ with
    | none => rfl
    | some found => rfl

/-- Before the last place stand at least the `i` characters that are not of the text. -/
theorem exists_of_lastPlace? {i n : Nat} {cs line column : List Char}
    (h : lastPlace? i cs = some (line, column, n)) :
    ∃ k, k < cs.length ∧ i + k + line.length + column.length + 2 = n := by
  rw [lastPlace?_eq_findSome?] at h
  obtain ⟨k, hk, hfound⟩ := List.exists_of_findSome?_eq_some h
  obtain ⟨p, -, hp⟩ := Option.map_eq_some_iff.mp hfound
  simp only [Prod.mk.injEq] at hp
  obtain ⟨rfl, rfl, rfl⟩ := hp
  exact ⟨k, List.mem_range.mp (List.mem_reverse.mp hk), rfl⟩

/-- The last place is counted from where the counting starts. -/
theorem lastPlace?_add (i j : Nat) (cs : List Char) :
    lastPlace? (i + j) cs = (lastPlace? i cs).map fun p => (p.1, p.2.1, p.2.2 + j) := by
  have hsum : ∀ n (p : List Char × List Char),
      i + j + n + p.1.length + p.2.length + 2 = i + n + p.1.length + p.2.length + 2 + j := by
    omega
  rw [lastPlace?_eq_findSome?, lastPlace?_eq_findSome?, List.map_findSome?]
  simp only [Function.comp_def, Option.map_map, hsum]

/-- **A path reaches up to the last place of its line**, as it takes as much as it can. -/
theorem match?_path (cs : List Char) :
    match? (.plus isInLine :: placePattern) cs =
      (lastPlace? 1 (restOfLine cs).tail).map fun p =>
        [cs.take (p.2.2 - p.1.length - p.2.1.length - 2), [':'], p.1, [':'], p.2.1] := by
  have hlengths : (Item.plus isInLine).lengths cs =
      ((List.range (restOfLine cs).length).map (1 + ·)).reverse := by
    rw [← List.range'_eq_map_range]
    rfl
  rw [match?, hlengths, ← List.map_reverse, List.findSome?_map, lastPlace?_eq_findSome?,
    List.map_findSome?, List.length_tail]
  cases hlength : (restOfLine cs).length with
  | zero => rfl
  | succ k =>
    -- the whole rest of the line has no place behind it
    have hall : place? (cs.drop (1 + k)) = none := by
      rw [Nat.add_comm, ← hlength]
      rcases drop_restOfLine cs with hend | ⟨rest, hend⟩ <;> rw [hend] <;> rfl
    have hplace : ∀ n ∈ (List.range k).reverse,
        place? (cs.drop (1 + n)) = place? ((restOfLine cs).tail.drop n) := by
      intro n hn
      have hlt := List.mem_range.mp (List.mem_reverse.mp hn)
      rw [← place?_restOfLine, restOfLine_drop (by omega), List.drop_tail, Nat.add_comm]
    have hpath : ∀ n (p : List Char × List Char),
        1 + n + p.1.length + p.2.length + 2 - p.1.length - p.2.length - 2 = 1 + n := by
      omega
    rw [List.range_succ, List.reverse_append, List.reverse_singleton, List.singleton_append,
      List.findSome?_cons]
    simp only [Function.comp_apply, match?_placePattern, hall, Option.map_none,
      Nat.add_sub_cancel]
    rw [← List.head?_filterMap, ← List.head?_filterMap]
    refine congrArg List.head? (List.filterMap_congr fun n hn => ?_)
    simp only [Function.comp_apply, Option.map_map, hplace n hn, Function.comp_def, hpath]

/-- The last place of a later part of a line is the last of the line. -/
theorem lastPlace?_of_drop {cs line column : List Char} {n m : Nat}
    (hn : n ≤ (restOfLine cs).length)
    (h : lastPlace? 1 (restOfLine (cs.drop n)).tail = some (line, column, m)) :
    lastPlace? 1 (restOfLine cs).tail = some (line, column, m + n) := by
  rw [restOfLine_drop hn, List.tail_drop, ← List.drop_tail] at h
  have hlt : n < (restOfLine cs).tail.length := by
    refine Nat.lt_of_not_le fun hle => ?_
    rw [List.drop_eq_nil_of_le hle] at h
    cases h
  have hadd : lastPlace? (1 + ((restOfLine cs).tail.take n).length) ((restOfLine cs).tail.drop n) =
      some (line, column, m + n) := by
    rw [List.length_take_of_le (Nat.le_of_lt hlt), lastPlace?_add, h]
    rfl
  have hlast := lastPlace?_append ((restOfLine cs).tail.take n) hadd
  rwa [List.take_append_drop] at hlast

/-- A gap does not reach over the end of its line. -/
theorem length_takeWhile_isGap_le (cs : List Char) :
    (cs.takeWhile isGap).length ≤ (restOfLine cs).length := by
  induction cs with
  | nil => exact Nat.le_refl 0
  | cons c cs ih =>
    by_cases hc : isGap c = true
    · have hline : (c != '\n') = true := by
        simp only [isGap, Bool.or_eq_true, beq_iff_eq] at hc
        rcases hc with rfl | rfl <;> decide
      have hrest : restOfLine (c :: cs) = c :: restOfLine cs := List.takeWhile_cons_of_pos hline
      rw [List.takeWhile_cons_of_pos hc, hrest]
      exact Nat.succ_le_succ ih
    · rw [List.takeWhile_cons_of_neg hc]
      exact Nat.zero_le _

theorem length_restOfLine_le (cs : List Char) : (restOfLine cs).length ≤ cs.length :=
  (List.takeWhile_prefix _).length_le

/-- **The last place of a line is the one that the pattern takes**, however much of the gap before
the path it gives back. -/
theorem match?_targetPattern (cs : List Char) :
    Option.Rel (fun found taken =>
        (∃ gap path, taken = [gap, path, [':'], found.1, [':'], found.2.1]) ∧
          taken.flatten.length = found.2.2)
      (lastPlace? 1 (restOfLine cs).tail) (match? targetPattern cs) := by
  have hgap : ∀ n, n ≤ (Item.star isGap).longest cs → n ≤ (restOfLine cs).length :=
    fun n hn => Nat.le_trans hn (length_takeWhile_isGap_le cs)
  cases hlast : lastPlace? 1 (restOfLine cs).tail with
  | none =>
    have hnone : match? targetPattern cs = none := by
      refine match?_eq_none fun n _ hn => ?_
      rw [match?_path]
      cases hdrop : lastPlace? 1 (restOfLine (cs.drop n)).tail with
      | none => rfl
      | some found =>
        rw [lastPlace?_of_drop (hgap n hn) hdrop] at hlast
        cases hlast
    rw [hnone]
    exact .none
  | some found =>
    obtain ⟨line, column, length⟩ := found
    have hfirst := match?_path cs
    rw [hlast, Option.map_some] at hfirst
    -- some of the gap may be given back to the path, but the last place stays the last
    obtain ⟨n, others, hn, hothers, htaken⟩ := exists_match?_star isGap hfirst
    rw [match?_path] at hothers
    obtain ⟨⟨line', column', length'⟩, hdrop, rfl⟩ := Option.map_eq_some_iff.mp hothers
    have hsame := lastPlace?_of_drop (hgap n hn) hdrop
    rw [hlast] at hsame
    simp only [Option.some.injEq, Prod.mk.injEq] at hsame
    obtain ⟨rfl, rfl, rfl⟩ := hsame
    rw [targetPattern, htaken]
    refine .some ⟨⟨_, _, rfl⟩, ?_⟩
    obtain ⟨k, hk, hsum⟩ := exists_of_lastPlace? hdrop
    have hlen := Nat.le_trans (hgap n hn) (length_restOfLine_le cs)
    have hlen' := length_restOfLine_le (cs.drop n)
    rw [List.length_tail] at hk
    rw [List.length_drop] at hlen'
    simp only [List.flatten_cons, List.flatten_nil, List.append_nil, List.length_append,
      List.length_take, List.length_drop, List.length_cons, List.length_nil]
    omega

/-- The place on the second line of a finding, with the number of characters behind the arrow up
to its end. -/
def secondLine? (cs : List Char) : Option (List Char × List Char × Nat) :=
  match cs.drop (cs.takeWhile isGap).length with
  | '-' :: '-' :: '>' :: target => lastPlace? 1 (restOfLine target).tail
  | _ => none

theorem secondLine?_bind {α : Type} (cs : List Char)
    (f : List Char × List Char × Nat → Option α) :
    (match cs.drop (cs.takeWhile isGap).length with
      | '-' :: '-' :: '>' :: target => lastPlace? 1 (restOfLine target).tail >>= f
      | _ => none) = secondLine? cs >>= f := by
  unfold secondLine?
  split <;> rfl

/-- What the pattern takes of a second line. -/
theorem match?_arrowPattern (cs : List Char) :
    Option.Rel (fun found taken =>
        ∃ gap path, taken = [cs.takeWhile isGap, ['-'], ['-'], ['>'], gap, path, [':'], found.1,
            [':'], found.2.1] ∧
          [gap, path, [':'], found.1, [':'], found.2.1].flatten.length = found.2.2)
      (secondLine? cs) (match? arrowPattern cs) := by
  rw [arrowPattern, match?_star (match?_char_of_kind (by decide) _)]
  unfold secondLine?
  split
  · rename_i target htarget
    have hplace := match?_targetPattern target
    rw [htarget, match?_char, match?_char, match?_char]
    generalize lastPlace? 1 (restOfLine target).tail = found at hplace ⊢
    generalize match? targetPattern target = taken at hplace ⊢
    cases hplace with
    | none => exact .none
    | some hplace =>
      obtain ⟨⟨gap, path, rfl⟩, hlength⟩ := hplace
      exact .some ⟨gap, path, rfl, hlength⟩
  · rename_i hne
    have hnone := match?_word_of_ne ['-', '-', '>'] targetPattern hne
    simp only [List.map_cons, List.map_nil, List.cons_append, List.nil_append] at hnone
    rw [hnone]
    exact .none

/-! ### Messages -/

/-- A line feed behind a part of a line is the one at its end. -/
theorem length_of_newline {cs rest : List Char} {n : Nat} (hn : n ≤ (restOfLine cs).length)
    (h : cs.drop n = '\n' :: rest) : n = (restOfLine cs).length := by
  have hdrop := restOfLine_drop hn
  rw [h] at hdrop
  have hnil : (restOfLine cs).drop n = [] := hdrop.symm
  exact Nat.le_antisymm hn (List.drop_eq_nil_iff.mp hnil)

/-- **A message reaches up to the end of its line**: a carriage return before the line feed is of
it. -/
theorem match?_line (rest : List Item) (cs : List Char) :
    match? (.plus isInLine :: .optional '\r' :: .char '\n' :: rest) cs =
      if restOfLine cs = [] then none
      else (match? (.char '\n' :: rest) (cs.drop (restOfLine cs).length)).map
        (restOfLine cs :: [] :: ·) := by
  have hlongest : (Item.plus isInLine).longest cs = (restOfLine cs).length := rfl
  split
  · rename_i hnil
    exact match?_plus_of_nil hnil
  · rename_i hne
    have hend : match? (.optional '\r' :: .char '\n' :: rest) (cs.drop (restOfLine cs).length) =
        (match? (.char '\n' :: rest) (cs.drop (restOfLine cs).length)).map ([] :: ·) := by
      refine match?_optional_of_ne ?_
      rcases drop_restOfLine cs with hend | ⟨rest, hend⟩ <;> rw [hend] <;> simp
    have hle : (Item.plus isInLine).least ≤ (Item.plus isInLine).longest cs :=
      List.length_pos_iff.mpr hne
    rw [match?, Item.findSome?_lengths hle, hlongest, hend, Option.map_map, restOfLine,
      take_length_takeWhile]
    · rfl
    rw [hlongest, hend]
    cases hrest : match? (.char '\n' :: rest) (cs.drop (restOfLine cs).length) with
    | some taken => exact .inl rfl
    | none =>
      refine .inr fun n _ hlt => Option.map_eq_none_iff.mpr ?_
      refine match?_eq_none fun m _ hm => ?_
      -- with or without a carriage return, the line feed is the one at the end of the line
      have hm' : m ≤ 1 := Nat.le_trans hm (Nat.min_le_right _ _)
      rw [List.drop_drop]
      by_cases hhead : ∃ tail, cs.drop (n + m) = '\n' :: tail
      · obtain ⟨tail, htail⟩ := hhead
        rw [length_of_newline (by omega) htail, hrest]
      · exact match?_char_of_ne (not_exists.mp hhead)

/-- A gap and a message: all of a line before its line feed. -/
theorem match?_messagePattern (rest : List Item) (cs : List Char) :
    Option.Rel (fun others taken =>
        ∃ gap message, taken = gap :: message :: [] :: others ∧ gap ++ message = restOfLine cs ∧
          ∀ c ∈ gap, isGap c = true)
      (if restOfLine cs = [] then none
        else match? (.char '\n' :: rest) (cs.drop (restOfLine cs).length))
      (match? (.star isGap :: .plus isInLine :: .optional '\r' :: .char '\n' :: rest) cs) := by
  have hline : ∀ n, n ≤ (cs.takeWhile isGap).length →
      match? (.plus isInLine :: .optional '\r' :: .char '\n' :: rest) (cs.drop n) =
        if (restOfLine cs).drop n = [] then none
        else (match? (.char '\n' :: rest) (cs.drop (restOfLine cs).length)).map
          ((restOfLine cs).drop n :: [] :: ·) := by
    intro n hn
    have hle := Nat.le_trans hn (length_takeWhile_isGap_le cs)
    rw [match?_line, restOfLine_drop hle, List.length_drop, List.drop_drop,
      Nat.add_sub_cancel' hle]
  by_cases hnil : restOfLine cs = []
  · have hnone : match? (.star isGap :: .plus isInLine :: .optional '\r' :: .char '\n' :: rest) cs =
        none := by
      refine match?_eq_none fun n _ hn => ?_
      rw [hline n hn, hnil, List.drop_nil, if_pos rfl]
    rw [if_pos hnil, hnone]
    exact .none
  rw [if_neg hnil]
  cases hothers : match? (.char '\n' :: rest) (cs.drop (restOfLine cs).length) with
  | none =>
    have hnone : match? (.star isGap :: .plus isInLine :: .optional '\r' :: .char '\n' :: rest) cs =
        none := by
      refine match?_eq_none fun n _ hn => ?_
      rw [hline n hn, hothers, Option.map_none, ite_self]
    rw [hnone]
    exact .none
  | some others =>
    have hfirst := match?_line rest cs
    rw [if_neg hnil, hothers, Option.map_some] at hfirst
    obtain ⟨n, others', hn, hothers', htaken⟩ := exists_match?_star isGap hfirst
    have hle := Nat.le_trans hn (length_takeWhile_isGap_le cs)
    rw [hline n hn, hothers] at hothers'
    split at hothers'
    · cases hothers'
    obtain rfl := Option.some.inj hothers'
    rw [htaken]
    refine .some ⟨_, _, rfl, ?_, fun c hc => ?_⟩
    · have hgap : cs.take n = (restOfLine cs).take n := take_of_le_takeWhile hle
      rw [hgap, List.take_append_drop]
    · rw [take_of_le_takeWhile hn] at hc
      exact List.mem_takeWhile_imp (List.mem_of_mem_take hc)

/-! ### Findings -/

/-- A finding of so many characters is what a match took: the blanks before its message may be of
the message or not. -/
structure ReadAs (found : Finding × Nat) (taken : List (List Char)) : Prop where
  severity_eq : (ofMatch taken).severity = found.1.severity
  code_eq : (ofMatch taken).code = found.1.code
  trim_message_eq : Text.trim (ofMatch taken).message = Text.trim found.1.message
  line_eq : (ofMatch taken).line = found.1.line
  column_eq : (ofMatch taken).column = found.1.column
  length_eq : taken.flatten.length = found.2

theorem trim_gap_append {gap : List Char} (hgap : ∀ c ∈ gap, isGap c = true) (cs : List Char) :
    Text.trim (gap ++ cs) = Text.trim cs := by
  induction gap with
  | nil => rfl
  | cons c gap ih =>
    have hblank : Text.isBlank c = true := by
      have hc := hgap c List.mem_cons_self
      simp only [isGap, Bool.or_eq_true, beq_iff_eq] at hc
      rcases hc with rfl | rfl <;> decide
    rw [List.cons_append, Text.trim_cons_blank hblank]
    exact ih fun d hd => hgap d (List.mem_cons_of_mem _ hd)

theorem readAs_parts (severity code gap' : List Char)
    {gap text message gap'' path line column : List Char} {length : Nat}
    (htext : gap ++ text = message) (hgap : ∀ c ∈ gap, isGap c = true)
    (hlength : [gap'', path, [':'], line, [':'], column].flatten.length = length) :
    ReadAs (⟨severity, code, message, line, column⟩,
        severity.length + code.length + message.length + gap'.length + length + 7)
      [severity, ['['], code, [']'], [':'], gap, text, [], ['\n'], gap', ['-'], ['-'], ['>'],
        gap'', path, [':'], line, [':'], column] := by
  subst htext hlength
  refine ⟨rfl, rfl, (trim_gap_append hgap text).symm, rfl, rfl, ?_⟩
  simp only [List.flatten_cons, List.flatten_nil, List.length_append, List.length_cons,
    List.length_nil]
  omega

/-- **A finding is read at the head of a text exactly if the pattern matches there.** -/
theorem match?_pattern (cs : List Char) : Option.Rel ReadAs (read? cs) (match? pattern cs) := by
  unfold read?
  rw [pattern, match?_plus (match?_char_of_kind (by decide) _)]
  dsimp only
  split
  · rename_i afterOpen hafterOpen
    rw [hafterOpen, match?_char, match?_plus (match?_char_of_kind (by decide) _)]
    split
    · rename_i afterCode hafterCode
      rw [hafterCode, match?_char, match?_char]
      have hmessage := match?_messagePattern arrowPattern afterCode
      rw [messagePattern]
      generalize match? (.star isGap :: _) afterCode = taken at hmessage ⊢
      split
      · rename_i second hsecond
        have harrow := match?_arrowPattern second
        rw [hsecond, match?_char] at hmessage
        -- with the second line read at once, what is left is what its match leads to
        refine (congrArg (Option.Rel ReadAs · _) (secondLine?_bind second _)).mpr ?_
        generalize secondLine? second = found at harrow ⊢
        generalize match? arrowPattern second = others at harrow hmessage
        cases harrow with
        | none =>
          rw [Option.map_none, ite_self] at hmessage
          cases hmessage
          simp only [Option.map_none, ite_self]
          exact .none
        | some harrow =>
          obtain ⟨gap'', path, rfl, hlength⟩ := harrow
          -- reading looks for empty parts last, the pattern stops at the first of them
          by_cases hline : restOfLine afterCode = []
          · rw [if_pos hline] at hmessage
            cases hmessage
            simp [hline]
          rw [if_neg hline] at hmessage
          cases hmessage with
          | some hmessage =>
            obtain ⟨gap, text, rfl, htext, hgap⟩ := hmessage
            by_cases hseverity : cs.takeWhile Text.isWord = []
            · simp [hseverity]
            by_cases hcode : afterOpen.takeWhile Text.isWord = []
            · simp [hcode]
            simp only [hline, hseverity, hcode, Option.bind_eq_bind, Option.bind_some,
              Option.map_some, List.isEmpty_iff, Bool.or_eq_true, or_self, if_false]
            exact .some (readAs_parts _ _ _ htext hgap hlength)
      · rename_i hne
        rw [match?_char_of_ne hne, ite_self] at hmessage
        cases hmessage
        simp only [Option.map_none, ite_self]
        exact .none
    · rename_i hne
      have hnone := match?_word_of_ne [']', ':'] messagePattern hne
      simp only [List.map_cons, List.map_nil, List.cons_append, List.nil_append] at hnone
      rw [hnone, Option.map_none, ite_self, Option.map_none, Option.map_none, ite_self]
      exact .none
  · rename_i hne
    rw [match?_char_of_ne hne, Option.map_none, ite_self]
    exact .none

/-- Where a message and a path are of blanks only, the gaps before them give one back. -/
example : match? pattern "E[7]:  \n-->  :1:2".toList =
    some [['E'], ['['], ['7'], [']'], [':'], [' '], [' '], [], ['\n'], [], ['-'], ['-'], ['>'],
      [' '], [' '], [':'], ['1'], [':'], ['2']] := by
  decide +kernel

/-- The findings of a text are its matches, in order. -/
theorem allFrom_pattern (skip : Nat) (cs : List Char) :
    List.Forall₂ (fun f taken => ∃ n, ReadAs (f, n) taken)
      (allFrom skip cs) (Pattern.allFrom pattern skip cs) := by
  induction cs generalizing skip with
  | nil => exact .nil
  | cons c cs ih =>
    cases skip with
    | succ skip => exact ih skip
    | zero =>
      have hread := match?_pattern (c :: cs)
      rw [allFrom, Pattern.allFrom]
      generalize read? (c :: cs) = found at hread ⊢
      generalize match? pattern (c :: cs) = taken at hread ⊢
      cases hread with
      | none => exact ih 0
      | some hread =>
        refine .cons ⟨_, hread⟩ ?_
        rw [hread.length_eq]
        exact ih _

theorem ReadAs.diagnostic?_eq {found : Finding × Nat} {taken : List (List Char)}
    (h : ReadAs found taken) (source : Source) :
    (ofMatch taken).diagnostic? source = found.1.diagnostic? source := by
  unfold diagnostic?
  rw [h.trim_message_eq, h.line_eq, h.column_eq, h.severity_eq, h.code_eq]

end Finding

open Finding in
/-- **The diagnostics of an output come from the matches in it**, from left to right. -/
theorem compilerDiagnostics_eq_filterMap (source : Source) (output : String) :
    compilerDiagnostics source output =
      ((Pattern.all pattern output.toList).map ofMatch).filterMap (diagnostic? source) := by
  have hall := allFrom_pattern 0 output.toList
  rw [compilerDiagnostics, Finding.all, Pattern.all, List.filterMap_map]
  generalize allFrom 0 output.toList = fs at hall ⊢
  generalize Pattern.allFrom pattern 0 output.toList = ms at hall ⊢
  induction hall with
  | nil => rfl
  | cons hread _ ih =>
    obtain ⟨n, hread⟩ := hread
    rw [List.filterMap_cons, List.filterMap_cons, ih, Function.comp_apply,
      hread.diagnostic?_eq]

open Finding in
/-- **Findings are clamped to the document.** Whatever the output, the diagnostics made of it are
those of its matches with a message, a line of the document and a column, one for each and in their
order: each says what its match says, at a place on one line. -/
theorem compilerDiagnostics_clamped (source : Source) (output : String) :
    List.Forall₂ (PlacedAs source)
      (((Pattern.all pattern output.toList).map ofMatch).filter (Kept source ·))
      (compilerDiagnostics source output) := by
  rw [compilerDiagnostics_eq_filterMap]
  induction (Pattern.all pattern output.toList).map ofMatch with
  | nil => exact .nil
  | cons f fs ih =>
    by_cases hf : Kept source f
    · obtain ⟨d, hd, hplaced⟩ := hf.exists_diagnostic
      rw [List.filter_cons_of_pos (by simpa using hf), List.filterMap_cons_some hd]
      exact .cons hplaced ih
    · rw [List.filter_cons_of_neg (by simpa using hf),
        List.filterMap_cons_none (diagnostic?_eq_none hf)]
      exact ih

end AuroraLint
