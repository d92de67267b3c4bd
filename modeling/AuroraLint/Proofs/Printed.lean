import AuroraLint.Proofs.Forms
import AuroraLint.Proofs.LineByLine

/-!
# Printing tokens and lexing them again

A lexeme has its form by itself, and on a line of its own nothing stands around it. So the lexemes
of a text, printed one on a line, are lexed as the tokens they come from.

* `Lexer.Scanned.core`        : what printing a token keeps of it.
* `Lexer.Scanned.StandsAlone` : the lexeme of the token, as a text of its own, is lexed as it.

Main statements: `Lexer.Spells.standsAlone` — every lexeme of a text stands alone, a quote that
opens no string apart; `Lexer.scan_printed` — tokens that stand alone are lexed back from their
lines; `Lexer.tokenize_printed` — lexing inverts printing.
-/

set_option autoImplicit false

namespace AuroraLint.Lexer

/-! ## Tokens and what is printed of them -/

namespace Scanned

/-- The kind and the text of a token, and whether it is finished. -/
def core (s : Scanned) : (Kind × String) × Bool :=
  (s.token.shape, s.terminated)

/-- The core of the end of a document. -/
def endCore : (Kind × String) × Bool :=
  ((.eof, ""), true)

@[simp] theorem core_ending (file : String) (text : List Char) :
    (ending file text).core = endCore := rfl

@[simp] theorem core_down (lines bytes : Nat) (s : Scanned) : (s.down lines bytes).core = s.core :=
  rfl

/-- The lexeme of the token, as a text of its own, is lexed as the token and nothing else. -/
def StandsAlone (s : Scanned) : Prop :=
  ∀ file : String, (scan (.ofText file s.token.lexeme.toList)).map core = [s.core, endCore]

/-- Every unfinished token is one error. -/
theorem length_errors (scanned : List Scanned) :
    (scanned.filterMap diagnostic?).length = (scanned.map core).countP fun p => !p.2 := by
  rw [List.length_filterMap_eq_countP, List.countP_map]
  apply List.countP_congr
  intro s _
  by_cases h : s.terminated = true <;> simp [diagnostic?, core, h]

end Scanned

/-! ## Lexemes alone -/

/-- **A lexeme of a text stands alone**, unless it is a quote that opens no string. -/
theorem Spells.standsAlone {text before tail : List Char} {c : Char} {lexeme : Lexeme}
    (h : Spells text before c tail lexeme) (hescaped : lexeme.kind = .unknown → c :: tail ≠ ['"'])
    (file : String) : (Scanned.spelling file before lexeme (c :: tail)).StandsAlone := by
  intro file'
  obtain ⟨after, _, hread⟩ := h.text_eq
  have hform := Lexeme.form_of_read hread h.more_eq
  have halone : Lexeme.read none c tail = lexeme := by
    rw [Lexeme.read_of_form hform hescaped, ← h.more_eq]
  have hgap : trivia false ([] ++ c :: (tail ++ [])) = ([] : List Char).length := by
    simp [trivia, h.not_blank, h.not_hash]
  have hread' : Lexeme.read (lastOnLine ([] ++ [])) c (tail ++ []) = lexeme := by
    rw [List.append_nil, List.append_nil]
    exact halone
  have hscan := scan_token file' hgap hread' h.more_eq
  have hend := @scan_gap file' ([] ++ [] ++ c :: tail) [] rfl
  rw [hend] at hscan
  have htext : (Scanned.spelling file before lexeme (c :: tail)).token.lexeme.toList =
      [] ++ c :: (tail ++ []) := by
    simp [Scanned.spelling]
  rw [htext, Cursor.ofText_eq_between, hscan]
  rfl

/-! ## Lines of lexemes -/

/-- **Tokens that stand alone are lexed back from their lines.** -/
theorem scan_printed (file : String) {scanned : List Scanned}
    (h : ∀ s ∈ scanned, s.StandsAlone) :
    (scan (.ofText file (List.intercalate ['\n'] (scanned.map (·.token.lexeme.toList))))).map
      Scanned.core = scanned.map Scanned.core ++ [Scanned.endCore] := by
  induction scanned with
  | nil =>
    have hend := @scan_gap file [] [] rfl
    rw [List.map_nil, List.intercalate_nil, Cursor.ofText_eq_between, hend]
    rfl
  | cons s scanned ih =>
    have hfirst := h s List.mem_cons_self file
    have hrest := ih fun s' hs' => h s' (List.mem_cons_of_mem _ hs')
    cases scanned with
    | nil => simpa using hfirst
    | cons s' scanned =>
      have hdown : ∀ (lines bytes : Nat) (ss : List Scanned),
          (ss.map (Scanned.down lines bytes)).map Scanned.core = ss.map Scanned.core := by
        intro lines bytes ss
        rw [List.map_map]
        rfl
      simp only [List.map_cons] at hrest ⊢
      rw [List.intercalate_cons_cons, List.append_assoc, List.singleton_append, scan_append_line,
        List.map_append, hdown, List.map_dropLast, hfirst, hrest]
      rfl

/-- **Lexing inverts printing.** Print the lexemes of a text, the end of the document apart, one on
a line. If none of them is a quote that opens no string, then the tokens of what was printed have
the kinds and lexemes they had, the end of the document comes last, and there are as many errors as
before. -/
theorem tokenize_printed (file file' text : String)
    (h : ∀ t ∈ (tokenize file text).1, t.kind = .unknown → t.lexeme ≠ "\"") :
    let ts := (tokenize file text).1.filter (·.kind ≠ .eof)
    let printed := String.intercalate "\n" (ts.map (·.lexeme))
    (tokenize file' printed).1.map Token.shape = ts.map Token.shape ++ [(.eof, "")] ∧
      (tokenize file' printed).2.length = (tokenize file text).2.length := by
  intro ts printed
  obtain ⟨init, hscan, hkinds⟩ := scan_eq_append_ending file text.toList
  have hts : ts = init.map (·.token) := by
    have hkept : (init.map (·.token)).filter (·.kind ≠ .eof) = init.map (·.token) :=
      List.filter_eq_self.mpr (by simpa using hkinds)
    simp only [ts, tokenize, hscan, List.map_append, List.filter_append, hkept]
    simp [Scanned.ending]
  have halone : ∀ s ∈ init, s.StandsAlone := by
    intro s hs
    have hmem : s ∈ scan (.ofText file text.toList) := hscan ▸ List.mem_append_left _ hs
    rcases (tiling_scan file [] text.toList).mem_cases hmem with rfl | ⟨before, c, tail, lexeme, _,
      hsp, rfl⟩
    · exact absurd rfl (hkinds _ hs)
    · refine hsp.standsAlone (fun hunknown hquote => ?_) file
      exact h _ (List.mem_map_of_mem hmem) hunknown (congrArg String.ofList hquote)
  have hprinted : printed.toList =
      List.intercalate ['\n'] (init.map (·.token.lexeme.toList)) := by
    simp only [printed, hts, String.toList_intercalate, List.map_map]
    rfl
  have hagain := scan_printed file' halone
  rw [← hprinted] at hagain
  constructor
  · have hshapes := congrArg (List.map Prod.fst) hagain
    rw [List.map_append, List.map_map, List.map_map] at hshapes
    rw [hts, List.map_map]
    simp only [tokenize, List.map_map]
    exact hshapes
  · have hend : (Scanned.ending file text.toList).diagnostic? = none := rfl
    simp only [tokenize, hscan, Scanned.length_errors, hagain, List.map_append, List.map_cons,
      List.map_nil, Scanned.core_ending]

/-- Two-character symbols, numbers next to points, a string with an escaped quote, a comment, a
backslash in front of a blank and a quote, and a string that its line cuts off. -/
theorem tokenize_printed_crowded :
    let text := "f(1..2)->.5==3. \"a\\\"b\" # \"\n\\ \"x\\\""
    let ts := (tokenize "p.aur" text).1.filter (·.kind ≠ .eof)
    let printed := String.intercalate "\n" (ts.map (·.lexeme))
    (∀ t ∈ (tokenize "p.aur" text).1, t.kind = .unknown → t.lexeme ≠ "\"") ∧
      (tokenize "p.aur" printed).1.map Token.shape = ts.map Token.shape ++ [(.eof, "")] ∧
      (tokenize "p.aur" printed).2.length = (tokenize "p.aur" text).2.length := by
  intro text ts printed
  have h : ∀ t ∈ (tokenize "p.aur" text).1, t.kind = .unknown → t.lexeme ≠ "\"" := by
    decide +kernel
  exact ⟨h, tokenize_printed "p.aur" "p.aur" text h⟩

end AuroraLint.Lexer
