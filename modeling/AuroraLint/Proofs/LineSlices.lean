import AuroraLint.Proofs.Line

/-!
# Lines by number, characters by column

A source keeps nothing of its text back: its lines are the text, and the columns of a line are its
characters.

* `Source.lostReturn` : the carriage return that a line ends in before it is stripped.

Main statements: `Source.rawLine?_eq` — a line and the return it lost reach from one line feed to
the next; `Source.slice?_columns` — between two columns of a line stand the characters that counting
from its start gives; `Source.lines_and_columns` — both for all lines and columns.
-/

set_option autoImplicit false

namespace AuroraLint

theorem Text.stripReturn_append (line : List Char) :
    stripReturn line ++ (if line.getLast? = some '\r' then ['\r'] else []) = line := by
  unfold stripReturn
  split
  · rename_i hlast
    obtain ⟨init, rfl⟩ := List.getLast?_eq_some_iff.mp hlast
    rw [List.dropLast_concat]
  · rw [List.append_nil]

namespace Source

variable {s : Source} {n : Nat} {line : List Char}

/-! ## Whole lines -/

/-- The carriage return that line `n` ends in, which its text leaves out; empty without one. -/
def lostReturn (s : Source) (n : Nat) : List Char :=
  if (s.rawLine? n).any (·.getLast? = some '\r') then ['\r'] else []

/-- A line with the return it lost reaches from one line feed to the next. -/
theorem rawLine?_eq (s : Source) (n : Nat) :
    s.rawLine? n = (s.line? n).map (· ++ s.lostReturn n) := by
  unfold line? lostReturn
  cases s.rawLine? n with
  | none => rfl
  | some line => simp [Text.stripReturn_append]

/-- The lines that exist have the numbers from 1 to the number of lines. -/
theorem exists_line? (hfirst : 1 ≤ n) (hlast : n ≤ s.lineCount) :
    ∃ line, s.line? n = some line := by
  cases h : s.line? n with
  | some line => exact ⟨line, rfl⟩
  | none =>
    rcases (s.line?_eq_none_iff n).mp h with h0 | hlt <;> omega

/-- The lines by their numbers are all the pieces between line feeds. -/
theorem map_range_lines (s : Source) :
    ((List.range s.lineCount).map fun i => (s.line? (i + 1)).getD [] ++ s.lostReturn (i + 1)) =
      s.rawLines := by
  refine List.ext_getElem (by simp [lineCount]) fun i hi _ => ?_
  have hcount : i < s.lineCount := by simpa using hi
  obtain ⟨line, hline⟩ := exists_line? (s := s) (n := i + 1) (by omega) (by omega)
  have hpiece : s.rawLine? (i + 1) = some s.rawLines[i] := List.getElem?_eq_getElem _
  rw [rawLine?_eq, hline, Option.map_some, Option.some_inj] at hpiece
  rw [List.getElem_map, List.getElem_range, hline, Option.getD_some]
  exact hpiece

/-! ## Columns -/

/-- A line in its text, and the places on it. -/
theorem exists_lineAt_of_line? (h : s.line? n = some line) :
    ∃ before, n = before.count '\n' + 1 ∧ Text.LineAt s.chars before (line ++ s.lostReturn n) ∧
      ∀ column, s.position? n column = some (.ofFront (before ++ line.take (column - 1))) := by
  have hraw : s.rawLine? n = some (line ++ s.lostReturn n) := by
    rw [rawLine?_eq, h, Option.map_some]
  cases n with
  | zero => cases hraw
  | succ n =>
    obtain ⟨before, hat, rfl, hbytes⟩ := Text.lineAt_of_rawLines hraw
    refine ⟨before, rfl, hat, fun column => ?_⟩
    have hstrip : Text.stripReturn (line ++ s.lostReturn (before.count '\n' + 1)) = line := by
      rw [line?, hraw] at h
      exact Option.some.inj h
    rw [position?_eq_ofFront hraw hat hbytes, hstrip]

/-- The place of a column on a line that exists. -/
theorem exists_position? (h : s.line? n = some line) (column : Nat) :
    ∃ p, s.position? n column = some p ∧ p.line = n ∧
      p.column = min (column - 1) line.length + 1 ∧ p.TrueIn s.chars := by
  have hplace : s.position? n column = some ⟨n, (line.take (column - 1)).length + 1,
      s.lineStart n + Text.byteSize (line.take (column - 1))⟩ := by
    rw [position?, h]
    rfl
  refine ⟨_, hplace, rfl, by rw [List.length_take], ?_⟩
  obtain ⟨before, -, hat, hposition⟩ := exists_lineAt_of_line? h
  obtain ⟨after, htext, -⟩ := hat.text_eq
  rw [hposition, Option.some_inj] at hplace
  rw [← hplace]
  refine Position.trueIn_ofFront ⟨line.drop (column - 1) ++ (s.lostReturn n ++ after), ?_⟩
  rw [htext, List.append_assoc, ← List.append_assoc (line.take _), List.take_append_drop,
    ← List.append_assoc line]

/-- **Between two columns of a line stand the characters between them**: of those in front of the
second column, the ones from the first column on. -/
theorem slice?_columns (h : s.line? n = some line) {c c' : Nat} (hle : c ≤ c') :
    ∃ start stop, s.position? n c = some start ∧ s.position? n c' = some stop ∧
      s.slice? start stop = some ((line.take (c' - 1)).drop (c - 1)) := by
  obtain ⟨before, -, hat, hposition⟩ := exists_lineAt_of_line? h
  obtain ⟨after, htext, -⟩ := hat.text_eq
  have hcut : line.take (c - 1) ++ (line.take (c' - 1)).drop (c - 1) = line.take (c' - 1) := by
    have hfront : (line.take (c' - 1)).take (c - 1) = line.take (c - 1) := by
      rw [List.take_take, Nat.min_eq_left (by omega)]
    rw [← hfront, List.take_append_drop]
  have hsplit : s.chars = (before ++ line.take (c - 1)) ++ ((line.take (c' - 1)).drop (c - 1) ++
      (line.drop (c' - 1) ++ (s.lostReturn n ++ after))) :=
    calc s.chars = before ++ (line ++ (s.lostReturn n ++ after)) := by
          rw [htext, List.append_assoc line]
      _ = before ++ (line.take (c' - 1) ++ line.drop (c' - 1) ++ (s.lostReturn n ++ after)) := by
          rw [List.take_append_drop]
      _ = before ++ (line.take (c - 1) ++ (line.take (c' - 1)).drop (c - 1) ++
            line.drop (c' - 1) ++ (s.lostReturn n ++ after)) := by rw [hcut]
      _ = _ := by simp only [List.append_assoc]
  refine ⟨_, _, hposition c, hposition c', slice?_between hsplit rfl ?_⟩
  rw [Position.ofFront_offset, List.append_assoc, hcut]

/-- A column past the end of a line is its end. -/
theorem lineEnd_eq_position? (h : s.line? n = some line) {c : Nat} (hc : line.length < c) :
    s.position? n c = some (s.lineEnd n) := by
  obtain ⟨before, -, -, hposition⟩ := exists_lineAt_of_line? h
  have hlength : s.lineLength n = line.length := by rw [lineLength, h]; rfl
  rw [lineEnd, hposition, hposition, hlength, Option.getD_some, Nat.add_sub_cancel,
    List.take_length, List.take_of_length_le (by omega)]

/-- Columns past the end of a line are cut off at its end, and column 0 is its start. -/
theorem drop_take_columns (line : List Char) (c c' : Nat) :
    (line.take (min (max c' 1 - 1) line.length)).drop (min (max c 1 - 1) line.length) =
      (line.take (c' - 1)).drop (c - 1) := by
  have hstop : line.take (min (max c' 1 - 1) line.length) = line.take (c' - 1) := by
    rw [show max c' 1 - 1 = c' - 1 by omega, ← List.take_take, List.take_length]
  have hlength : (line.take (c' - 1)).length ≤ line.length := List.length_take_le' ..
  rw [hstop, show max c 1 - 1 = c - 1 by omega]
  by_cases hc : c - 1 ≤ line.length
  · rw [Nat.min_eq_left hc]
  · rw [List.drop_of_length_le (by omega), List.drop_of_length_le (by omega)]

/-- **Lines and columns address all of a text.** The lines, each with the carriage return it lost,
are the text between its line feeds. Between two columns of a line, cut off at its end, stand the
characters that counting gives, and in particular its span holds the whole line. No other number
addresses anything. -/
theorem lines_and_columns (s : Source) :
    List.intercalate ['\n'] ((List.range s.lineCount).map fun i =>
      (s.line? (i + 1)).getD [] ++ s.lostReturn (i + 1)) = s.chars ∧
    (∀ n, 1 ≤ n → n ≤ s.lineCount → ∃ line, s.line? n = some line ∧ '\n' ∉ line ∧
      (∀ c c', c ≤ c' → ∃ start stop, s.position? n c = some start ∧ s.position? n c' = some stop ∧
        s.slice? start stop = some ((line.take (min (max c' 1 - 1) line.length)).drop
          (min (max c 1 - 1) line.length))) ∧
      s.slice? (s.lineSpan n).start (s.lineSpan n).stop = some line) ∧
    ∀ n, n = 0 ∨ s.lineCount < n → s.line? n = none ∧ ∀ c, s.position? n c = none := by
  refine ⟨?_, fun n hfirst hlast => ?_, fun n hn => ?_⟩
  · rw [map_range_lines]
    exact Text.intercalate_rawLines s.chars
  · obtain ⟨line, hline⟩ := exists_line? hfirst hlast
    refine ⟨line, hline, fun hmem => ?_, fun c c' hle => ?_, ?_⟩
    · obtain ⟨before, -, hat, -⟩ := exists_lineAt_of_line? hline
      exact hat.newline_not_mem (List.mem_append_left _ hmem)
    · rw [drop_take_columns]
      exact slice?_columns hline hle
    · have hwhole : 1 ≤ line.length + 1 := Nat.le_add_left ..
      obtain ⟨start, stop, hstart, hstop, hslice⟩ := slice?_columns hline hwhole
      have hend : s.lineEnd n = stop := by
        rw [lineEnd_eq_position? hline (Nat.lt_succ_self _)] at hstop
        exact Option.some.inj hstop
      have hnumber : start.line = n := by
        obtain ⟨text, -, hposition⟩ := Option.map_eq_some_iff.mp hstart
        rw [← hposition]
      simp only [lineSpan, toLineEnd, span, hstart, Option.getD_some, hnumber, hend, hslice]
      simp
  · have hnone := (s.line?_eq_none_iff n).mpr hn
    exact ⟨hnone, fun c => by rw [position?, hnone, Option.map_none]⟩

end Source

end AuroraLint
