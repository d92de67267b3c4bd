import AuroraLint.Proofs.Line
import AuroraLint.Proofs.Moved.Basic

/-!
# Lines at other byte offsets

* `Source.Moved` : a text whose lines and columns are those of another, at new offsets.

Main statements: `Source.Moved.of_lines` — it is enough to follow the places of each line — and
`Source.Moved.lineEnd` and `Source.Moved.lineSpan` — lines end where they did.
-/

set_option autoImplicit false

namespace AuroraLint

/-- The source `s'` has the lines and columns of `s`, at their new offsets. -/
structure Source.Moved (g : OffsetMap) (s s' : Source) : Prop where
  name_eq : s'.name = s.name
  byteSize_eq : s'.byteSize = g s.byteSize
  lineLength_eq : ∀ line, s'.lineLength line = s.lineLength line
  position?_eq : ∀ line column,
    s'.position? line column = (s.position? line column).map (Position.mapOffset g)

namespace Source.Moved

variable {g : OffsetMap} {s s' : Source}

/-- What a line of one text has to do with the line of the same number in the other: without their
carriage returns they are of one length, and their places are the same at the new offsets. -/
structure Line (g : OffsetMap) (before row before' row' : List Char) : Prop where
  length_eq : (Text.stripReturn row').length = (Text.stripReturn row).length
  place_eq : ∀ n, Position.ofFront (before' ++ (Text.stripReturn row').take n) =
    (Position.ofFront (before ++ (Text.stripReturn row).take n)).mapOffset g

/-- Two texts that go together line by line. -/
theorem of_lines (hname : s'.name = s.name) (hbytes : s'.byteSize = g s.byteSize)
    (hlen : s'.rawLines.length = s.rawLines.length)
    (hlines : ∀ {n : Nat} {before row before' row' : List Char},
      s.rawLines[n]? = some row → s'.rawLines[n]? = some row' →
      Text.LineAt s.chars before row → Text.LineAt s'.chars before' row' →
      before'.count '\n' = before.count '\n' → Line g before row before' row') :
    s.Moved g s' := by
  have hrows : ∀ line, (s.line? line = none ∧ s'.line? line = none) ∨
      ∃ before row before' row', Line g before row before' row' ∧
        s.line? line = some (Text.stripReturn row) ∧ s'.line? line = some (Text.stripReturn row') ∧
        ∀ column, s.position? line column =
            some (.ofFront (before ++ (Text.stripReturn row).take (column - 1))) ∧
          s'.position? line column =
            some (.ofFront (before' ++ (Text.stripReturn row').take (column - 1))) := by
    intro line
    cases line with
    | zero => exact .inl ⟨rfl, rfl⟩
    | succ n =>
      by_cases hn : n < s.rawLines.length
      · obtain ⟨row, hrow⟩ : ∃ row, s.rawLines[n]? = some row := ⟨_, List.getElem?_eq_getElem hn⟩
        obtain ⟨row', hrow'⟩ : ∃ row', s'.rawLines[n]? = some row' :=
          ⟨_, List.getElem?_eq_getElem (hlen ▸ hn)⟩
        obtain ⟨before, hat, rfl, hstart⟩ := Text.lineAt_of_rawLines hrow
        obtain ⟨before', hat', hcount, hstart'⟩ := Text.lineAt_of_rawLines hrow'
        refine .inr ⟨before, row, before', row', hlines hrow hrow' hat hat' hcount,
          congrArg (Option.map _) hrow, congrArg (Option.map _) hrow', fun column => ⟨?_, ?_⟩⟩
        · exact position?_eq_ofFront hrow hat hstart column
        · rw [← hcount] at hrow' hstart' ⊢
          exact position?_eq_ofFront hrow' hat' hstart' column
      · have hnone : s.rawLines[n]? = none := List.getElem?_eq_none (by omega)
        have hnone' : s'.rawLines[n]? = none := List.getElem?_eq_none (by omega)
        exact .inl ⟨congrArg (Option.map _) hnone, congrArg (Option.map _) hnone'⟩
  refine ⟨hname, hbytes, fun line => ?_, fun line column => ?_⟩
  · rcases hrows line with ⟨hrow, hrow'⟩ | ⟨_, _, _, _, hline, hrow, hrow', _⟩
    · rw [lineLength, lineLength, hrow, hrow']
    · simp only [lineLength, hrow, hrow', Option.map_some, hline.length_eq]
  · rcases hrows line with ⟨hrow, hrow'⟩ | ⟨_, _, _, _, hline, _, _, hplace⟩
    · rw [position?, position?, hrow, hrow']
      rfl
    · rw [(hplace column).1, (hplace column).2, hline.place_eq, Option.map_some]

/-- A line ends where it did. -/
theorem lineEnd (h : s.Moved g s') (line : Nat) :
    s'.lineEnd line = (s.lineEnd line).mapOffset g := by
  rw [Source.lineEnd, Source.lineEnd, h.lineLength_eq, h.position?_eq, h.byteSize_eq]
  cases s.position? line (s.lineLength line + 1) <;> rfl

/-- A whole line reaches over what it did. -/
theorem lineSpan (h : s.Moved g s') (line : Nat) :
    s'.lineSpan line = (s.lineSpan line).mapOffset g := by
  have hstart : (s'.position? line 1).getD ⟨line, 1, s'.byteSize⟩ =
      ((s.position? line 1).getD ⟨line, 1, s.byteSize⟩).mapOffset g := by
    rw [h.position?_eq, h.byteSize_eq]
    cases s.position? line 1 <;> rfl
  rw [Source.lineSpan, hstart, toLineEnd, h.lineEnd, span, h.name_eq]
  rfl

end Source.Moved

end AuroraLint
