import AuroraLint.Proofs.Stream
import AuroraLint.Style

/-!
# Lines of tokens

The style checks go line by line.

* `Style.IsLine`    : the tokens between two places are those of one line.
* `Style.LinesFrom` : lines one behind the other, up to the end of the document.

Main statement: `Style.tokenLines_spec` — these are the lines that the checks go through.
-/

set_option autoImplicit false

namespace AuroraLint.Style

/-- The tokens from `start` up to, not including, `stop` are those of one line. -/
structure IsLine (ts : List Token) (start stop : Nat) : Prop where
  lt : start < stop
  starts : startsLine ts start = true
  same : ∀ j < stop, start ≤ j →
    kindAt ts j ≠ .eof ∧ (tokenAt ts j).line = (tokenAt ts start).line
  ends : kindAt ts stop = .eof ∨ (tokenAt ts stop).line ≠ (tokenAt ts start).line

/-- The lines from a token on to the end of the document; each starts where the one before stops. -/
inductive LinesFrom (ts : List Token) : Nat → List Extent → Prop
  | nil {i : Nat} (h : kindAt ts i = .eof) : LinesFrom ts i []
  | cons {start stop : Nat} {lines : List Extent} (h : IsLine ts start stop)
      (hrest : LinesFrom ts stop lines) : LinesFrom ts start (⟨start, stop⟩ :: lines)

section Lines

variable {ts : List Token} {start stop : Nat}

/-- A line has its end within the document. -/
theorem IsLine.stop_lt (h : IsLine ts start stop) (hts : EndsInEof ts) : stop < ts.length := by
  have hlt := h.lt
  have hlast := hts.succ_lt (h.same (stop - 1) (by omega) (by omega)).1
  omega

theorem startsLine_eq_true_iff {i : Nat} :
    startsLine ts (i + 1) = true ↔ (tokenAt ts i).line ≠ (tokenAt ts (i + 1)).line := by
  simp [startsLine]

/-- Inside a line no other one starts. -/
theorem IsLine.eq_start (h : IsLine ts start stop) {j : Nat} (hj : startsLine ts j = true)
    (hle : start ≤ j) (hlt : j < stop) : j = start := by
  rcases Nat.eq_or_lt_of_le hle with rfl | hlt'
  · rfl
  · obtain ⟨j, rfl⟩ := Nat.exists_eq_succ_of_ne_zero (show j ≠ 0 by omega)
    have hline := (h.same (j + 1) hlt hle).2
    have hbefore := (h.same j (by omega) (by omega)).2
    exact absurd (hbefore.trans hline.symm) (startsLine_eq_true_iff.mp hj)

/-- The token behind the first is on the same line exactly if it belongs to it. -/
theorem IsLine.second_iff (h : IsLine ts start stop) (hk : kindAt ts (start + 1) ≠ .eof) :
    start + 1 < stop ↔ (tokenAt ts (start + 1)).line = (tokenAt ts start).line := by
  constructor
  · intro hlt
    exact (h.same _ hlt (Nat.le_succ _)).2
  · intro hline
    apply Nat.lt_of_le_of_ne h.lt
    intro hstop
    rcases h.ends with heof | hne
    · rw [← hstop] at heof
      exact hk heof
    · rw [← hstop] at hne
      exact hne hline

/-- A token stands in front of the end of a line exactly if it is on no later one. -/
theorem IsLine.lt_stop_iff {file : String} {text : List Char} (h : IsLine ts start stop)
    (hstream : TokenStream file text ts) {j : Nat} (hj : kindAt ts j ≠ .eof) :
    j < stop ↔ (tokenAt ts j).line ≤ (tokenAt ts start).line := by
  have hlen := hstream.endsInEof.succ_lt hj
  constructor
  · intro hlt
    rcases Nat.lt_or_ge j start with hbefore | hin
    · have := hstream.endsInEof.succ_lt (h.same start h.lt (Nat.le_refl _)).1
      exact hstream.line_le (Nat.le_of_lt hbefore) this
    · exact Nat.le_of_eq (h.same j hlt hin).2
  · intro hle
    apply Nat.lt_of_not_le
    intro hstop
    have hlt := h.lt
    have hend : kindAt ts stop ≠ .eof := hstream.endsInEof.kindAt_ne_eof (by omega)
    have hne := h.ends.resolve_left hend
    have hfirst := hstream.line_le (Nat.le_of_lt hlt) (show stop + 1 < ts.length by omega)
    have hlast := hstream.line_le hstop hlen
    omega

theorem linesFrom_spec (hts : EndsInEof ts) {i : Nat} (hi : i < ts.length)
    (hle : start ≤ i) (hstart : startsLine ts start = true)
    (hsame : ∀ j < i, start ≤ j →
      kindAt ts j ≠ .eof ∧ (tokenAt ts j).line = (tokenAt ts start).line) :
    LinesFrom ts start (linesFrom start (tokenAt ts start).line i (ts.drop i)) := by
  generalize hrest : ts.drop i = rest
  induction rest generalizing start i with
  | nil =>
    rw [drop_eq_tokenAt_cons hi] at hrest
    cases hrest
  | cons t rest ih =>
    rw [drop_eq_tokenAt_cons hi] at hrest
    obtain ⟨rfl, hdrop⟩ := List.cons.inj hrest
    rw [linesFrom]
    split
    · rename_i hk
      unfold segment
      split
      · rename_i hlt
        exact .cons ⟨hlt, hstart, hsame, .inl hk⟩ (.nil hk)
      · obtain rfl : start = i := by omega
        exact .nil hk
    · rename_i hk
      have hnext := hts.succ_lt hk
      split
      · rename_i hline
        have hlt : start < i := by
          apply Nat.lt_of_le_of_ne hle
          rintro rfl
          exact hline rfl
        have hfirst : startsLine ts i = true := by
          obtain ⟨i, rfl⟩ := Nat.exists_eq_succ_of_ne_zero (show i ≠ 0 by omega)
          rw [startsLine_eq_true_iff, (hsame i (by omega) (by omega)).2]
          exact Ne.symm hline
        rw [segment, if_pos hlt]
        refine .cons ⟨hlt, hstart, hsame, .inr hline⟩ (ih hnext (Nat.le_succ i) hfirst ?_ hdrop)
        intro j hj hij
        obtain rfl : i = j := by omega
        exact ⟨hk, rfl⟩
      · rename_i hline
        refine ih hnext (Nat.le_succ_of_le hle) hstart ?_ hdrop
        intro j hj hij
        rcases Nat.lt_succ_iff_lt_or_eq.mp hj with hj | rfl
        · exact hsame j hj hij
        · exact ⟨hk, Decidable.not_not.mp hline⟩

/-- The lines of a document follow each other from its first token on. -/
theorem tokenLines_spec (hts : EndsInEof ts) : LinesFrom ts 0 (tokenLines ts) := by
  have hlines : tokenLines ts = linesFrom 0 (tokenAt ts 0).line 0 (ts.drop 0) := by
    cases ts with
    | nil => exact absurd hts.length_pos (Nat.lt_irrefl 0)
    | cons t rest => rfl
  rw [hlines]
  exact linesFrom_spec hts hts.length_pos (Nat.le_refl 0) rfl fun j hj => absurd hj (Nat.not_lt_zero j)

theorem LinesFrom.isLine {i : Nat} {lines : List Extent} (h : LinesFrom ts i lines) {line : Extent}
    (hline : line ∈ lines) : IsLine ts line.start line.stop := by
  induction h with
  | nil => cases hline
  | cons h _ ih =>
    rcases List.mem_cons.mp hline with rfl | hline
    · exact h
    · exact ih hline

/-- A line of tokens has a token, and never the end of the document. -/
theorem mem_tokenLines (hts : EndsInEof ts) {line : Extent} (h : line ∈ tokenLines ts) :
    line.start < line.stop ∧ line.stop < ts.length := by
  have hline := (tokenLines_spec hts).isLine h
  exact ⟨hline.lt, hline.stop_lt hts⟩

end Lines

end AuroraLint.Style
