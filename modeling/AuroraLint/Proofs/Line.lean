import AuroraLint.Proofs.Position
import AuroraLint.Source

/-!
# Lines in their text

* `Text.LineAt` : a piece of a text between two line feeds, with the text before and after it.

Main statements: `Text.lineAt_of_rawLines` — the pieces that a text is cut into are its lines, and
`bytesOfLines` is the place where each of them starts; `Text.exists_lineAt_front` — every front of a
text reaches into the line that counting gives; `Source.position?_eq_ofFront` — positions found by
line and column are true.
-/

set_option autoImplicit false

namespace AuroraLint

namespace Text

/-- `line` stands in `text` after `before`, has no line feed and reaches from one to the next. -/
structure LineAt (text before line : List Char) : Prop where
  text_eq : ∃ after, text = before ++ (line ++ after) ∧ (after = [] ∨ after.head? = some '\n')
  newline_not_mem : '\n' ∉ line
  before_end : before = [] ∨ before.getLast? = some '\n'

theorem utf8Size_newline : ('\n' : Char).utf8Size = 1 := by decide

/-- A line by its number from 0: as many line feeds come before it, and the lines before it take as
many bytes as the text before it. -/
theorem lineAt_of_rawLines {text line : List Char} {n : Nat} (h : (rawLines text)[n]? = some line) :
    ∃ before, LineAt text before line ∧ before.count '\n' = n ∧
      Source.bytesOfLines n (rawLines text) = byteSize before := by
  induction text generalizing n line with
  | nil =>
    cases n with
    | zero =>
      obtain rfl : [] = line := by simpa [rawLines] using h
      exact ⟨[], ⟨⟨[], rfl, .inl rfl⟩, by simp, .inl rfl⟩, rfl, rfl⟩
    | succ n => simp [rawLines] at h
  | cons c cs ih =>
    rw [rawLines] at h ⊢
    split at h
    · rename_i hc
      subst hc
      cases n with
      | zero =>
        obtain rfl : [] = line := by simpa using h
        exact ⟨[], ⟨⟨'\n' :: cs, rfl, .inr rfl⟩, by simp, .inl rfl⟩, rfl, rfl⟩
      | succ n =>
        obtain ⟨before, ⟨⟨after, ht, ha⟩, hline, hend⟩, hcount, hbytes⟩ := ih (by simpa using h)
        refine ⟨'\n' :: before, ⟨⟨after, by simp [← ht], ha⟩, hline, .inr ?_⟩, by simp [hcount], ?_⟩
        · rcases hend with rfl | hend
          · rfl
          · simp [List.getLast?_cons, hend]
        · simp [Source.bytesOfLines, hbytes, utf8Size_newline]
    · rename_i hc
      rw [if_neg hc]
      cases hr : rawLines cs with
      | nil => exact absurd hr (rawLines_ne_nil cs)
      | cons first others =>
        rw [hr] at ih h
        simp only at h ⊢
        cases n with
        | zero =>
          obtain rfl : c :: first = line := by simpa using h
          obtain ⟨before, ⟨⟨after, ht, ha⟩, hline, hend⟩, hcount, _⟩ := @ih first 0 rfl
          -- no line feed before it, so nothing is before it
          have hb : before = [] := by
            rcases hend with hb | hend
            · exact hb
            · have := List.mem_of_getLast? hend
              exact absurd this (List.count_eq_zero.mp hcount)
          subst hb
          refine ⟨[], ⟨⟨after, by simpa using ht, ha⟩, ?_, .inl rfl⟩, rfl, rfl⟩
          simp [hline, Ne.symm hc]
        | succ n =>
          obtain ⟨before, ⟨⟨after, ht, ha⟩, hline, hend⟩, hcount, hbytes⟩ :=
            @ih line (n + 1) (by simpa using h)
          have hend' : before.getLast? = some '\n' := by
            rcases hend with rfl | hend
            · simp at hcount
            · exact hend
          refine ⟨c :: before, ⟨⟨after, by simp [← ht], ha⟩, hline, .inr ?_⟩, ?_, ?_⟩
          · simp [List.getLast?_cons, hend']
          · rw [List.count_cons_of_ne hc, hcount]
          · simp only [Source.bytesOfLines, byteSize_cons] at hbytes ⊢
            omega

/-- A text has one more line than line feeds. -/
theorem length_rawLines (cs : List Char) : (rawLines cs).length = cs.count '\n' + 1 := by
  induction cs with
  | nil => rfl
  | cons c cs ih =>
    rw [rawLines]
    split
    · rename_i hc
      simp [hc, ih]
    · rename_i hc
      rw [List.count_cons_of_ne hc, ← ih]
      split
      · rename_i hl
        exact absurd hl (rawLines_ne_nil cs)
      · rename_i hl
        simp [hl]

/-- A text without line feeds is one line. -/
theorem rawLines_of_line {cs : List Char} (h : '\n' ∉ cs) : rawLines cs = [cs] := by
  have hlength := length_rawLines cs
  rw [List.count_eq_zero.mpr h] at hlength
  obtain ⟨line, hline⟩ := List.length_eq_one_iff.mp hlength
  have hjoined := intercalate_rawLines cs
  rw [hline] at hjoined ⊢
  simpa [List.intercalate] using hjoined

/-- A line takes in everything up to a line feed. -/
theorem prefix_of_append_eq {xs ys line after : List Char} (h : xs ++ ys = line ++ after)
    (hxs : '\n' ∉ xs) (hafter : after = [] ∨ after.head? = some '\n') : xs <+: line := by
  rcases List.append_eq_append_iff.mp h with ⟨zs, rfl, _⟩ | ⟨zs, rfl, hz⟩
  · exact ⟨zs, rfl⟩
  · cases zs with
    | nil => simp
    | cons z zs =>
      -- the line would go on past its end
      rcases hafter with rfl | hafter
      · cases hz
      · obtain rfl : z = '\n' := by
          rw [hz] at hafter
          simpa using hafter
        simp at hxs

/-- A front of a text that has as many line feeds as come before a line reaches into that line. -/
theorem LineAt.exists_front {text before line front : List Char} (h : LineAt text before line)
    (hfront : front <+: text) (hcount : before.count '\n' = front.count '\n') :
    ∃ x, front = before ++ x ∧ x <+: line := by
  obtain ⟨after, htext, hafter⟩ := h.text_eq
  have hbefore : before <+: text := ⟨line ++ after, htext.symm⟩
  rcases List.prefix_or_prefix_of_prefix hbefore hfront with ⟨x, rfl⟩ | ⟨y, hy⟩
  · obtain ⟨rest, hrest⟩ := hfront
    have hx : '\n' ∉ x := by
      rw [List.count_append] at hcount
      exact List.count_eq_zero.mp (by omega)
    rw [htext, List.append_assoc] at hrest
    exact ⟨x, rfl, prefix_of_append_eq (List.append_cancel_left hrest) hx hafter⟩
  · -- what comes before a line ends in a line feed, and none is left for it
    have hy0 : '\n' ∉ y := by
      rw [← hy, List.count_append] at hcount
      exact List.count_eq_zero.mp (by omega)
    rcases h.before_end with hnil | hlast
    · rw [hnil] at hy
      exact ⟨[], by simpa [hnil] using (List.append_eq_nil_iff.mp hy).1, List.nil_prefix⟩
    · cases hyl : y.getLast? with
      | none =>
        rw [List.getLast?_eq_none_iff.mp hyl, List.append_nil] at hy
        exact ⟨[], by rw [hy, List.append_nil], List.nil_prefix⟩
      | some z =>
        rw [← hy, List.getLast?_append, hyl] at hlast
        obtain rfl : z = '\n' := by simpa using hlast
        exact absurd (List.mem_of_getLast? hyl) hy0

/-- Every front of a text reaches into the line whose number is the count of its line feeds. -/
theorem exists_lineAt_front {text front : List Char} (h : front <+: text) :
    ∃ before x line, (rawLines text)[front.count '\n']? = some line ∧ LineAt text before line ∧
      front = before ++ x ∧ x <+: line ∧ before.count '\n' = front.count '\n' ∧
      Source.bytesOfLines (front.count '\n') (rawLines text) = byteSize before := by
  have hlt : front.count '\n' < (rawLines text).length := by
    have hcount := h.sublist.count_le '\n'
    rw [length_rawLines]
    omega
  obtain ⟨line, hline⟩ : ∃ line, (rawLines text)[front.count '\n']? = some line :=
    ⟨_, List.getElem?_eq_getElem hlt⟩
  obtain ⟨before, hat, hcount, hbytes⟩ := lineAt_of_rawLines hline
  obtain ⟨x, hx, hprefix⟩ := hat.exists_front h hcount
  exact ⟨before, x, line, hline, hat, hx, hprefix, hcount, hbytes⟩

/-- Every character but a line feed stands on the line whose number is the count of the line feeds
before it. -/
theorem exists_lineAt {front rest : List Char} {c : Char} (hc : c ≠ '\n') :
    ∃ before x line, (rawLines (front ++ c :: rest))[front.count '\n']? = some line ∧
      LineAt (front ++ c :: rest) before line ∧ front = before ++ x ∧ x ++ [c] <+: line ∧
      before.count '\n' = front.count '\n' ∧
      Source.bytesOfLines (front.count '\n') (rawLines (front ++ c :: rest)) = byteSize before := by
  have hprefix : front ++ [c] <+: front ++ c :: rest := ⟨rest, by simp⟩
  have hcount : (front ++ [c]).count '\n' = front.count '\n' := by simp [hc]
  obtain ⟨before, x, line, hline, hat, hx, -, hbefore, hbytes⟩ :=
    exists_lineAt_front (List.prefix_append front (c :: rest))
  obtain ⟨y, hy, hyline⟩ := hat.exists_front hprefix (hbefore.trans hcount.symm)
  rw [hx, List.append_assoc] at hy
  rw [← List.append_cancel_left hy] at hyline
  exact ⟨before, x, line, hline, hat, hx, hyline, hbefore, hbytes⟩

/-- A front of a text that ends where a line starts is told by its line feeds. -/
theorem front_unique {xs ys text : List Char} (hx : xs <+: text) (hy : ys <+: text)
    (hxend : xs = [] ∨ xs.getLast? = some '\n') (hyend : ys = [] ∨ ys.getLast? = some '\n')
    (hcount : xs.count '\n' = ys.count '\n') : xs = ys := by
  have hextend : ∀ {xs zs : List Char}, (xs ++ zs = [] ∨ (xs ++ zs).getLast? = some '\n') →
      xs.count '\n' = (xs ++ zs).count '\n' → xs = xs ++ zs := by
    intro xs zs hend hcount
    have hzs : '\n' ∉ zs := by
      rw [List.count_append] at hcount
      exact List.count_eq_zero.mp (by omega)
    rcases hend with hnil | hlast
    · simp [(List.append_eq_nil_iff.mp hnil).2]
    · cases hz : zs.getLast? with
      | none => simp [List.getLast?_eq_none_iff.mp hz]
      | some z =>
        rw [List.getLast?_append, hz] at hlast
        obtain rfl : z = '\n' := by simpa using hlast
        exact absurd (List.mem_of_getLast? hz) hzs
  rcases List.prefix_or_prefix_of_prefix hx hy with ⟨zs, rfl⟩ | ⟨zs, rfl⟩
  · exact hextend hyend hcount
  · exact (hextend hxend hcount.symm).symm

/-- A line is told by the number of line feeds before it. -/
theorem LineAt.unique {text before row before' row' : List Char} (h : LineAt text before row)
    (h' : LineAt text before' row') (hcount : before'.count '\n' = before.count '\n') :
    before' = before ∧ row' = row := by
  obtain ⟨after, htext, hafter⟩ := h.text_eq
  obtain ⟨after', htext', hafter'⟩ := h'.text_eq
  obtain rfl : before' = before :=
    front_unique ⟨_, htext'.symm⟩ ⟨_, htext.symm⟩ h'.before_end h.before_end hcount
  have hrows : row' ++ after' = row ++ after := List.append_cancel_left (htext'.symm.trans htext)
  have hle := prefix_of_append_eq hrows h'.newline_not_mem hafter
  have hge := prefix_of_append_eq hrows.symm h.newline_not_mem hafter'
  exact ⟨rfl, hle.eq_of_length_le hge.length_le⟩

theorem stripReturn_prefix (line : List Char) : stripReturn line <+: line := by
  unfold stripReturn
  split
  · exact List.dropLast_prefix line
  · exact List.prefix_rfl

theorem LineAt.take_stripReturn_prefix {text before row : List Char} (h : LineAt text before row)
    (n : Nat) : before ++ (stripReturn row).take n <+: text := by
  obtain ⟨after, rfl, _⟩ := h.text_eq
  have hrow : (stripReturn row).take n <+: row :=
    List.IsPrefix.trans (List.take_prefix ..) <| stripReturn_prefix row
  exact (List.prefix_append_right_inj before).mpr (hrow.trans (List.prefix_append ..))

/-- Only a carriage return is stripped. -/
theorem prefix_stripReturn {x line : List Char} {c : Char} (h : x ++ [c] <+: line) (hc : c ≠ '\r') :
    x ++ [c] <+: stripReturn line := by
  unfold stripReturn
  split
  · rename_i hr
    obtain ⟨ys, rfl⟩ := h
    rcases List.eq_nil_or_concat ys with rfl | ⟨zs, z, rfl⟩
    · exact absurd (by simpa using hr) hc
    · exact ⟨zs, by rw [List.concat_eq_append, ← List.append_assoc, List.dropLast_concat]⟩
  · exact h

end Text

/-! ## Positions by line and column -/

/-- A place on a line: its number and the characters and bytes up to it. -/
theorem Position.ofFront_lineAt {text before line x : List Char} (h : Text.LineAt text before line)
    (hx : x <+: line) : ofFront (before ++ x) =
      ⟨before.count '\n' + 1, x.length + 1, Text.byteSize before + Text.byteSize x⟩ := by
  have hnot : '\n' ∉ x := fun hmem => h.newline_not_mem (hx.subset hmem)
  have htake : (x.reverse ++ before.reverse).takeWhile (· != '\n') = x.reverse := by
    rw [List.takeWhile_append_of_pos]
    · have hbefore : before.reverse.takeWhile (· != '\n') = [] := by
        rcases h.before_end with rfl | hlast
        · rfl
        · obtain ⟨ys, rfl⟩ := List.getLast?_eq_some_iff.mp hlast
          simp
      rw [hbefore, List.append_nil]
    · intro a ha
      have : a ≠ '\n' := fun he => hnot (he ▸ List.mem_reverse.mp ha)
      simpa using this
  simp only [ofFront, List.count_append, List.count_eq_zero.mpr hnot, List.reverse_append, htake,
    List.length_reverse, Text.byteSize_append, Nat.add_comm 1, Nat.add_zero]

namespace Source

variable {s : Source} {before line : List Char}

/-- Positions found by line and column are true. -/
theorem position?_eq_ofFront (hline : s.rawLines[before.count '\n']? = some line)
    (hat : Text.LineAt s.chars before line)
    (hbytes : bytesOfLines (before.count '\n') s.rawLines = Text.byteSize before) (column : Nat) :
    s.position? (before.count '\n' + 1) column =
      some (.ofFront (before ++ (Text.stripReturn line).take (column - 1))) := by
  have hpre : (Text.stripReturn line).take (column - 1) <+: line :=
    (List.take_prefix ..).trans (Text.stripReturn_prefix line)
  rw [Position.ofFront_lineAt hat hpre]
  simp [position?, line?, rawLine?, hline, lineStart, hbytes]

/-- The end of a line is the place after its last character. -/
theorem lineEnd_eq_ofFront (hline : s.rawLines[before.count '\n']? = some line)
    (hat : Text.LineAt s.chars before line)
    (hbytes : bytesOfLines (before.count '\n') s.rawLines = Text.byteSize before) :
    s.lineEnd (before.count '\n' + 1) = .ofFront (before ++ Text.stripReturn line) := by
  have hlen : s.lineLength (before.count '\n' + 1) = (Text.stripReturn line).length := by
    simp [lineLength, line?, rawLine?, hline]
  rw [lineEnd, position?_eq_ofFront hline hat hbytes, hlen]
  simp

/-- Between two places of the text stands what is written there. -/
theorem slice?_between {front mid back : List Char} {start stop : Position}
    (htext : s.chars = front ++ (mid ++ back)) (hstart : start.offset = Text.byteSize front)
    (hstop : stop.offset = Text.byteSize (front ++ mid)) : s.slice? start stop = some mid := by
  have hsize : s.byteSize = Text.byteSize front + Text.byteSize mid + Text.byteSize back := by
    rw [byteSize, htext]
    simp [Nat.add_assoc]
  have hlo : min start.offset s.byteSize = Text.byteSize front := by omega
  have hhi : min (max stop.offset (Text.byteSize front)) s.byteSize =
      Text.byteSize front + Text.byteSize mid := by
    rw [hstop, Text.byteSize_append]
    omega
  simp only [slice?, hlo, hhi, htext, Text.slice?_byteSize]

end Source

end AuroraLint
