import AuroraLint.Proofs.Checked.Basic
import AuroraLint.Proofs.CursorRuns

/-!
# Cursors that count in words

* `Checked.advance` : one character further, with a word for each counter that moves.
* `Checked.skip`    : several characters further.
* `Checked.run`     : operations, from left to right.

Main statements: `Checked.skip_between` — reading fails exactly if what has been read is no longer
countable; `Checked.run_between` — so does a run; `Checked.run_keeps_place_in_words` — until then it
keeps its place.
-/

set_option autoImplicit false

namespace AuroraLint.Checked

open Text (Countable)

/-! ## One character -/

/-- As `Position.advance`. -/
def advancePosition (p : Position) (c : Char) : Checked Position := do
  let offset ← word (p.offset + c.utf8Size)
  if c = '\n' then do
    let line ← word (p.line + 1)
    return ⟨line, 1, offset⟩
  else do
    let column ← word (p.column + 1)
    return ⟨p.line, column, offset⟩

/-- As `Cursor.advance`. -/
def advance (c : Cursor) : Checked Cursor :=
  match c.rest with
  | [] => pure c
  | ch :: rest => do
    let pos ← advancePosition c.pos ch
    return ⟨c.file, ch :: c.past, rest, pos⟩

theorem advancePosition_eq_ok {p : Position} {c : Char} (h : (p.advance c).Fits) :
    advancePosition p c = .ok (p.advance c) := by
  have hoffset : p.offset + c.utf8Size < wordSize := p.offset_advance c ▸ h.offset_lt
  unfold Position.advance at h ⊢
  rw [advancePosition, word_eq_ok hoffset, ok_bind]
  by_cases hc : c = '\n'
  · rw [if_pos hc] at h ⊢
    rw [if_pos hc, word_eq_ok h.line_lt]
    rfl
  · rw [if_neg hc] at h ⊢
    rw [if_neg hc, word_eq_ok h.column_lt]
    rfl

theorem advancePosition_eq_error {p : Position} {c : Char} (hp : p.Fits) (h : ¬ (p.advance c).Fits) :
    advancePosition p c = .error .overflow := by
  rw [advancePosition]
  by_cases hoffset : p.offset + c.utf8Size < wordSize
  · unfold Position.advance at h
    rw [word_eq_ok hoffset, ok_bind]
    by_cases hc : c = '\n'
    · have hline : ¬ p.line + 1 < wordSize := fun hline =>
        h (by rw [if_pos hc]; exact ⟨hline, one_lt_wordSize, hoffset⟩)
      rw [if_pos hc, word_eq_error hline]
      rfl
    · have hcolumn : ¬ p.column + 1 < wordSize := fun hcolumn =>
        h (by rw [if_neg hc]; exact ⟨hp.line_lt, hcolumn, hoffset⟩)
      rw [if_neg hc, word_eq_error hcolumn]
      rfl
  · rw [word_eq_error hoffset]
    rfl

theorem eq_of_advancePosition_eq_ok {p q : Position} {c : Char}
    (h : advancePosition p c = .ok q) : q = p.advance c := by
  obtain ⟨offset, hoffset, h⟩ := exists_of_bind_eq_ok h
  obtain rfl := eq_of_word_eq_ok hoffset
  unfold Position.advance
  split at h
  · obtain ⟨line, hline, h⟩ := exists_of_bind_eq_ok h
    obtain rfl := eq_of_word_eq_ok hline
    rw [if_pos ‹_›]
    exact (Except.ok.inj h).symm
  · obtain ⟨column, hcolumn, h⟩ := exists_of_bind_eq_ok h
    obtain rfl := eq_of_word_eq_ok hcolumn
    rw [if_neg ‹_›]
    exact (Except.ok.inj h).symm

/-- A step that succeeds is that of the library. -/
theorem eq_of_advance_eq_ok {c next : Cursor} (h : advance c = .ok next) : next = c.advance := by
  unfold advance at h
  unfold Cursor.advance
  cases hrest : c.rest with
  | nil =>
    rw [hrest] at h
    exact (Except.ok.inj h).symm
  | cons ch rest =>
    rw [hrest] at h
    obtain ⟨pos, hpos, h⟩ := exists_of_bind_eq_ok h
    obtain rfl := eq_of_advancePosition_eq_ok hpos
    exact (Except.ok.inj h).symm

section

variable (file : String) {front rest : List Char} (h : Countable front)

include h

theorem advance_between (c : Char) :
    advance (.between file front (c :: rest)) =
      if Countable (front ++ [c]) then .ok (.between file (front ++ [c]) rest)
      else .error .overflow := by
  have hplace := Position.advance_ofFront front c
  by_cases hnext : Countable (front ++ [c])
  · have hfits := (Text.countable_concat_iff.mp hnext).2
    rw [← hplace] at hfits
    rw [if_pos hnext, advance]
    simp only [Cursor.rest_between, Cursor.pos_between, advancePosition_eq_ok hfits, ok_bind,
      pure_eq_ok, hplace]
    simp [Cursor.between]
  · have hfits : ¬ ((Position.ofFront front).advance c).Fits := fun hfits =>
      hnext (Text.countable_concat_iff.mpr ⟨h, hplace ▸ hfits⟩)
    rw [if_neg hnext, advance]
    simp only [Cursor.rest_between, Cursor.pos_between,
      advancePosition_eq_error (h.fits List.prefix_rfl) hfits]
    rfl

end

/-! ## Several characters -/

/-- As `Cursor.skip`. -/
def skip (c : Cursor) : Nat → Checked Cursor
  | 0 => pure c
  | n + 1 => do
    let next ← advance c
    skip next n

theorem eq_of_skip_eq_ok {c next : Cursor} {n : Nat} (h : skip c n = .ok next) :
    next = c.skip n := by
  induction n generalizing c with
  | zero => exact (Except.ok.inj h).symm
  | succ n ih =>
    obtain ⟨middle, hmiddle, h⟩ := exists_of_bind_eq_ok h
    obtain rfl := eq_of_advance_eq_ok hmiddle
    exact ih h

/-- **Reading fails exactly if what has been read is no longer countable.** -/
theorem skip_between (file : String) {front : List Char} (h : Countable front) (rest : List Char)
    (n : Nat) : skip (.between file front rest) n =
      if Countable (front ++ rest.take n) then .ok ((Cursor.between file front rest).skip n)
      else .error .overflow := by
  induction n generalizing front rest with
  | zero =>
    rw [List.take_zero, List.append_nil, if_pos h]
    rfl
  | succ n ih =>
    cases rest with
    | nil =>
      have hstay : advance (.between file front []) = .ok (.between file front []) := rfl
      have hnext := ih h []
      rw [List.take_nil, List.append_nil] at hnext ⊢
      rw [skip, hstay, ok_bind, hnext]
      rfl
    | cons c rest =>
      have hassoc : front ++ c :: rest.take n = front ++ [c] ++ rest.take n := by simp
      rw [skip, advance_between file h, List.take_succ_cons, hassoc, Cursor.skip,
        Cursor.advance_between]
      by_cases hc : Countable (front ++ [c])
      · rw [if_pos hc, ok_bind, ih hc]
      · rw [if_neg hc, if_neg fun hall => hc (hall.of_prefix (List.prefix_append ..))]
        rfl

/-! ## Runs -/

/-- As `Cursor.Op.apply`. -/
def apply (c : Cursor) : Cursor.Op → Checked Cursor
  | .peek | .peekSecond | .prev | .atEnd => pure c
  | .advance => advance c
  | .eat expected => if c.peek = some expected then advance c else pure c
  | .eatWhile p => skip c (c.rest.takeWhile p).length

/-- As `Cursor.run`. -/
def run (c : Cursor) : List Cursor.Op → Checked Cursor
  | [] => pure c
  | op :: ops => do
    let next ← apply c op
    run next ops

theorem apply_between (file : String) {front : List Char} (h : Countable front) (rest : List Char)
    (op : Cursor.Op) : apply (.between file front rest) op =
      if Countable (front ++ op.reads rest) then .ok (op.apply (.between file front rest))
      else .error .overflow := by
  cases op with
  | peek | peekSecond | prev | atEnd =>
    simp only [Cursor.Op.reads, List.append_nil, if_pos h]
    rfl
  | advance =>
    cases rest with
    | nil =>
      simp only [Cursor.Op.reads, List.take_nil, List.append_nil, if_pos h]
      rfl
    | cons c rest =>
      rw [apply, advance_between file h, Cursor.Op.apply, Cursor.advance_between]
      rfl
  | eat expected =>
    have hpeek : (Cursor.between file front rest).peek = rest.head? := rfl
    rw [apply, hpeek, Cursor.Op.reads, Cursor.Op.apply, Cursor.eat, hpeek]
    split
    · rename_i hhead
      obtain ⟨more, rfl⟩ := List.head?_eq_some_iff.mp hhead
      rw [advance_between file h, Cursor.advance_between]
    · rw [List.append_nil, if_pos h]
      rfl
  | eatWhile p =>
    rw [apply, skip_between file h, Cursor.rest_between, Cursor.Op.reads, take_length_takeWhile]
    rfl

/-- **A run fails exactly if what it has read is no longer countable.** -/
theorem run_between (file : String) {front : List Char} (h : Countable front) (rest : List Char)
    (ops : List Cursor.Op) : run (.between file front rest) ops =
      if Countable (front ++ Cursor.readBy rest ops) then
        .ok (Cursor.run (.between file front rest) ops)
      else .error .overflow := by
  induction ops generalizing front rest with
  | nil =>
    rw [Cursor.readBy, List.append_nil, if_pos h]
    rfl
  | cons op ops ih =>
    rw [run, apply_between file h, Cursor.readBy, ← List.append_assoc, Cursor.run, List.foldl_cons,
      ← Cursor.run, op.apply_between]
    by_cases hop : Countable (front ++ op.reads rest)
    · rw [if_pos hop, ok_bind, ih hop]
    · rw [if_neg hop, if_neg fun hall => hop (hall.of_prefix (List.prefix_append ..))]
      rfl

theorem run_ofText (file : String) (text : List Char) (ops : List Cursor.Op) :
    run (.ofText file text) ops =
      if Countable (Cursor.readBy text ops) then .ok (Cursor.run (.ofText file text) ops)
      else .error .overflow :=
  run_between file Text.countable_nil text ops

/-- **A cursor never loses its place**, as long as the characters read are countable. They and those
ahead are the text, the position is that of the place between them, the last character is kept
unless it ended a line, and from the position that the cursor had after the first `n` operations, the
slice is what the others have read. -/
theorem run_keeps_place_in_words (file text : String) (ops : List Cursor.Op)
    (h : Countable (Cursor.readBy text.toList ops)) :
    let start := Cursor.ofText file text.toList
    let consumed := Cursor.readBy text.toList ops
    ∃ c, run start ops = .ok c ∧
      consumed ++ c.rest = text.toList ∧
      (c.pos = .ofFront consumed ∧ c.pos.Fits) ∧
      c.prev = lastOnLine consumed ∧
      ∀ n, ∃ mark, run start (ops.take n) = .ok mark ∧
        c.sliceFrom mark.pos.offset = some (Cursor.readBy mark.rest (ops.drop n)) := by
  intro start consumed
  obtain ⟨hrest, hpos, hprev, hslices⟩ := Cursor.run_keeps_place file text ops
  refine ⟨_, (run_ofText ..).trans (if_pos h), hrest, ⟨hpos, ?_⟩, hprev, fun n => ?_⟩
  · rw [hpos]
    exact h.fits List.prefix_rfl
  · have hfront := h.of_prefix (Cursor.readBy_take_prefix text.toList ops n)
    exact ⟨_, (run_ofText ..).trans (if_pos hfront), hslices n⟩

/-- A line with a character of two bytes is read over with its end. -/
theorem run_keeps_place_over_line :
    let start := Cursor.ofText "m" "aé\nb".toList
    let ops : List Cursor.Op := [.eatWhile (· != '\n'), .peek, .advance]
    Countable (Cursor.readBy "aé\nb".toList ops) ∧
      ∃ c, run start ops = .ok c ∧ c.rest = ['b'] ∧ c.pos = ⟨2, 1, 4⟩ ∧ c.prev = none ∧
        ∃ mark, run start (ops.take 1) = .ok mark ∧ c.sliceFrom mark.pos.offset = some ['\n'] := by
  intro start ops
  have hcountable : Countable (Cursor.readBy "aé\nb".toList ops) := by decide +kernel
  obtain ⟨c, hrun, hrest, ⟨hpos, -⟩, hprev, hslices⟩ :=
    run_keeps_place_in_words "m" "aé\nb" ops hcountable
  have hread : Cursor.readBy "aé\nb".toList ops = ['a', 'é', '\n'] := by decide +kernel
  have hfirst : run start (ops.take 1) = .ok ⟨"m", ['é', 'a'], ['\n', 'b'], ⟨1, 3, 3⟩⟩ := by rfl
  obtain ⟨mark, hmark, hslice⟩ := hslices 1
  obtain rfl : _ = mark := Except.ok.inj (hfirst.symm.trans hmark)
  rw [hread] at hrest hpos hprev
  have hahead : ['a', 'é', '\n'] ++ c.rest = ['a', 'é', '\n'] ++ ['b'] := hrest
  exact ⟨hcountable, c, hrun, List.append_cancel_left hahead, hpos, hprev, _, hfirst, hslice⟩

/-- Everything is read at once. -/
theorem readBy_all (text : List Char) : Cursor.readBy text [.eatWhile fun _ => true] = text := by
  have hall : text.takeWhile (fun _ => true) = text := by
    induction text with
    | nil => rfl
    | cons c cs ih => rw [List.takeWhile_cons_of_pos rfl, ih]
  simp only [Cursor.readBy, Cursor.Op.reads, hall, List.append_nil]

/-- A cursor that reads a text to its end has counted all of it. -/
theorem run_all {text : List Char} (h : ¬ Countable text) :
    run (.ofText "m" text) [.eatWhile fun _ => true] = .error .overflow ∧
      (Cursor.run (.ofText "m" text) [.eatWhile fun _ => true]).pos = .ofFront text := by
  refine ⟨?_, ?_⟩
  · rw [run_ofText, readBy_all, if_neg h]
  · rw [Cursor.ofText_eq_between, Cursor.run_between, readBy_all, Cursor.pos_between,
      List.nil_append]

/-- Where the column behind a text, or its line, is no word, a cursor cannot read the text to its
end. -/
theorem run_longest_texts :
    let readAll : List Cursor.Op := [.eatWhile fun _ => true]
    (Text.byteSize Text.longestLine < wordSize ∧
      run (.ofText "m" Text.longestLine) readAll = .error .overflow ∧
      (Cursor.run (.ofText "m" Text.longestLine) readAll).pos = ⟨1, wordSize, wordSize - 1⟩) ∧
    (Text.byteSize Text.mostLineFeeds < wordSize ∧
      run (.ofText "m" Text.mostLineFeeds) readAll = .error .overflow ∧
      (Cursor.run (.ofText "m" Text.mostLineFeeds) readAll).pos = ⟨wordSize, 1, wordSize - 1⟩) := by
  obtain ⟨hline, hlinePos⟩ := run_all Text.not_countable_longestLine
  obtain ⟨hfeeds, hfeedsPos⟩ := run_all Text.not_countable_mostLineFeeds
  exact ⟨⟨Text.byteSize_longestLine_lt, hline, hlinePos.trans Text.ofFront_longestLine⟩,
    ⟨Text.byteSize_mostLineFeeds_lt, hfeeds, hfeedsPos.trans Text.ofFront_mostLineFeeds⟩⟩

end AuroraLint.Checked
