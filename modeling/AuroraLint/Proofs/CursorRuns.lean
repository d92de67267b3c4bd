import AuroraLint.Proofs.Tiling

/-!
# Runs of a cursor

What a cursor says after any operations, told from the text and the operations alone.

* `Cursor.Op`         : something asked of a cursor.
* `Cursor.Op.reads`   : the characters that an operation reads off the text ahead.
* `Cursor.readBy`     : the characters that operations read, one after another.

Main statements: `Cursor.run_between` — a run moves what the operations read from the text ahead to
the text behind; `Cursor.run_keeps_place` — so position, last character and slices are those of the
text read.
-/

set_option autoImplicit false

namespace AuroraLint

namespace Cursor

/-! ## Operations -/

/-- Something asked of a cursor. The first four look only. -/
inductive Op where
  | peek
  | peekSecond
  | prev
  | atEnd
  | advance
  | eat (expected : Char)
  | eatWhile (p : Char → Bool)

namespace Op

/-- The cursor after the operation. -/
def apply (c : Cursor) : Op → Cursor
  | .peek | .peekSecond | .prev | .atEnd => c
  | .advance => c.advance
  | .eat expected => (c.eat expected).2
  | .eatWhile p => c.eatWhile p

/-- The characters that the operation reads where `rest` is ahead. -/
def reads (rest : List Char) : Op → List Char
  | .peek | .peekSecond | .prev | .atEnd => []
  | .advance => rest.take 1
  | .eat expected => if rest.head? = some expected then [expected] else []
  | .eatWhile p => rest.takeWhile p

theorem reads_prefix (op : Op) (rest : List Char) : op.reads rest <+: rest := by
  cases op with
  | peek | peekSecond | prev | atEnd => exact List.nil_prefix
  | advance => exact List.take_prefix 1 rest
  | eat expected =>
    rw [reads]
    split
    · rename_i hhead
      obtain ⟨more, rfl⟩ := List.head?_eq_some_iff.mp hhead
      exact List.prefix_append [expected] more
    · exact List.nil_prefix
  | eatWhile p => exact List.takeWhile_prefix p

/-- One operation moves what it reads from the text ahead to the text behind. -/
theorem apply_between (op : Op) (file : String) (front rest : List Char) :
    op.apply (between file front rest) =
      between file (front ++ op.reads rest) (rest.drop (op.reads rest).length) := by
  cases op with
  | peek | peekSecond | prev | atEnd => simp [apply, reads]
  | advance =>
    cases rest with
    | nil => simp [apply, reads, Cursor.advance, between]
    | cons c rest => simp [apply, reads, advance_between]
  | eat expected =>
    cases rest with
    | nil => simp [apply, reads, Cursor.eat, Cursor.peek]
    | cons c rest =>
      by_cases hc : c = expected
      · simp [apply, reads, Cursor.eat, Cursor.peek, hc, advance_between]
      · simp [apply, reads, Cursor.eat, Cursor.peek, hc]
  | eatWhile p =>
    simp [apply, reads, Cursor.eatWhile, take_length_takeWhile]

end Op

/-! ## Runs -/

/-- The cursor after operations, from left to right. -/
def run (c : Cursor) (ops : List Op) : Cursor :=
  ops.foldl Op.apply c

/-- The characters that operations read where `rest` is ahead of the first. -/
def readBy (rest : List Char) : List Op → List Char
  | [] => []
  | op :: ops => op.reads rest ++ readBy (rest.drop (op.reads rest).length) ops

theorem readBy_append (rest : List Char) (ops more : List Op) :
    readBy rest (ops ++ more) =
      readBy rest ops ++ readBy (rest.drop (readBy rest ops).length) more := by
  induction ops generalizing rest with
  | nil => rfl
  | cons op ops ih =>
    rw [List.cons_append, readBy, readBy, ih, List.append_assoc, List.drop_drop, List.length_append]

/-- The first operations read a front of what all of them read. -/
theorem readBy_take_prefix (rest : List Char) (ops : List Op) (n : Nat) :
    readBy rest (ops.take n) <+: readBy rest ops := by
  have hsplit := readBy_append rest (ops.take n) (ops.drop n)
  rw [List.take_append_drop] at hsplit
  rw [hsplit]
  exact List.prefix_append ..

theorem readBy_prefix (rest : List Char) (ops : List Op) : readBy rest ops <+: rest := by
  induction ops generalizing rest with
  | nil => exact List.nil_prefix
  | cons op ops ih =>
    have hnext := ih (rest.drop (op.reads rest).length)
    have hsplit := List.prefix_iff_eq_append.mp (op.reads_prefix rest)
    have hboth := (List.prefix_append_right_inj (op.reads rest)).mpr hnext
    rwa [hsplit] at hboth

/-- **A run moves what its operations read from the text ahead to the text behind.** -/
theorem run_between (file : String) (front rest : List Char) (ops : List Op) :
    run (between file front rest) ops =
      between file (front ++ readBy rest ops) (rest.drop (readBy rest ops).length) := by
  induction ops generalizing front rest with
  | nil => simp [run, readBy]
  | cons op ops ih =>
    rw [run, List.foldl_cons, ← run, op.apply_between, ih, readBy, List.append_assoc,
      List.drop_drop, List.length_append]

/-- The slice from the position behind `front` is the text read since. -/
theorem sliceFrom_between (file : String) (front since rest : List Char) :
    (between file (front ++ since) rest).sliceFrom (Position.ofFront front).offset =
      some since := by
  have htext : (between file (front ++ since) rest).text = front ++ (since ++ rest) := by
    simp [text, between]
  rw [sliceFrom, htext, pos_between, Position.ofFront_offset, Position.ofFront_offset,
    Text.byteSize_append]
  exact Text.slice?_byteSize front since rest

/-- **A cursor never loses its place.** After any operations the characters read and those ahead are
the text; the position is that of the place between them; the last character is kept unless it ended
a line; and from the position that the cursor had after the first `n` operations, the slice is what
the others have read. -/
theorem run_keeps_place (file text : String) (ops : List Op) :
    let start := ofText file text.toList
    let c := run start ops
    let consumed := readBy text.toList ops
    consumed ++ c.rest = text.toList ∧
    c.pos = .ofFront consumed ∧
    c.prev = lastOnLine consumed ∧
    ∀ n, let mark := run start (ops.take n)
      c.sliceFrom mark.pos.offset = some (readBy mark.rest (ops.drop n)) := by
  intro start c consumed
  have hrun : ∀ ops, run start ops =
      between file (readBy text.toList ops) (text.toList.drop (readBy text.toList ops).length) := by
    intro ops
    exact run_between file [] text.toList ops
  have hprefix : consumed <+: text.toList := readBy_prefix text.toList ops
  have hc : c = between file consumed (text.toList.drop consumed.length) := hrun ops
  refine ⟨?_, ?_, ?_, fun n => ?_⟩
  · rw [hc, rest_between]
    exact List.prefix_iff_eq_append.mp hprefix
  · rw [hc, pos_between]
  · rw [hc, prev_between]
  · intro mark
    have hmark : mark = _ := hrun (ops.take n)
    have hconsumed : consumed =
        readBy text.toList (ops.take n) ++ readBy mark.rest (ops.drop n) := by
      rw [hmark, rest_between, ← readBy_append, List.take_append_drop]
    rw [hc, hconsumed, hmark, pos_between, rest_between]
    exact sliceFrom_between ..

/-- A line of two characters, one of them of two bytes, is read over with its end. -/
example :
    let c := run (ofText "m" ['a', 'é', '\n', 'b']) [.eatWhile (· != '\n'), .peek, .advance]
    c.pos = ⟨2, 1, 4⟩ ∧ c.prev = none ∧ c.sliceFrom 1 = some ['é', '\n'] := by decide

end Cursor

end AuroraLint
