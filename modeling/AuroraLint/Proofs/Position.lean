import AuroraLint.Position

/-!
# True positions

A position is true in a text when counting from the start of the text gives it: line feeds for the
line, characters since the last line feed for the column, bytes for the offset.

* `Position.ofFront` : the position after a front of a text, counted afresh.
* `Position.TrueIn`  : a place of a text, with the line and column that counting gives.

Main statements: `Position.after_start` — moving character by character reaches the counted
position; `Position.TrueIn.eq_of_offset_eq` — a byte offset has at most one true position.
-/

set_option autoImplicit false

namespace AuroraLint

namespace Text

/-- A longer front takes at least as many bytes. -/
theorem byteSize_le_of_prefix {xs ys : List Char} (h : xs <+: ys) : byteSize xs ≤ byteSize ys := by
  obtain ⟨zs, rfl⟩ := h
  simp

theorem byteSize_pos {cs : List Char} (h : cs ≠ []) : 0 < byteSize cs := by
  cases cs with
  | nil => exact absurd rfl h
  | cons c cs =>
    have := c.utf8Size_pos
    rw [byteSize_cons]
    omega

/-- Two fronts of one text that take the same number of bytes are the same. -/
theorem eq_of_byteSize_eq {xs ys text : List Char} (hx : xs <+: text) (hy : ys <+: text)
    (h : byteSize xs = byteSize ys) : xs = ys := by
  rcases List.prefix_or_prefix_of_prefix hx hy with ⟨zs, hz⟩ | ⟨zs, hz⟩
  · by_cases hn : zs = []
    · simpa [hn] using hz
    · have := byteSize_pos hn
      rw [← hz, byteSize_append] at h
      omega
  · by_cases hn : zs = []
    · simpa [hn] using hz.symm
    · have := byteSize_pos hn
      rw [← hz, byteSize_append] at h
      omega

/-- Of two fronts of one text, the one that takes fewer bytes is a front of the other. -/
theorem prefix_of_byteSize_le {xs ys text : List Char} (hx : xs <+: text) (hy : ys <+: text)
    (h : byteSize xs ≤ byteSize ys) : xs <+: ys := by
  rcases List.prefix_or_prefix_of_prefix hx hy with hp | hp
  · exact hp
  · have := byteSize_le_of_prefix hp
    obtain rfl : xs = ys := eq_of_byteSize_eq hx hy (by omega)
    exact List.prefix_rfl

end Text

namespace Position

/-- The position after `front`: one more than its line feeds, one more than the characters since
the last of them, and its bytes. -/
def ofFront (front : List Char) : Position :=
  ⟨1 + front.count '\n', 1 + (front.reverse.takeWhile (· != '\n')).length, Text.byteSize front⟩

/-- The position is a place of `text`, with the line and column that counting gives. -/
def TrueIn (p : Position) (text : List Char) : Prop :=
  ∃ front, front <+: text ∧ p = ofFront front

@[simp] theorem ofFront_offset (front : List Char) :
    (ofFront front).offset = Text.byteSize front := rfl

theorem advance_ofFront (front : List Char) (c : Char) :
    (ofFront front).advance c = ofFront (front ++ [c]) := by
  by_cases h : c = '\n'
  · subst h
    simp [advance, ofFront, Nat.add_assoc]
  · have hc : (c != '\n') = true := by simpa using h
    simp [advance, ofFront, h, hc, List.count_append, Nat.add_comm]

/-- Moving over more characters is counting a longer front. -/
theorem after_ofFront (front cs : List Char) :
    (ofFront front).after cs = ofFront (front ++ cs) := by
  induction cs generalizing front with
  | nil => simp
  | cons c cs ih => rw [after_cons, advance_ofFront, ih, List.append_assoc, List.singleton_append]

/-- **Moving character by character reaches the counted position.** -/
theorem after_start (front : List Char) : start.after front = ofFront front :=
  after_ofFront [] front

theorem trueIn_ofFront {front text : List Char} (h : front <+: text) : (ofFront front).TrueIn text :=
  ⟨front, h, rfl⟩

namespace TrueIn

variable {p q : Position} {text : List Char}

theorem offset_le (h : p.TrueIn text) : p.offset ≤ Text.byteSize text := by
  obtain ⟨front, hf, rfl⟩ := h
  exact Text.byteSize_le_of_prefix hf

theorem line_pos (h : p.TrueIn text) : 1 ≤ p.line := by
  obtain ⟨front, _, rfl⟩ := h
  exact Nat.le_add_right ..

theorem column_pos (h : p.TrueIn text) : 1 ≤ p.column := by
  obtain ⟨front, _, rfl⟩ := h
  exact Nat.le_add_right ..

/-- A byte offset has at most one true position. -/
theorem eq_of_offset_eq (hp : p.TrueIn text) (hq : q.TrueIn text) (h : p.offset = q.offset) :
    p = q := by
  obtain ⟨xs, hx, rfl⟩ := hp
  obtain ⟨ys, hy, rfl⟩ := hq
  rw [Text.eq_of_byteSize_eq hx hy h]

/-- A place further on is on no earlier line. -/
theorem line_le (hp : p.TrueIn text) (hq : q.TrueIn text) (h : p.offset ≤ q.offset) :
    p.line ≤ q.line := by
  obtain ⟨xs, hx, rfl⟩ := hp
  obtain ⟨ys, hy, rfl⟩ := hq
  obtain ⟨zs, rfl⟩ := Text.prefix_of_byteSize_le hx hy h
  simp [ofFront]

end TrueIn

end Position

end AuroraLint
