/-!
# UTF-8 sizes and byte offsets

Texts are lists of characters; offsets into them count the bytes of their UTF-8 form.

* `byteSize`    : the number of bytes a text takes.
* `slice?`      : the text between two byte offsets, if both stand between characters.
* `decodeLossy` : the text that bytes spell; every ill-formed part becomes U+FFFD.
-/

set_option autoImplicit false

namespace AuroraLint.Text

/-! ## Sizes -/

/-- The number of bytes in the UTF-8 form of a text. -/
def byteSize : List Char → Nat
  | [] => 0
  | c :: cs => c.utf8Size + byteSize cs

@[simp] theorem byteSize_nil : byteSize [] = 0 := rfl

@[simp] theorem byteSize_cons (c : Char) (cs : List Char) :
    byteSize (c :: cs) = c.utf8Size + byteSize cs := rfl

@[simp] theorem byteSize_append (xs ys : List Char) :
    byteSize (xs ++ ys) = byteSize xs + byteSize ys := by
  induction xs with
  | nil => simp
  | cons c cs ih => simp [ih, Nat.add_assoc]

/-- A text cannot have more characters than bytes. -/
theorem length_le_byteSize (cs : List Char) : cs.length ≤ byteSize cs := by
  induction cs with
  | nil => simp
  | cons c cs ih =>
    have := c.utf8Size_pos
    simp only [List.length_cons, byteSize_cons]
    omega

/-! ## Cutting at byte offsets -/

/-- The text after its first `n` bytes; `none` when the cut would fall inside a character or
beyond the end. -/
def dropBytes? : Nat → List Char → Option (List Char)
  | 0, cs => some cs
  | _ + 1, [] => none
  | n + 1, c :: cs =>
    if c.utf8Size ≤ n + 1 then dropBytes? (n + 1 - c.utf8Size) cs else none

/-- The first `n` bytes of a text; `none` when the cut would fall inside a character or beyond the
end. -/
def takeBytes? : Nat → List Char → Option (List Char)
  | 0, _ => some []
  | _ + 1, [] => none
  | n + 1, c :: cs =>
    if c.utf8Size ≤ n + 1 then (takeBytes? (n + 1 - c.utf8Size) cs).map (c :: ·) else none

/-- The characters between byte offsets `start` and `stop`; `none` when one of the two lies
inside a character or beyond the end, or when `stop` is before `start`. -/
def slice? (start stop : Nat) (cs : List Char) : Option (List Char) :=
  if start ≤ stop then (dropBytes? start cs).bind (takeBytes? (stop - start)) else none

/-- Dropping the bytes of a text's front leaves the rest. -/
@[simp] theorem dropBytes?_byteSize (front back : List Char) :
    dropBytes? (byteSize front) (front ++ back) = some back := by
  induction front with
  | nil => cases back <;> rfl
  | cons c cs ih =>
    have hc := c.utf8Size_pos
    obtain ⟨n, hn⟩ : ∃ n, byteSize (c :: cs) = n + 1 := ⟨byteSize (c :: cs) - 1, by
      simp only [byteSize_cons]; omega⟩
    rw [hn, List.cons_append, dropBytes?]
    simp only [byteSize_cons] at hn
    rw [if_pos (by omega), show n + 1 - c.utf8Size = byteSize cs by omega, ih]

/-- Taking the bytes of a text's front gives that front. -/
@[simp] theorem takeBytes?_byteSize (front back : List Char) :
    takeBytes? (byteSize front) (front ++ back) = some front := by
  induction front with
  | nil => cases back <;> rfl
  | cons c cs ih =>
    have hc := c.utf8Size_pos
    obtain ⟨n, hn⟩ : ∃ n, byteSize (c :: cs) = n + 1 := ⟨byteSize (c :: cs) - 1, by
      simp only [byteSize_cons]; omega⟩
    rw [hn, List.cons_append, takeBytes?]
    simp only [byteSize_cons] at hn
    rw [if_pos (by omega), show n + 1 - c.utf8Size = byteSize cs by omega, ih]
    rfl

/-- Slicing between the sizes of two fronts gives what lies between them. -/
theorem slice?_byteSize (front mid back : List Char) :
    slice? (byteSize front) (byteSize front + byteSize mid) (front ++ (mid ++ back)) = some mid := by
  simp [slice?]

/-! ## Bytes to text -/

/-- The character that stands for ill-formed bytes. -/
def replacement : Char := '\uFFFD'

/-- The second bytes a lead byte admits and the number of continuation bytes it announces. -/
def leadByte (b : UInt8) : Option (UInt8 × UInt8 × Nat) :=
  if 0xC2 ≤ b && b ≤ 0xDF then some (0x80, 0xBF, 1)
  else if b == 0xE0 then some (0xA0, 0xBF, 2)
  else if b == 0xED then some (0x80, 0x9F, 2)
  else if 0xE1 ≤ b && b ≤ 0xEF then some (0x80, 0xBF, 2)
  else if b == 0xF0 then some (0x90, 0xBF, 3)
  else if b == 0xF4 then some (0x80, 0x8F, 3)
  else if 0xF1 ≤ b && b ≤ 0xF3 then some (0x80, 0xBF, 3)
  else none

/-- The continuation bytes of a character at the head of `bytes`: at most `n` of them, the first
between `lo` and `hi`. -/
def continuation (lo hi : UInt8) : Nat → List UInt8 → List UInt8
  | 0, _ => []
  | _ + 1, [] => []
  | n + 1, b :: bs =>
    if lo ≤ b && b ≤ hi then b :: continuation 0x80 0xBF n bs else []

/-- The payload of a lead byte announcing `n` continuation bytes. -/
def leadPayload (lead : UInt8) (n : Nat) : Nat :=
  match n with
  | 1 => lead.toNat % 32
  | 2 => lead.toNat % 16
  | _ => lead.toNat % 8

/-- The code point of a lead byte announcing `n` continuation bytes, followed by `tail`. -/
def codePoint (lead : UInt8) (n : Nat) (tail : List UInt8) : Nat :=
  tail.foldl (fun acc b => acc * 64 + b.toNat % 64) (leadPayload lead n)

/-- One character read off the head of `lead :: bytes`, and the bytes after it. A sequence that is
cut short or ill-formed is replaced as a whole. -/
def decodeHead (lead : UInt8) (bytes : List UInt8) : Char × List UInt8 :=
  if lead < 0x80 then (Char.ofNat lead.toNat, bytes)
  else
    match leadByte lead with
    | none => (replacement, bytes)
    | some (lo, hi, n) =>
      let tail := continuation lo hi n bytes
      let c := if tail.length = n then Char.ofNat (codePoint lead n tail) else replacement
      (c, bytes.drop tail.length)

theorem decodeHead_length (lead : UInt8) (bytes : List UInt8) :
    (decodeHead lead bytes).2.length ≤ bytes.length := by
  unfold decodeHead
  split
  · simp
  · split <;> simp

/-- The text that `bytes` spell, with U+FFFD for each ill-formed part. -/
def decodeLossy : List UInt8 → List Char
  | [] => []
  | b :: bs => (decodeHead b bs).1 :: decodeLossy (decodeHead b bs).2
termination_by bytes => bytes.length
decreasing_by
  have := decodeHead_length b bs
  simp only [List.length_cons]
  omega

end AuroraLint.Text
