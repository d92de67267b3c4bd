import AuroraLint.Proofs.Respelled.Types
import AuroraLint.Proofs.Words

/-!
# Literals as they are written

* `Written.Literal` : the literals by their parts, and their text, kind and type.

Main statements: `Written.Literal.lexed` — a literal is lexed as one token of its kind, if no
backslash stands in front of it and nothing behind it goes on with it; `Written.Literal.infer_chars`
— its text is of its type.
-/

set_option autoImplicit false

namespace AuroraLint

/-! ## Numbers and strings in a text -/

namespace Lexeme

variable {rest : List Char} {run : List Char}

theorem not_isDigit_of_not_isNamePart {q : Char} (h : isNamePart q = false) : q.isDigit = false := by
  simp only [isNamePart, Char.isAlphanum, Bool.or_eq_false_iff] at h
  exact h.1.2

theorem not_isNameStart_of_isDigit {c : Char} (h : c.isDigit = true) : isNameStart c = false := by
  rw [Bool.eq_false_iff]
  intro hstart
  have hrange := toNat_of_isDigit h
  rcases (Bool.or_eq_true ..).mp hstart with halpha | hscore
  · have := toNat_of_isAlpha halpha
    omega
  · rw [beq_iff_eq.mp hscore] at hrange
    exact absurd hrange (by decide)

theorem digits_apart (hrun : ∀ d ∈ run, d.isDigit = true) (hrest : Apart rest) :
    digits (run ++ rest) = run.length :=
  congrArg List.length
    (takeWhile_apart hrun fun q hq => not_isDigit_of_not_isNamePart (hrest q hq).1)

/-- Digits up to something else than a number. -/
theorem number_of_digits (hrun : ∀ d ∈ run, d.isDigit = true) (hrest : Apart rest) :
    number (run ++ rest) = ⟨.intLiteral, run.length, true⟩ := by
  simp only [number, digits_apart hrun hrest, List.drop_left' rfl]
  split
  · exact absurd rfl (hrest '.' rfl).2
  · rfl

/-- Digits, a point, and digits up to something else than a number. -/
theorem number_of_decimal {fraction : List Char} (hrun : ∀ d ∈ run, d.isDigit = true)
    (hfraction : ∀ d ∈ fraction, d.isDigit = true) (hrest : Apart rest) :
    number (run ++ '.' :: (fraction ++ rest)) =
      ⟨.floatLiteral, run.length + 1 + fraction.length, true⟩ := by
  have hwhole : digits (run ++ '.' :: (fraction ++ rest)) = run.length :=
    congrArg List.length (takeWhile_run hrun (by decide) _)
  have hgoes : (fraction ++ rest).head?.any (fun c => c == '.' || isNameStart c) = false := by
    cases fraction with
    | nil =>
      cases rest with
      | nil => rfl
      | cons q rest =>
        obtain ⟨hpart, hdot⟩ := hrest q rfl
        have hstart : isNameStart q = false :=
          Bool.eq_false_iff.mpr fun h => by rw [isNamePart_of_isNameStart h] at hpart; cases hpart
        simp [hdot, hstart]
    | cons d fraction =>
      have hd := hfraction d List.mem_cons_self
      have hdot : d ≠ '.' := by
        rintro rfl
        exact absurd hd (by decide)
      simp [hdot, not_isNameStart_of_isDigit hd]
  simp only [number, hwhole, List.drop_left' rfl, hgoes, digits_apart hfraction hrest]
  rfl

/-- A string literal up to its quote. -/
theorem stringTail_closed {content : List Char}
    (hplain : ∀ c ∈ content, c ≠ '"' ∧ c ≠ '\\' ∧ c ≠ '\n') {prev : Char} (hprev : prev ≠ '\\')
    (rest : List Char) : stringTail prev (content ++ '"' :: rest) = (content.length + 1, true) := by
  induction content generalizing prev with
  | nil => simp [stringTail, hprev]
  | cons c content ih =>
    obtain ⟨hquote, hslash, hline⟩ := hplain c List.mem_cons_self
    have hrest := ih (fun d hd => hplain d (List.mem_cons_of_mem _ hd)) hslash
    rw [List.cons_append, stringTail, if_neg fun h => hquote h.1, if_neg hline, hrest,
      List.length_cons]

end Lexeme

namespace Text

/-- Between two characters that are no blanks nothing is trimmed. -/
theorem trim_of_ends {cs : List Char} {c d : Char} (hhead : cs.head? = some c)
    (hlast : cs.getLast? = some d) (hc : isBlank c = false) (hd : isBlank d = false) :
    trim cs = cs := by
  rw [trim, trimStart_of_head hhead hc, trimEnd_of_last hlast hd]

theorem trim_of_plain {cs : List Char} (h : ∀ c ∈ cs, isBlank c = false) :
    trim cs = cs := by
  cases hcs : cs with
  | nil => rfl
  | cons c tail =>
    have hne : cs ≠ [] := hcs ▸ List.cons_ne_nil c tail
    rw [← hcs]
    exact trim_of_ends (List.head?_eq_some_head hne) (List.getLast?_eq_some_getLast hne)
      (h _ (List.head_mem hne)) (h _ (List.getLast_mem hne))

end Text

/-! ## Literals -/

namespace Written

/-- Some digits, or none. -/
structure Digits where
  chars : List Char
  isDigit : ∀ d ∈ chars, d.isDigit = true
  deriving DecidableEq, Repr

/-- A literal: digits, digits with a point before, behind or among them, `true` or `false`, `null`,
or a string without quotes, backslashes and line feeds inside. -/
inductive Literal where
  | int (digits : Digits) (nonempty : digits.chars ≠ [])
  | double (whole fraction : Digits) (nonempty : whole.chars ≠ [] ∨ fraction.chars ≠ [])
  | bool (value : Bool)
  | null
  | string (content : List Char) (plain : ∀ c ∈ content, c ≠ '"' ∧ c ≠ '\\' ∧ c ≠ '\n')
  deriving DecidableEq, Repr

namespace Literal

/-- The literal as it is written. -/
def chars : Literal → List Char
  | .int digits _ => digits.chars
  | .double whole fraction _ => whole.chars ++ '.' :: fraction.chars
  | .bool value => if value then ['t', 'r', 'u', 'e'] else ['f', 'a', 'l', 's', 'e']
  | .null => ['n', 'u', 'l', 'l']
  | .string content _ => '"' :: (content ++ ['"'])

def text (a : Literal) : String :=
  String.ofList a.chars

/-- The kind of its one token. -/
def kind : Literal → Kind
  | .int .. => .intLiteral
  | .double .. => .floatLiteral
  | .bool value => if value then .kwTrue else .kwFalse
  | .null => .kwNull
  | .string .. => .stringLiteral

def type : Literal → Ty
  | .int .. => .int
  | .double .. => .double
  | .bool _ => .bool
  | .null => .null
  | .string .. => .string

/-! ## How literals are lexed -/

section Lexed

variable {front rest : List Char} (file : String)

theorem lexed_digit {c : Char} {tail : List Char} {k : Kind} (hc : c.isDigit = true)
    (hnumber : Lexeme.number (tail ++ rest) = ⟨k, tail.length, true⟩) :
    Lexer.Lexed file front (c :: tail) rest [Lexer.spelled file front k (c :: tail)] := by
  have hplain := Lexeme.plain_of_isDigit hc
  have hpart : isNamePart c = true := by simp [isNamePart, Char.isAlphanum, hc]
  refine Lexer.Lexed.lexeme (isBlank_of_isNamePart hpart) hplain.2.1 ?_ file
  rw [Lexeme.read, if_neg hplain.1, if_pos hc, hnumber]

/-- **A literal is lexed as one token.** -/
theorem lexed (a : Literal) (hfront : lastOnLine front ≠ some '\\') (hrest : Lexeme.Apart rest) :
    Lexer.Lexed file front a.chars rest [Lexer.spelled file front a.kind a.chars] := by
  cases a with
  | int digits nonempty =>
    obtain ⟨digits, hdigits⟩ := digits
    obtain ⟨c, tail, rfl⟩ := List.exists_cons_of_ne_nil nonempty
    obtain ⟨hc, htail⟩ := List.forall_mem_cons.mp hdigits
    exact lexed_digit file hc (Lexeme.number_of_digits htail hrest)
  | double whole fraction nonempty =>
    obtain ⟨whole, hwhole⟩ := whole
    obtain ⟨fraction, hfraction⟩ := fraction
    cases whole with
    | cons c tail =>
      obtain ⟨hc, htail⟩ := List.forall_mem_cons.mp hwhole
      have hnumber := Lexeme.number_of_decimal htail hfraction hrest
      refine lexed_digit file hc ?_
      show Lexeme.number ((tail ++ '.' :: fraction) ++ rest) = _
      rw [List.append_assoc, List.cons_append, hnumber]
      simp [kind, Nat.add_assoc, Nat.add_comm 1]
    | nil =>
      have hpos : 0 < fraction.length := List.length_pos_iff.mpr (by simpa using nonempty)
      refine Lexer.Lexed.lexeme (by decide) (by decide) ?_ file
      have hcount := Lexeme.digits_apart hfraction hrest
      rw [Lexeme.read, if_neg (by decide), if_neg (by decide), if_neg (by decide),
        if_pos ⟨rfl, by rwa [hcount]⟩, hcount]
      rfl
  | bool value =>
    cases value with
    | true => exact Lexer.Lexed.keyword (show ("true", _) ∈ _ by decide) hrest file front
    | false => exact Lexer.Lexed.keyword (show ("false", _) ∈ _ by decide) hrest file front
  | null => exact Lexer.Lexed.keyword (show ("null", _) ∈ _ by decide) hrest file front
  | string content plain =>
    refine Lexer.Lexed.lexeme (by decide) (by decide) ?_ file
    have htail := Lexeme.stringTail_closed plain (show '"' ≠ '\\' by decide) rest
    rw [Lexeme.read_of_string ⟨rfl, hfront⟩, List.append_assoc, List.singleton_append, htail]
    simp [kind]

end Lexed

/-! ## Of what type literals are -/

theorem isIntText_of_digits (digits : Digits) (nonempty : digits.chars ≠ []) :
    Ty.isIntText digits.chars = true := by
  simpa [Ty.isIntText, nonempty] using digits.isDigit

theorem isDoubleText_of_digits (whole fraction : Digits)
    (nonempty : whole.chars ≠ [] ∨ fraction.chars ≠ []) :
    Ty.isDoubleText (whole.chars ++ '.' :: fraction.chars) = true := by
  have hwhole : ∀ d ∈ whole.chars, (d != '.') = true := by
    intro d hd
    rw [bne_iff_ne]
    rintro rfl
    exact absurd (whole.isDigit _ hd) (by decide)
  have hfraction : fraction.chars.all Char.isDigit = true :=
    List.all_eq_true.mpr fraction.isDigit
  have htake : (whole.chars ++ '.' :: fraction.chars).takeWhile (· != '.') = whole.chars :=
    takeWhile_run hwhole (by decide) _
  have hdrop : (whole.chars ++ '.' :: fraction.chars).dropWhile (· != '.') =
      '.' :: fraction.chars := by
    rw [List.dropWhile_append_of_pos hwhole]
    rfl
  rw [Ty.isDoubleText, hdrop]
  simp only [htake]
  cases hw : whole.chars with
  | nil =>
    have hne : fraction.chars ≠ [] := by simpa [hw] using nonempty
    simpa using isIntText_of_digits fraction hne
  | cons d tail =>
    have hint := isIntText_of_digits whole (by rw [hw]; exact List.cons_ne_nil d tail)
    rw [hw] at hint
    simp [hint, hfraction]

/-- No literal starts or ends with a blank. -/
theorem trim_chars (a : Literal) : Text.trim a.chars = a.chars := by
  have hdigit : ∀ c : Char, c.isDigit = true → Text.isBlank c = false :=
    fun c hc => isBlank_of_isNamePart (by simp [isNamePart, Char.isAlphanum, hc])
  cases a with
  | int digits nonempty =>
    exact Text.trim_of_plain fun c hc => hdigit c (digits.isDigit c hc)
  | double whole fraction nonempty =>
    refine Text.trim_of_plain fun c hc => ?_
    rcases List.mem_append.mp hc with hc | hc
    · exact hdigit c (whole.isDigit c hc)
    · rcases List.mem_cons.mp hc with rfl | hc
      · decide
      · exact hdigit c (fraction.isDigit c hc)
  | bool value => cases value <;> decide
  | null => decide
  | string content plain =>
    have hlast : ('"' :: (content ++ ['"'])).getLast? = some '"' := by
      rw [← List.cons_append, List.getLast?_concat]
    exact Text.trim_of_ends rfl hlast (by decide) (by decide)

/-- **The text of a literal is of its type.** -/
theorem infer_chars (a : Literal) : Ty.infer a.chars = a.type := by
  rw [Ty.infer, trim_chars]
  cases a with
  | int digits nonempty =>
    have hint : Ty.isIntText digits.chars = true := isIntText_of_digits digits nonempty
    simp [chars, type, Ty.inferTrimmed, hint]
  | double whole fraction nonempty =>
    have hint : Ty.isIntText (whole.chars ++ '.' :: fraction.chars) = false :=
      Ty.isIntText_of_foreign (q := '.') (by simp) (by decide)
    have hdouble : Ty.isDoubleText (whole.chars ++ '.' :: fraction.chars) = true :=
      isDoubleText_of_digits whole fraction nonempty
    simp [chars, type, Ty.inferTrimmed, hint, hdouble]
  | bool value => cases value <;> decide
  | null => decide
  | string content plain =>
    have hstring : Ty.isStringText ('"' :: (content ++ ['"'])) = true := by
      rw [Ty.isStringText, ← List.cons_append, List.getLast?_concat]
      simp
    rw [chars, Ty.inferTrimmed_of_foreign (q := '"') List.mem_cons_self (by decide) (by decide),
      if_pos hstring]
    rfl

end Literal

end Written

end AuroraLint
