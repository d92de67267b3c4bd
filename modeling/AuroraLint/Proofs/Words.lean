import AuroraLint.Proofs.Tiling

/-!
# Words and marks as they are lexed

A text that is put together from words, marks and blanks is lexed piece by piece.

* `isIdentifier`  : the words that are lexed as names.
* `Lexeme.Apart`  : what stands behind a word or a number and does not go on with it.
* `Lexer.spelled` : the token that spells a text at a place.
* `Lexer.Lexed`   : a stretch of a document and the tokens that it is lexed as.
* `Lexer.Lexes`   : a text and the kinds and lexemes of its tokens, wherever it stands.

Main statements: `Lexer.Lexed.append` and `Lexer.Lexes.append` — two texts one behind the other are
lexed as the tokens of both — and one statement for each kind of piece; `Lexer.Lexed.tokenize` — a
document of such pieces.
-/

set_option autoImplicit false

namespace AuroraLint

/-- A word that is lexed as a name: of letters, digits and underscores, no digit first, and not
reserved. -/
def isIdentifier (word : String) : Bool :=
  word.toList.head?.any isNameStart && word.toList.all isNamePart && (Kind.keyword? word).isNone

/-! ## Runs -/

/-- A run ends where the text behind it does not go on with it. -/
theorem takeWhile_apart {p : Char → Bool} {run rest : List Char} (hrun : ∀ d ∈ run, p d = true)
    (hrest : ∀ q, rest.head? = some q → p q = false) : (run ++ rest).takeWhile p = run := by
  cases rest with
  | nil => rw [List.takeWhile_append_of_pos hrun, List.takeWhile_nil, List.append_nil]
  | cons q rest => exact takeWhile_run hrun (hrest q rfl) rest

namespace Lexeme

/-- The text goes on no word and no number that stands in front of it. -/
def Apart (rest : List Char) : Prop :=
  ∀ q, rest.head? = some q → isNamePart q = false ∧ q ≠ '.'

theorem apart_nil : Apart [] := nofun

theorem apart_cons {q : Char} (hq : isNamePart q = false ∧ q ≠ '.') (rest : List Char) :
    Apart (q :: rest) := by
  rintro _ ⟨⟩
  exact hq

/-- The marks that are part of no longer symbol. -/
def marks : List (List Char × Kind) :=
  [(['('], .leftParen), ([')'], .rightParen), (['\x7b'], .leftBrace), (['\x7d'], .rightBrace),
   ([','], .comma), ([':'], .colon), (['?'], .question), (['-', '>'], .arrow)]

/-- A mark is read whatever stands behind it. -/
theorem read_mark {c : Char} {tail : List Char} {k : Kind} (h : (c :: tail, k) ∈ marks)
    (prev : Option Char) (rest : List Char) : read prev c (tail ++ rest) = ⟨k, tail.length, true⟩ := by
  simp only [marks, List.mem_cons, Prod.mk.injEq, List.cons.injEq, List.not_mem_nil, or_false] at h
  rcases h with ⟨⟨rfl, rfl⟩, rfl⟩ | ⟨⟨rfl, rfl⟩, rfl⟩ | ⟨⟨rfl, rfl⟩, rfl⟩ | ⟨⟨rfl, rfl⟩, rfl⟩ |
    ⟨⟨rfl, rfl⟩, rfl⟩ | ⟨⟨rfl, rfl⟩, rfl⟩ | ⟨⟨rfl, rfl⟩, rfl⟩ | ⟨⟨rfl, rfl⟩, rfl⟩ <;> rfl

end Lexeme

namespace Lexer

/-! ## Stretches of a document -/

/-- The token of kind `kind` that spells `text` behind `front`. -/
def spelled (file : String) (front : List Char) (kind : Kind) (text : List Char) : Token :=
  ⟨kind, String.ofList text, ⟨file, .ofFront front, .ofFront (front ++ text)⟩⟩

@[simp] theorem kind_spelled (file : String) (front : List Char) (kind : Kind) (text : List Char) :
    (spelled file front kind text).kind = kind := rfl

@[simp] theorem lexeme_spelled (file : String) (front : List Char) (kind : Kind)
    (text : List Char) : (spelled file front kind text).lexeme = String.ofList text := rfl

/-- Between `front` and `rest`, the text `text` is lexed as `tokens`, and `rest` as it would be if
it were looked at alone. -/
def Lexed (file : String) (front text rest : List Char) (tokens : List Token) : Prop :=
  scan (.between file front (text ++ rest)) =
    tokens.map (⟨·, true⟩) ++ scan (.between file (front ++ text) rest)

/-- A blank in front of a tiled text joins its first gap. -/
theorem Tiling.prepend_blank {file : String} {front rest : List Char} {scanned : List Scanned}
    {c : Char} (hc : Text.isBlank c = true) (h : Tiling file (front ++ [c]) rest scanned) :
    Tiling file front (c :: rest) scanned := by
  have hgoes : ∀ gap more : List Char, trivia false (gap ++ more) = gap.length →
      trivia false ((c :: gap) ++ more) = (c :: gap).length := by
    intro gap more hgap
    have hopen : commentAfter false c = false := by
      have hne : c ≠ '#' := by
        rintro rfl
        exact absurd hc (by decide)
      simpa [commentAfter] using hne
    exact trivia_cons_eq_succ_iff.mpr ⟨.inr (.inl hc), by rw [hopen]; exact hgap⟩
  cases h with
  | ending hgap =>
    have hassoc : front ++ [c] ++ rest = front ++ c :: rest := by simp
    rw [hassoc]
    exact .ending (hgoes rest [] hgap)
  | @token _ gap tail rest d scanned lexeme hgap hread hmore next =>
    have hassoc : front ++ [c] ++ gap = front ++ c :: gap := by simp
    rw [hassoc] at hread next ⊢
    exact Tiling.token lexeme (hgoes _ _ hgap) hread hmore next

namespace Lexed

variable {file : String} {front text more rest : List Char} {tokens tokens' : List Token}

theorem nil (file : String) (front rest : List Char) : Lexed file front [] rest [] := by
  simp [Lexed]

/-- **Two stretches one behind the other** are lexed as the tokens of both. -/
theorem append (h : Lexed file front text (more ++ rest) tokens)
    (h' : Lexed file (front ++ text) more rest tokens') :
    Lexed file front (text ++ more) rest (tokens ++ tokens') := by
  unfold Lexed at h h' ⊢
  rw [List.append_assoc, h, h', List.map_append, List.append_assoc, List.append_assoc]

theorem blank {c : Char} (hc : Text.isBlank c = true) (file : String) (front rest : List Char) :
    Lexed file front [c] rest [] :=
  ((tiling_scan file (front ++ [c]) rest).prepend_blank hc).scan_eq

/-- A lexeme that is read as far as its text reaches. -/
theorem lexeme {c : Char} {tail : List Char} {k : Kind} (hblank : Text.isBlank c = false)
    (hhash : c ≠ '#')
    (hread : Lexeme.read (lastOnLine front) c (tail ++ rest) = ⟨k, tail.length, true⟩)
    (file : String) : Lexed file front (c :: tail) rest [spelled file front k (c :: tail)] := by
  have htrivia : trivia false ([] ++ c :: (tail ++ rest)) = ([] : List Char).length := by
    simp [trivia, hblank, hhash]
  have hscan := @scan_token file front [] tail rest c ⟨k, tail.length, true⟩ htrivia
    (by rw [List.append_nil]; exact hread) rfl
  rw [List.append_nil] at hscan
  exact hscan

theorem mark {c : Char} {tail : List Char} {k : Kind} (h : (c :: tail, k) ∈ Lexeme.marks)
    (file : String) (front rest : List Char) :
    Lexed file front (c :: tail) rest [spelled file front k (c :: tail)] := by
  have hplain : ∀ p ∈ Lexeme.marks, p.1.all fun d => !Text.isBlank d && d != '#' := by decide
  have hc := List.all_eq_true.mp (hplain _ h) c List.mem_cons_self
  simp only [Bool.and_eq_true, Bool.not_eq_true', bne_iff_ne] at hc
  exact lexeme hc.1 hc.2 (Lexeme.read_mark h _ rest) file

/-- A word, reserved or not. -/
theorem word {w : String} (hstart : w.toList.head?.any isNameStart = true)
    (hparts : w.toList.all isNamePart = true) (hrest : Lexeme.Apart rest) (file : String)
    (front : List Char) :
    Lexed file front w.toList rest
      [spelled file front ((Kind.keyword? w).getD .identifier) w.toList] := by
  obtain ⟨c, tail, hw⟩ : ∃ c tail, w.toList = c :: tail := by
    cases hl : w.toList with
    | nil => rw [hl] at hstart; cases hstart
    | cons c tail => exact ⟨c, tail, rfl⟩
  have hspelled : String.ofList (c :: tail) = w := by rw [← hw, String.ofList_toList]
  rw [hw] at hstart hparts ⊢
  have hc : isNameStart c = true := hstart
  have hpart := isNamePart_of_isNameStart hc
  have htail : ∀ d ∈ tail, isNamePart d = true :=
    fun d hd => List.all_eq_true.mp hparts d (List.mem_cons_of_mem _ hd)
  refine lexeme (isBlank_of_isNamePart hpart) (Lexeme.plain_of_isNamePart hpart).2.1 ?_ file
  simp only [Lexeme.read_name hc, Lexeme.name, takeWhile_apart htail fun q hq => (hrest q hq).1,
    hspelled]

theorem identifier {w : String} (hw : isIdentifier w = true) (hrest : Lexeme.Apart rest)
    (file : String) (front : List Char) :
    Lexed file front w.toList rest [spelled file front .identifier w.toList] := by
  simp only [isIdentifier, Bool.and_eq_true, Option.isNone_iff_eq_none] at hw
  obtain ⟨⟨hstart, hparts⟩, hkeyword⟩ := hw
  have hword := word hstart hparts hrest file front
  rwa [hkeyword] at hword

theorem keyword {w : String} {k : Kind} (hw : (w, k) ∈ Kind.keywords) (hrest : Lexeme.Apart rest)
    (file : String) (front : List Char) :
    Lexed file front w.toList rest [spelled file front k w.toList] := by
  have htable : ∀ p ∈ Kind.keywords, p.1.toList.head?.any isNameStart = true ∧
      p.1.toList.all isNamePart = true ∧ Kind.keyword? p.1 = some p.2 := by decide
  obtain ⟨hstart, hparts, hkeyword⟩ := htable _ hw
  have hword := word hstart hparts hrest file front
  rwa [hkeyword] at hword

/-- A text of pieces that nothing follows: behind their tokens stands the end of the document. -/
theorem scan_ending (h : Lexed file front text [] tokens) :
    scan (.between file front text) =
      tokens.map (⟨·, true⟩) ++ [.ending file (front ++ text)] := by
  have hend := @scan_gap file (front ++ text) [] rfl
  rw [List.append_nil] at hend
  rw [← hend]
  simpa [Lexed] using h

/-- **A document of pieces**: its tokens are theirs and the end of the document, and it has no
errors. -/
theorem tokenize {file text : String} {tokens : List Token}
    (h : Lexed file [] text.toList [] tokens) :
    ∃ eof : Token, Lexer.tokenize file text = (tokens ++ [eof], []) ∧ eof.kind = .eof := by
  have hscan : scan (.ofText file text.toList) =
      tokens.map (⟨·, true⟩) ++ [.ending file text.toList] := by
    rw [Cursor.ofText_eq_between]
    exact h.scan_ending
  refine ⟨(Scanned.ending file text.toList).token, ?_, rfl⟩
  simp only [Lexer.tokenize, hscan, List.map_append, List.map_map, List.filterMap_append,
    List.filterMap_map, Prod.mk.injEq]
  constructor
  · congr 1
    exact List.map_id _
  · simp [Scanned.diagnostic?, Scanned.ending, Function.comp_def]

end Lexed

end Lexer

/-! ## Texts that are lexed alike everywhere -/

/-- What readings look at in a token: its kind and its text. -/
def Token.shape (t : Token) : Kind × String :=
  (t.kind, t.lexeme)

namespace Lexer

/-- Wherever the text stands, if nothing behind it goes on with it, it is lexed as tokens of these
shapes. -/
def Lexes (text : List Char) (shapes : List (Kind × String)) : Prop :=
  ∀ (file : String) (front rest : List Char), Lexeme.Apart rest →
    ∃ tokens, Lexed file front text rest tokens ∧ tokens.map Token.shape = shapes

namespace Lexes

variable {text more : List Char} {shapes shapes' : List (Kind × String)}

theorem nil : Lexes [] [] :=
  fun file front rest _ => ⟨[], .nil file front rest, rfl⟩

/-- Two texts one behind the other, if the second does not go on with the first. -/
theorem append (h : Lexes text shapes) (happart : Lexeme.Apart more) (h' : Lexes more shapes') :
    Lexes (text ++ more) (shapes ++ shapes') := by
  intro file front rest hrest
  have hmore : Lexeme.Apart (more ++ rest) := by
    cases more with
    | nil => exact hrest
    | cons q more => exact Lexeme.apart_cons (happart q rfl) _
  obtain ⟨tokens, hlexed, rfl⟩ := h file front (more ++ rest) hmore
  obtain ⟨tokens', hlexed', rfl⟩ := h' file (front ++ text) rest hrest
  exact ⟨tokens ++ tokens', hlexed.append hlexed', List.map_append⟩

/-- A text behind a blank. -/
theorem blank (c : Char) (hc : Text.isBlank c = true) (h : Lexes text shapes) :
    Lexes (c :: text) shapes := by
  intro file front rest hrest
  obtain ⟨tokens, hlexed, hshapes⟩ := h file (front ++ [c]) rest hrest
  exact ⟨tokens, (Lexed.blank hc file front (text ++ rest)).append hlexed, hshapes⟩

/-- A text behind a mark, with which it cannot go on. -/
theorem mark (c : Char) (tail : List Char) (k : Kind) (hmark : (c :: tail, k) ∈ Lexeme.marks)
    (h : Lexes text shapes) :
    Lexes ((c :: tail) ++ text) ((k, String.ofList (c :: tail)) :: shapes) := by
  intro file front rest hrest
  obtain ⟨tokens, hlexed, rfl⟩ := h file (front ++ c :: tail) rest hrest
  exact ⟨_, (Lexed.mark hmark file front (text ++ rest)).append hlexed, rfl⟩

theorem identifier {w : String} (hw : isIdentifier w = true) :
    Lexes w.toList [(.identifier, w)] := by
  intro file front rest hrest
  refine ⟨_, .identifier hw hrest file front, ?_⟩
  simp [Token.shape]

theorem keyword (w : String) (k : Kind) (hw : (w, k) ∈ Kind.keywords) : Lexes w.toList [(k, w)] := by
  intro file front rest hrest
  refine ⟨_, .keyword hw hrest file front, ?_⟩
  simp [Token.shape]

/-- Texts with a comma and a blank between any two. -/
theorem intercalate {α : Type} {text : α → List Char} {shapes : α → List (Kind × String)}
    {items : List α} (h : ∀ a ∈ items, Lexes (text a) (shapes a)) :
    Lexes (List.intercalate [',', ' '] (items.map text))
      (List.intercalate [(.comma, ",")] (items.map shapes)) := by
  induction items with
  | nil => exact .nil
  | cons a items ih =>
    have hfirst := h a List.mem_cons_self
    have hbehind := ih fun b hb => h b (List.mem_cons_of_mem _ hb)
    cases items with
    | nil => simpa [List.intercalate] using hfirst
    | cons b items =>
      have hcomma : Lexeme.Apart (',' :: (' ' :: List.intercalate [',', ' '] ((b :: items).map text))) :=
        Lexeme.apart_cons (by decide) _
      have hrest := Lexes.mark ',' [] .comma (by decide) (Lexes.blank ' ' (by decide) hbehind)
      simpa [List.intercalate_cons_cons] using hfirst.append hcomma hrest

end Lexes

end Lexer

end AuroraLint
