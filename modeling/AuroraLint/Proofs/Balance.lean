import AuroraLint.Brackets
import AuroraLint.Proofs.Classification

/-!
# Balanced brackets

The stack of open brackets decides membership in a grammar of bracket words, and that word can be
read off the characters without the tokens.

* `Brackets.Balanced`     : the words of the grammar with three pairs of brackets.
* `Brackets.codeBrackets` : the brackets of a text that stand in code, line by line.
* `Brackets.Completes`    : the words that close some open brackets, the innermost first.

Main statements: `Brackets.check_eq_nil_iff` — no error exactly if the brackets among the tokens are
balanced; `Lexer.Tiling.codeFrom_eq` — those are the brackets that stand in code;
`Brackets.check_tokenize_eq_nil_iff` puts the two together.
-/

set_option autoImplicit false

namespace AuroraLint

namespace BracketShape

variable {s s' : BracketShape}

theorem openChar_ne_closeChar (s s' : BracketShape) : s.openChar ≠ s'.closeChar := by
  cases s <;> cases s' <;> decide

theorem openChar_inj (h : s.openChar = s'.openChar) : s = s' := by
  cases s <;> cases s' <;> first | rfl | exact absurd h (by decide)

theorem closeChar_inj (h : s.closeChar = s'.closeChar) : s = s' := by
  cases s <;> cases s' <;> first | rfl | exact absurd h (by decide)

end BracketShape

namespace Brackets

/-! ## The grammar -/

/-- A word of brackets in which every bracket has its partner: empty, two such words in a row, or
such a word between a bracket and its closer. -/
inductive Balanced : List Char → Prop
  | nil : Balanced []
  | append {u v : List Char} (hu : Balanced u) (hv : Balanced v) : Balanced (u ++ v)
  | wrap (shape : BracketShape) {w : List Char} (hw : Balanced w) :
      Balanced (shape.openChar :: (w ++ [shape.closeChar]))

/-- A balanced word that starts with an opener has its closer further on. -/
theorem Balanced.exists_closer {shape : BracketShape} {w : List Char}
    (h : Balanced (shape.openChar :: w)) :
    ∃ u v, w = u ++ shape.closeChar :: v ∧ Balanced u ∧ Balanced v := by
  generalize hx : shape.openChar :: w = x at h
  induction h generalizing w with
  | nil => cases hx
  | @append u v hu hv ihu ihv =>
    cases u with
    | nil => exact ihv hx
    | cons c u =>
      obtain ⟨rfl, rfl⟩ := List.cons.inj hx
      obtain ⟨a, b, rfl, ha, hb⟩ := ihu rfl
      exact ⟨a, b ++ v, by simp, ha, hb.append hv⟩
  | @wrap shape' w' hw =>
    obtain ⟨hopen, rfl⟩ := List.cons.inj hx
    obtain rfl := BracketShape.openChar_inj hopen
    exact ⟨w', [], rfl, hw, .nil⟩

/-- No balanced word starts with a closer. -/
theorem not_balanced_closer {shape : BracketShape} {w : List Char} :
    ¬ Balanced (shape.closeChar :: w) := by
  intro h
  generalize hx : shape.closeChar :: w = x at h
  induction h generalizing w with
  | nil => cases hx
  | @append u v hu hv ihu ihv =>
    cases u with
    | nil => exact ihv hx
    | cons c u => exact ihu (by rw [(List.cons.inj hx).1])
  | @wrap shape' w' hw =>
    exact BracketShape.openChar_ne_closeChar shape' shape (List.cons.inj hx).1.symm

/-! ## Words behind open brackets -/

/-- The word closes the brackets of the given shapes, the innermost first, and is balanced before,
between and behind their closers. -/
inductive Completes : List BracketShape → List Char → Prop
  | done {w : List Char} (hw : Balanced w) : Completes [] w
  | close {shape : BracketShape} {shapes : List BracketShape} {u w : List Char} (hu : Balanced u)
      (hw : Completes shapes w) : Completes (shape :: shapes) (u ++ shape.closeChar :: w)

section Completes

variable {shape shape' : BracketShape} {shapes : List BracketShape} {w : List Char}

theorem Completes.prepend {u : List Char} (hu : Balanced u) (h : Completes shapes w) :
    Completes shapes (u ++ w) := by
  cases h with
  | done hw => exact .done (hu.append hw)
  | close hv hw =>
    rw [← List.append_assoc]
    exact .close (hu.append hv) hw

theorem completes_none_iff : Completes [] w ↔ Balanced w := by
  constructor
  · intro h
    cases h with
    | done hw => exact hw
  · exact .done

theorem completes_nil_iff : Completes shapes [] ↔ shapes = [] := by
  constructor
  · intro h
    generalize hx : [] = x at h
    cases h with
    | done => rfl
    | close => simp at hx
  · rintro rfl
    exact .done .nil

/-- An opener adds a bracket to be closed first. -/
theorem completes_opener_iff :
    Completes shapes (shape.openChar :: w) ↔ Completes (shape :: shapes) w := by
  constructor
  · intro h
    generalize hx : shape.openChar :: w = x at h
    cases h with
    | done hw =>
      subst hx
      obtain ⟨u, v, rfl, hu, hv⟩ := hw.exists_closer
      exact .close hu (.done hv)
    | @close shape' shapes u v hu hv =>
      cases u with
      | nil => exact absurd (List.cons.inj hx).1 (BracketShape.openChar_ne_closeChar shape shape')
      | cons c u =>
        obtain ⟨rfl, rfl⟩ := List.cons.inj hx
        obtain ⟨a, b, rfl, ha, hb⟩ := hu.exists_closer
        have hclosed : Completes (shape' :: shapes) (b ++ shape'.closeChar :: v) := .close hb hv
        simpa using @Completes.close shape _ a _ ha hclosed
  · intro h
    generalize hx : shape :: shapes = x at h
    cases h with
    | done => cases hx
    | @close shape' shapes' u v hu hv =>
      obtain ⟨rfl, rfl⟩ := List.cons.inj hx
      simpa using hv.prepend (Balanced.wrap shape hu)

/-- A closer has to be that of the innermost open bracket. -/
theorem completes_closer_iff :
    Completes (shape :: shapes) (shape'.closeChar :: w) ↔ shape = shape' ∧ Completes shapes w := by
  constructor
  · intro h
    generalize hx : shape'.closeChar :: w = x at h
    cases h with
    | @close _ _ u v hu hv =>
      cases u with
      | nil =>
        obtain ⟨hclose, rfl⟩ := List.cons.inj hx
        exact ⟨(BracketShape.closeChar_inj hclose).symm, hv⟩
      | cons c u =>
        obtain ⟨rfl, _⟩ := List.cons.inj hx
        exact absurd hu not_balanced_closer
  · rintro ⟨rfl, h⟩
    exact .close .nil h

theorem not_completes_closer : ¬ Completes [] (shape.closeChar :: w) := by
  rw [completes_none_iff]
  exact not_balanced_closer

end Completes

/-! ## The stack decides the grammar -/

/-- The brackets among some tokens. -/
def tokenBrackets (ts : List Token) : List Char :=
  ts.filterMap (·.kind.bracketChar?)

theorem tokenBrackets_cons (t : Token) (ts : List Token) :
    tokenBrackets (t :: ts) = t.kind.bracketChar?.toList ++ tokenBrackets ts := by
  rw [tokenBrackets, List.filterMap_cons]
  cases t.kind.bracketChar? <;> rfl

theorem bracketChar?_of_opens {k : Kind} {shape : BracketShape} (h : k.opens? = some shape) :
    k.bracketChar? = some shape.openChar := by
  simp [Kind.bracketChar?, h]

theorem bracketChar?_of_closes {k : Kind} {shape : BracketShape} (hopens : k.opens? = none)
    (h : k.closes? = some shape) : k.bracketChar? = some shape.closeChar := by
  simp [Kind.bracketChar?, hopens, h]

theorem bracketChar?_of_none {k : Kind} (hopens : k.opens? = none) (h : k.closes? = none) :
    k.bracketChar? = none := by
  simp [Kind.bracketChar?, hopens, h]

/-- The rest of the tokens gives no error exactly if its brackets close those that wait. A closer of
the wrong shape is an error at once, so that it also uses up an opener does not matter. -/
theorem verdictsFrom_iff (waiting : List Opener) (rest : List (Token × Nat)) :
    (verdictsFrom waiting rest).filterMap Verdict.diagnostic? = [] ↔
      Completes (waiting.map (·.shape)) (tokenBrackets (rest.map (·.1))) := by
  fun_induction verdictsFrom waiting rest with
  | case1 waiting =>
    rw [show tokenBrackets ([].map _) = [] from rfl, completes_nil_iff]
    cases waiting with
    | nil => simp
    | cons o os => simp [Verdict.diagnostic?]
  | case2 waiting t i rest shape hopens ih =>
    rw [ih, List.map_cons, List.map_cons, ← completes_opener_iff, tokenBrackets_cons,
      bracketChar?_of_opens hopens]
    rfl
  | case3 waiting t i rest hcloses hopens ih =>
    rw [ih, List.map_cons, tokenBrackets_cons, bracketChar?_of_none hopens hcloses]
    rfl
  | case4 t i rest shape hcloses hopens ih =>
    rw [List.map_cons, tokenBrackets_cons, bracketChar?_of_closes hopens hcloses]
    exact iff_of_false (by simp [Verdict.diagnostic?]) not_completes_closer
  | case5 t i rest shape o os hcloses hopens ih =>
    rw [List.map_cons, List.map_cons, tokenBrackets_cons, bracketChar?_of_closes hopens hcloses,
      Option.toList_some, List.singleton_append, completes_closer_iff, ← ih]
    by_cases hshape : o.shape = shape <;> simp [hshape, Verdict.diagnostic?]

/-- **A token list has no bracket error exactly if its brackets are balanced.** -/
theorem check_eq_nil_iff (ts : List Token) : check ts = [] ↔ Balanced (tokenBrackets ts) := by
  rw [check, verdicts, verdictsFrom_iff, List.zipIdx_map_fst]
  exact completes_none_iff

/-! ## Brackets in code -/

/-- One of `(`, `)`, `[`, `]` and the two braces. -/
def isBracket (c : Char) : Bool :=
  ['(', ')', '[', ']', '\x7b', '\x7d'].contains c

/-- The brackets of a text that stand in code, line by line. -/
def codeBrackets (text : List Char) : List Char :=
  (Text.rawLines text).flatMap fun line =>
    ((line.zip (CharClass.classify line)).filter fun p => p.2 == .code && isBracket p.1).map (·.1)

end Brackets

open Brackets

namespace CharClass.LineState

/-- The brackets in code among the next characters, read off the state of the line. -/
def codeFrom (s : LineState) : List Char → List Char
  | [] => []
  | c :: cs =>
    if s.classOf c = .code ∧ isBracket c then c :: codeFrom (s.step c) cs
    else codeFrom (s.step c) cs

theorem codeFrom_append (s : LineState) (xs ys : List Char) :
    s.codeFrom (xs ++ ys) = s.codeFrom xs ++ (s.run xs).codeFrom ys := by
  induction xs generalizing s with
  | nil => rfl
  | cons c cs ih =>
    rw [List.cons_append, codeFrom, codeFrom, ih, run_cons]
    split <;> rfl

theorem codeFrom_cons_of_not {s : LineState} {c : Char} (h : isBracket c = false) (cs : List Char) :
    s.codeFrom (c :: cs) = (s.step c).codeFrom cs := by
  simp [codeFrom, h]

theorem codeFrom_newline (s : LineState) (cs : List Char) :
    s.codeFrom ('\n' :: cs) = codeFrom {} cs :=
  codeFrom_cons_of_not (by decide) cs

theorem codeFrom_comment {s : LineState} {cs : List Char} (hs : s.mode = .comment)
    (h : '\n' ∉ cs) : s.codeFrom cs = [] := by
  induction cs generalizing s with
  | nil => rfl
  | cons c cs ih =>
    simp only [List.mem_cons, not_or] at h
    have hclass : s.classOf c = .comment := by simp [classOf, modeAfter, hs]
    rw [codeFrom, hclass, if_neg (by simp), step_of_ne (Ne.symm h.1)]
    exact ih (by simp [modeAfter, hs]) h.2

/-- On one line the state and the classes give the same brackets. -/
theorem codeFrom_line {inString : Bool} {prev : Option Char} {row : List Char} (h : '\n' ∉ row) :
    (⟨modeOf inString, prev⟩ : LineState).codeFrom row =
      ((row.zip (classifyFrom inString prev row)).filter
        fun p => p.2 == .code && isBracket p.1).map (·.1) := by
  induction row generalizing inString prev with
  | nil => rfl
  | cons c row ih =>
    simp only [List.mem_cons, not_or] at h
    have hc : c ≠ '\n' := Ne.symm h.1
    rw [classifyFrom]
    split
    · rename_i hq
      have hmode : (⟨modeOf inString, prev⟩ : LineState).modeAfter c = modeOf (!inString) := by
        cases inString <;> simp [modeOf, modeAfter, hq]
      rw [codeFrom_cons_of_not (by rw [hq.1]; decide), step_of_ne hc, hmode, ih h.2]
      simp
    · rename_i hq
      split
      · rename_i hh
        obtain ⟨rfl, rfl⟩ := hh
        rw [codeFrom_cons_of_not (by decide), step_of_ne hc, codeFrom_comment rfl h.2]
        refine (List.map_eq_nil_iff.mpr (List.filter_eq_nil_iff.mpr fun p hp => ?_)).symm
        have := List.eq_of_mem_replicate (List.of_mem_zip hp).2
        simp [this]
      · rename_i hh
        have hmode : (⟨modeOf inString, prev⟩ : LineState).modeAfter c = modeOf inString := by
          cases inString <;> simp_all [modeOf, modeAfter]
        have hclass : (⟨modeOf inString, prev⟩ : LineState).classOf c =
            if inString then .string else .code := by
          cases inString
          · simpa [classOf, modeOf] using hmode
          · rfl
        rw [codeFrom, hclass, step_of_ne hc, hmode, ih h.2]
        cases inString <;> by_cases hb : isBracket c = true <;> simp [hb]

/-- The brackets in code of a text are those that one walk over its characters meets. -/
theorem codeFrom_eq_codeBrackets (text : List Char) : codeFrom {} text = codeBrackets text := by
  have hlines : ∀ line ∈ Text.rawLines text, '\n' ∉ line := by
    intro line hline
    obtain ⟨n, hn⟩ := List.mem_iff_getElem?.mp hline
    obtain ⟨_, hat, _⟩ := Text.lineAt_of_rawLines hn
    exact hat.newline_not_mem
  have hrow : ∀ row : List Char, '\n' ∉ row → codeFrom {} row =
      ((row.zip (classify row)).filter fun p => p.2 == .code && isBracket p.1).map (·.1) :=
    fun row h => @codeFrom_line false none row h
  conv => lhs; rw [← Text.intercalate_rawLines text]
  rw [codeBrackets]
  generalize Text.rawLines text = lines at hlines ⊢
  induction lines with
  | nil => rfl
  | cons line lines ih =>
    have hline := hrow line (hlines line List.mem_cons_self)
    have hrest := ih fun l hl => hlines l (List.mem_cons_of_mem _ hl)
    rw [List.flatMap_cons, ← hline, ← hrest]
    cases lines with
    | nil => simp [List.intercalate, codeFrom]
    | cons next lines =>
      rw [List.intercalate_cons_cons, List.append_assoc, codeFrom_append, List.singleton_append,
        codeFrom_newline]

end CharClass.LineState

/-! ## Brackets of tokens -/

theorem isBracket_iff {c : Char} :
    isBracket c = true ↔ c ∈ ['(', ')', '[', ']', '\x7b', '\x7d'] :=
  List.contains_iff_mem

/-- A class of characters that has no bracket among its members. -/
theorem not_isBracket_of {p : Char → Bool}
    (hp : ['(', ')', '[', ']', '\x7b', '\x7d'].any p = false) {c : Char} (h : p c = true) :
    isBracket c = false := by
  cases hc : isBracket c with
  | false => rfl
  | true => exact absurd h (List.any_eq_false.mp hp c (isBracket_iff.mp hc))

namespace Lexeme

variable {prev : Option Char} {c : Char} {cs : List Char}

theorem filter_isBracket_eq_nil {p : Char → Bool}
    (hp : ['(', ')', '[', ']', '\x7b', '\x7d'].any p = false) (h : ∀ c ∈ cs, p c = true) :
    cs.filter isBracket = [] := by
  refine List.filter_eq_nil_iff.mpr fun c hc => ?_
  rw [not_isBracket_of hp (h c hc)]
  nofun

theorem brackets_number (hc : c.isDigit = true) :
    (c :: cs.take (number cs).more).filter isBracket =
      (number cs).kind.bracketChar?.toList := by
  have hpart : ∀ d ∈ c :: cs.take (number cs).more, (d.isDigit || d == '.') = true := by
    intro d hd
    rcases List.mem_cons.mp hd with rfl | hd
    · simp [hc]
    · rcases number_cases cs with h | ⟨after, hafter, h⟩
      · rw [h] at hd
        simp [isDigit_of_mem_digits hd]
      · rw [h, Nat.add_assoc, List.take_add, List.mem_append, hafter, Nat.add_comm 1,
          List.take_succ_cons, List.mem_cons] at hd
        rcases hd with hd | rfl | hd
        · simp [isDigit_of_mem_digits hd]
        · rfl
        · simp [isDigit_of_mem_digits hd]
  rw [filter_isBracket_eq_nil rfl hpart]
  rcases number_cases cs with h | ⟨_, _, h⟩ <;> rw [h] <;> rfl

theorem brackets_name (hc : isNameStart c = true) :
    (c :: cs.take (name c cs).more).filter isBracket = (name c cs).kind.bracketChar?.toList := by
  have hpart : ∀ d ∈ c :: cs.take (name c cs).more, (isNameStart d || isNamePart d) = true := by
    intro d hd
    rcases List.mem_cons.mp hd with rfl | hd
    · simp [hc]
    · simp only [name, take_length_takeWhile] at hd
      have : isNamePart d = true := List.all_eq_true.mp List.all_takeWhile d hd
      simp [this]
  have hkind : (name c cs).kind.bracketChar? = none := by
    have hall : ∀ p ∈ Kind.keywords, p.2.bracketChar? = none := by decide
    simp only [name]
    cases h : Kind.keyword? (String.ofList (c :: cs.takeWhile isNamePart)) with
    | none => rfl
    | some k =>
      obtain ⟨front, back, he, _⟩ := List.lookup_eq_some_iff.mp h
      exact hall (_, k) (he ▸ List.mem_append_right front List.mem_cons_self)
  rw [filter_isBracket_eq_nil rfl hpart, hkind]
  rfl

/-- Every bracket is a symbol of its own, and no symbol has a bracket as a part. -/
theorem brackets_symbol :
    (c :: cs.take (symbol c cs).more).filter isBracket = (symbol c cs).kind.bracketChar?.toList := by
  unfold symbol
  split
  · rename_i spelling kind hf
    have hall : Kind.symbols.all
      (fun p => p.1.filter isBracket == p.2.bracketChar?.toList) := by rfl
    have hmem := List.mem_of_find?_eq_some hf
    have hp : spelling <+: c :: cs := by simpa using List.find?_some hf
    have hne := (symbols_spec _ hmem).1
    cases spelling with
    | nil => exact absurd rfl hne
    | cons s ss =>
      obtain ⟨rfl, hss⟩ := List.cons_prefix_cons.mp hp
      simp only [List.length_cons, Nat.add_sub_cancel, ← List.prefix_iff_eq_take.mp hss]
      simpa using List.all_eq_true.mp hall _ hmem
  · rename_i hf
    have hsingle : ['(', ')', '[', ']', '\x7b', '\x7d'].all fun d =>
      Kind.symbols.any (fun p => p.1 == [d]) := by rfl
    have hc : isBracket c = false := by
      cases hb : isBracket c with
      | false => rfl
      | true =>
        obtain ⟨p, hp, hd⟩ :=
          List.any_eq_true.mp (List.all_eq_true.mp hsingle c (isBracket_iff.mp hb))
        have hprefix : p.1.isPrefixOf (c :: cs) = true := by simp [eq_of_beq hd]
        exact absurd hprefix (List.find?_eq_none.mp hf p hp)
    simp [hc, Kind.bracketChar?, Kind.opens?, Kind.closes?]

/-- The brackets of a lexeme that is no string literal: itself, if it is one, and no others. -/
theorem brackets_read (hk : (read prev c cs).kind ≠ .stringLiteral) :
    (c :: cs.take (read prev c cs).more).filter isBracket =
      (read prev c cs).kind.bracketChar?.toList := by
  unfold read at hk ⊢
  split
  · rename_i hq
    split
    · rw [hq]
      rfl
    · rename_i hb
      simp [hq, hb] at hk
  · split
    · rename_i hd
      exact brackets_number hd
    · split
      · rename_i hn
        exact brackets_name hn
      · split
        · rename_i hdot
          have hpart : ∀ d ∈ c :: cs.take (digits cs), (d.isDigit || d == '.') = true := by
            intro d hd
            rcases List.mem_cons.mp hd with rfl | hd
            · simp [hdot.1]
            · simp [isDigit_of_mem_digits hd]
          exact filter_isBracket_eq_nil rfl hpart
        · exact brackets_symbol

end Lexeme

namespace CharClass.LineState

/-- Characters of one class alone. -/
theorem codeFrom_of_class {s : LineState} {cs : List Char} {cls : CharClass}
    (h : ∀ u d v, cs = u ++ d :: v → (s.run u).classOf d = cls) :
    s.codeFrom cs = if cls = .code then cs.filter isBracket else [] := by
  induction cs generalizing s with
  | nil => simp [codeFrom]
  | cons c cs ih =>
    have hc : s.classOf c = cls := h [] c cs rfl
    have hcs := @ih (s.step c) fun u d v huv => h (c :: u) d v (by rw [huv]; rfl)
    rw [codeFrom, hcs, hc]
    by_cases hcls : cls = .code <;> by_cases hb : isBracket c = true <;> simp [hcls, hb]

/-- A gap has no bracket in code. -/
theorem codeFrom_gap {s : LineState} {inComment : Bool} {gap rest : List Char}
    (hs : s.mode = gapMode inComment) (hgap : trivia inComment (gap ++ rest) = gap.length) :
    s.codeFrom gap = [] := by
  induction gap generalizing s inComment with
  | nil => rfl
  | cons g gap ih =>
    obtain ⟨hg, hnext⟩ := trivia_cons_eq_succ_iff.mp hgap
    have hrest := ih (step_gap hs hg) hnext
    cases inComment with
    | true =>
      have hclass : s.classOf g = .comment := by simp [classOf, modeAfter, hs, gapMode]
      rw [codeFrom, hclass, if_neg (by simp), hrest]
    | false =>
      have hb : isBracket g = false := by
        rcases hg with hg | hg | rfl
        · cases hg
        · exact not_isBracket_of rfl hg
        · rfl
      rw [codeFrom_cons_of_not hb, hrest]

/-- The same from any settled state: if the line is not in code, then the gap starts with its
end. -/
theorem Settled.codeFrom_gap {s : LineState} {gap rest : List Char} (h : s.Settled (gap ++ rest))
    (hgap : trivia false (gap ++ rest) = gap.length) : s.codeFrom gap = [] := by
  rcases h with h | h | h
  · exact LineState.codeFrom_gap (show s.mode = gapMode false from h) hgap
  · rw [(List.append_eq_nil_iff.mp h).1]
    rfl
  · cases gap with
    | nil => rfl
    | cons g gap =>
      obtain rfl : g = '\n' := by simpa using h
      have hnext := (trivia_cons_eq_succ_iff.mp hgap).2
      rw [codeFrom_newline]
      exact @LineState.codeFrom_gap {} _ _ _ rfl hnext

end CharClass.LineState

open CharClass.LineState in
/-- **The brackets in code are the brackets among the tokens.** The induction is over the tiling;
the line is settled wherever a gap starts. -/
theorem Lexer.Tiling.codeFrom_eq {file : String} {front rest : List Char}
    {scanned : List Lexer.Scanned} (h : Lexer.Tiling file front rest scanned)
    (hset : (run {} front).Settled rest) :
    (run {} front).codeFrom rest = tokenBrackets (scanned.map (·.token)) := by
  induction h with
  | @ending front gap hgap =>
    rw [Settled.codeFrom_gap (by simpa using hset) hgap]
    rfl
  | @token front gap tail rest c scanned lexeme hgap hread hmore next ih =>
    obtain ⟨hb, hh⟩ := not_blank_of_trivia hgap
    have hc : c ≠ '\n' := by
      rintro rfl
      simp at hb
    have hmode : (run {} (front ++ gap)).mode = .code := by
      obtain ⟨s, hs, hrun⟩ := hset.run_eq hc
      rw [run_append, hrun]
      exact mode_run_gap (show s.mode = CharClass.gapMode false from hs) hgap
    obtain ⟨hclass, hsettled⟩ := run_lexeme hmode (prev_run _) hread hmore hb hh
    have hlexeme : (run {} (front ++ gap)).codeFrom (c :: tail) =
        lexeme.kind.bracketChar?.toList := by
      rw [codeFrom_of_class hclass]
      by_cases hk : lexeme.kind = .stringLiteral
      · rw [hk]
        rfl
      · have hbrackets := Lexeme.brackets_read (hread ▸ hk)
        rw [hread, hmore, List.take_left' rfl] at hbrackets
        simp [hk, hbrackets]
    have hrest : (run {} (front ++ gap ++ c :: tail)).codeFrom rest =
        tokenBrackets (scanned.map (·.token)) := ih (by rw [run_append]; exact hsettled)
    calc (run {} front).codeFrom (gap ++ c :: (tail ++ rest))
        = (run {} front).codeFrom gap ++ ((run {} (front ++ gap)).codeFrom (c :: tail) ++
            (run {} (front ++ gap ++ c :: tail)).codeFrom rest) := by
          rw [codeFrom_append, ← List.cons_append, codeFrom_append, ← run_append, ← run_append]
      _ = lexeme.kind.bracketChar?.toList ++ tokenBrackets (scanned.map (·.token)) := by
          rw [hset.codeFrom_gap hgap, hlexeme, hrest, List.nil_append]
      _ = tokenBrackets ((Scanned.spelling file (front ++ gap) lexeme (c :: tail) :: scanned).map
            (·.token)) := by
          rw [List.map_cons, tokenBrackets_cons]
          rfl

/-- **Bracket validation decides balance.** The tokens of a text give no bracket error exactly if
the brackets that the classes of its lines mark as code are a balanced word. -/
theorem Brackets.check_tokenize_eq_nil_iff (uri text : String) :
    check (Lexer.tokenize uri text).1 = [] ↔ Balanced (codeBrackets text.toList) := by
  obtain ⟨scanned, htiling, heq⟩ := Lexer.tiling_tokenize uri text
  rw [check_eq_nil_iff, heq, ← CharClass.LineState.codeFrom_eq_codeBrackets]
  exact iff_of_eq (congrArg Balanced (htiling.codeFrom_eq (.inl rfl)).symm)

end AuroraLint
