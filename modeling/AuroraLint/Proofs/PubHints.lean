import AuroraLint.Brackets
import AuroraLint.Proofs.Returns.Nested
import AuroraLint.Proofs.TokenLines

/-!
# Hints on `pub`

The hints go by lines: a line that starts with `class NAME` opens a class, and the next `}` that
brings the count of braces back to zero ends it.

* `braceDepth`     : the count of braces in front of a token.
* `Style.KeptOpen` : a class is still open, for the count of braces, at the end of a token's line.
* `Style.Outlived` : a class that is still open there, and yet the token is not in its body.

Main statements: `braceDepth_blockEnd` — the `}` of a block brings the count back to where the block
started; `Style.ClassTracker.Follows.line` — what one line does to the count and the open class, from
which `Style.mem_check_pubMember_iff` follows; `Style.pub_hints` — every hint is due to a class that
is kept open, and lies in the body of that class exactly if the class is not outlived.
-/

set_option autoImplicit false

namespace AuroraLint

/-! ## Counting braces -/

/-- The `{` less the `}` in front of a token. -/
def braceDepth (ts : List Token) : Nat → Int
  | 0 => 0
  | i + 1 =>
    match kindAt ts i with
    | .leftBrace => braceDepth ts i + 1
    | .rightBrace => braceDepth ts i - 1
    | _ => braceDepth ts i

section Depth

variable {ts : List Token} {i : Nat}

theorem braceDepth_of_leftBrace (h : kindAt ts i = .leftBrace) :
    braceDepth ts (i + 1) = braceDepth ts i + 1 := by
  rw [braceDepth, h]

theorem braceDepth_of_rightBrace (h : kindAt ts i = .rightBrace) :
    braceDepth ts (i + 1) = braceDepth ts i - 1 := by
  rw [braceDepth, h]

theorem braceDepth_of_ne (hl : kindAt ts i ≠ .leftBrace) (hr : kindAt ts i ≠ .rightBrace) :
    braceDepth ts (i + 1) = braceDepth ts i := by
  rw [braceDepth]
  split
  · contradiction
  · contradiction
  · rfl

/-- Tokens that are no braces leave the count as it is. -/
theorem braceDepth_eq_of_ne {j : Nat} (hij : i ≤ j)
    (h : ∀ n, i ≤ n → n < j → kindAt ts n ≠ .leftBrace ∧ kindAt ts n ≠ .rightBrace) :
    braceDepth ts j = braceDepth ts i := by
  induction hij with
  | refl => rfl
  | @step j hij ih =>
    obtain ⟨hl, hr⟩ := h j hij (Nat.lt_succ_self j)
    rw [braceDepth_of_ne hl hr]
    exact ih fun n hin hnj => h n hin (Nat.lt_succ_of_lt hnj)

/-- The body of a header opens at the count at which its word stands. -/
theorem LeadsTo.braceDepth_eq {k b : Nat} (h : LeadsTo ts k b) :
    braceDepth ts b = braceDepth ts k :=
  braceDepth_eq_of_ne (Nat.le_of_lt h.lt) fun _ => h.ne_brace

/-- The search for the end of a block ends with the document, or with the `}` that takes the count
down by the depth of the search. -/
theorem braceDepth_blockFrom {depth e : Nat} (hpos : 0 < depth) (he : e < ts.length)
    (h : blockFrom depth i (ts.drop i) = some e) :
    kindAt ts e = .eof ∨
      kindAt ts e = .rightBrace ∧ braceDepth ts (e + 1) + depth = braceDepth ts i := by
  obtain ⟨n, rfl⟩ := Nat.exists_eq_add_of_le (blockFrom_bounds h).1
  induction n generalizing depth i with
  | zero =>
    rw [Nat.add_zero] at he h ⊢
    rcases blockFrom_step he h with ⟨_, heof | ⟨hr, hdepth⟩⟩ | ⟨_, hnext, _⟩
    · exact .inl heof
    · rw [braceDepth_of_rightBrace hr]
      exact .inr ⟨hr, by omega⟩
    · have := (blockFrom_bounds hnext).1
      omega
  | succ n ih =>
    rcases blockFrom_step (by omega) h with ⟨heq, _⟩ | ⟨depth', hnext, hstep⟩
    · omega
    · have hcount : 0 < depth' ∧ braceDepth ts (i + 1) + depth = braceDepth ts i + depth' := by
        rcases hstep with ⟨hl, rfl⟩ | ⟨hr, hpos', rfl⟩ | ⟨⟨hl, hr⟩, rfl⟩
        · rw [braceDepth_of_leftBrace hl]
          omega
        · rw [braceDepth_of_rightBrace hr]
          omega
        · exact ⟨hpos, by rw [braceDepth_of_ne hl hr]⟩
      rw [← Nat.add_assoc, Nat.add_right_comm] at he hnext ⊢
      rcases ih hcount.1 he hnext with heof | ⟨hr, hend⟩
      · exact .inl heof
      · exact .inr ⟨hr, by omega⟩

/-- **A block that is closed leaves the count as it was in front of it.** -/
theorem braceDepth_blockEnd (hts : EndsInEof ts) {b : Nat} (hb : kindAt ts b = .leftBrace) :
    kindAt ts (blockEnd ts b) = .eof ∨
      kindAt ts (blockEnd ts b) = .rightBrace ∧
        braceDepth ts (blockEnd ts b + 1) = braceDepth ts b := by
  have hlen := hts.succ_lt_of_eq hb nofun
  have hend := (blockEnd_spec (show b < ts.length by omega)).2
  rcases braceDepth_blockFrom Nat.one_pos hend (blockFrom_succ_eq_blockEnd hts hb) with
    heof | ⟨hr, hcount⟩
  · exact .inl heof
  · rw [braceDepth_of_leftBrace hb] at hcount
    exact .inr ⟨hr, by omega⟩

end Depth

namespace Style

/-! ## Classes that are kept open -/

/-- A line starts at token `c` with `class NAME`. -/
def ClassLineAt (ts : List Token) (c : Nat) : Prop :=
  startsLine ts c = true ∧ kindAt ts c = .kwClass ∧ kindAt ts (c + 1) = .identifier ∧
    (tokenAt ts (c + 1)).line = (tokenAt ts c).line

/-- A line starts at token `i` with `pub` and a member. -/
def PubLineAt (ts : List Token) (i : Nat) : Prop :=
  startsLine ts i = true ∧ kindAt ts i = .kwPub ∧ isMemberStart (tokenAt ts (i + 1)) = true ∧
    (tokenAt ts (i + 1)).line = (tokenAt ts i).line

/-- No `}` between tokens `c` and `p` brings the count of braces to zero. -/
def NeverClosed (ts : List Token) (c p : Nat) : Prop :=
  ∀ j < p, c < j → kindAt ts j = .rightBrace → braceDepth ts (j + 1) ≠ 0

/-- A line in front of token `m` opens a class that is not closed in front of token `p`. -/
def ClassOpen (ts : List Token) (m p : Nat) : Prop :=
  ∃ c < m, ClassLineAt ts c ∧ NeverClosed ts c p

/-- The class at token `c` is open at the end of the line of token `i`: no `}` behind it on the lines
up to there brings the count of braces to zero. -/
structure KeptOpen (ts : List Token) (c i : Nat) : Prop where
  classLine : ClassLineAt ts c
  lt : c < i
  stays : ∀ j, c < j → (tokenAt ts j).line ≤ (tokenAt ts i).line → kindAt ts j = .rightBrace →
    braceDepth ts (j + 1) ≠ 0

section Open

variable {ts : List Token} {m p start stop : Nat}

/-- One token more closes the class if it is a `}` that brings the count to zero. -/
theorem classOpen_succ_iff (hm : m ≤ p + 1) :
    ClassOpen ts m (p + 1) ↔
      ClassOpen ts m p ∧ (kindAt ts p = .rightBrace → braceDepth ts (p + 1) ≠ 0) := by
  constructor
  · rintro ⟨c, hc, hclass, hnever⟩
    refine ⟨⟨c, hc, hclass, fun j hj => hnever j (Nat.lt_succ_of_lt hj)⟩, fun hr => ?_⟩
    refine hnever p (Nat.lt_succ_self p) (Nat.lt_of_le_of_ne (by omega) ?_) hr
    rintro rfl
    cases hr.symm.trans hclass.2.1
  · rintro ⟨⟨c, hc, hclass, hnever⟩, hlast⟩
    refine ⟨c, hc, hclass, fun j hj hcj => ?_⟩
    rcases Nat.lt_succ_iff_lt_or_eq.mp hj with hj | rfl
    · exact hnever j hj hcj
    · exact hlast

/-- Where a line starts, the class that it opens is open as well. -/
theorem classOpen_start_iff :
    ClassOpen ts (start + 1) start ↔ ClassOpen ts start start ∨ ClassLineAt ts start := by
  constructor
  · rintro ⟨c, hc, hclass, hnever⟩
    rcases Nat.lt_succ_iff_lt_or_eq.mp hc with hc | rfl
    · exact .inl ⟨c, hc, hclass, hnever⟩
    · exact .inr hclass
  · rintro (⟨c, hc, hclass, hnever⟩ | hclass)
    · exact ⟨c, Nat.lt_succ_of_lt hc, hclass, hnever⟩
    · exact ⟨start, Nat.lt_succ_self start, hclass, fun j hj hcj => absurd hcj (Nat.lt_asymm hj)⟩

/-- No class line starts inside a line. -/
theorem IsLine.classOpen_iff (h : IsLine ts start stop) :
    ClassOpen ts stop p ↔ ClassOpen ts (start + 1) p := by
  constructor
  · rintro ⟨c, hc, hclass, hnever⟩
    refine ⟨c, ?_, hclass, hnever⟩
    apply Nat.lt_of_not_le
    intro hle
    have := h.eq_start hclass.1 (by omega) hc
    omega
  · rintro ⟨c, hc, hclass, hnever⟩
    exact ⟨c, Nat.lt_of_lt_of_le hc h.lt, hclass, hnever⟩

/-- At the end of a line with `pub`, the classes that are open are those kept open for it. -/
theorem IsLine.classOpen_iff_keptOpen {file : String} {text : List Char}
    (h : IsLine ts start stop) (hstream : TokenStream file text ts) (hpub : PubLineAt ts start) :
    ClassOpen ts stop stop ↔ ∃ c, KeptOpen ts c start := by
  have hstop : ∀ {j}, kindAt ts j = .rightBrace →
      (j < stop ↔ (tokenAt ts j).line ≤ (tokenAt ts start).line) :=
    fun hr => h.lt_stop_iff hstream (by simp [hr])
  constructor
  · rintro ⟨c, hc, hclass, hnever⟩
    refine ⟨c, hclass, ?_, fun j hcj hline hr => hnever j ((hstop hr).mpr hline) hcj hr⟩
    apply Nat.lt_of_not_le
    intro hle
    obtain rfl := h.eq_start hclass.1 hle hc
    cases hclass.2.1.symm.trans hpub.2.1
  · rintro ⟨c, hclass, hlt, hstays⟩
    exact ⟨c, Nat.lt_trans hlt h.lt, hclass, fun j hj hcj hr => hstays j hcj ((hstop hr).mp hj) hr⟩

end Open

/-! ## The tracker -/

/-- In front of token `p` the tracker has the count of braces, and a class if one from a line in front
of token `m` is open. -/
structure ClassTracker.Follows (ts : List Token) (m p : Nat) (t : ClassTracker) : Prop where
  depth : t.depth = braceDepth ts p
  inClass : t.inClass = true ↔ ClassOpen ts m p

section Tracker

variable {ts : List Token} {m p start stop : Nat} {t : ClassTracker}

/-- **One token.** -/
theorem ClassTracker.Follows.count (h : t.Follows ts m p) (hm : m ≤ p + 1) :
    (t.count (tokenAt ts p)).Follows ts m (p + 1) := by
  have hopen := @classOpen_succ_iff ts m p hm
  unfold ClassTracker.count
  split
  · rename_i hk
    have hl : kindAt ts p = .leftBrace := hk
    refine ⟨by rw [braceDepth_of_leftBrace hl, h.depth], ?_⟩
    rw [hopen, hl, h.inClass]
    simp
  · rename_i hk
    have hr : kindAt ts p = .rightBrace := hk
    refine ⟨by rw [braceDepth_of_rightBrace hr, h.depth], ?_⟩
    rw [hopen, braceDepth_of_rightBrace hr, ← h.depth, ← h.inClass]
    simp [hr]
  · rename_i hl hr
    refine ⟨by rw [braceDepth_of_ne hl hr, h.depth], ?_⟩
    rw [hopen, h.inClass]
    exact (and_iff_left fun hk => absurd hk hr).symm

/-- The tokens of a line, one after the other. -/
theorem ClassTracker.Follows.foldl (h : t.Follows ts m p) (hm : m ≤ p + 1) {n : Nat}
    (hn : p + n ≤ ts.length) :
    (((ts.drop p).take n).foldl ClassTracker.count t).Follows ts m (p + n) := by
  induction n generalizing p t with
  | zero => exact h
  | succ n ih =>
    rw [drop_eq_tokenAt_cons (by omega), List.take_succ_cons, List.foldl_cons,
      ← Nat.add_assoc, Nat.add_right_comm]
    exact ih (h.count hm) (by omega) (by omega)

/-- A line starts with its first token. -/
theorem IsLine.first (h : IsLine ts start stop) (hlen : stop < ts.length) :
    tokenAt (Extent.tokens ⟨start, stop⟩ ts) 0 = tokenAt ts start :=
  Extent.tokenAt_tokens h.lt (Nat.le_of_lt hlen)

/-- What a line has in the second place is the next token, if that is on the same line. -/
theorem IsLine.second (h : IsLine ts start stop) (hlen : stop < ts.length) {P : Token → Prop}
    (hP : ∀ t, P t → t.kind ≠ .eof) :
    P (tokenAt (Extent.tokens ⟨start, stop⟩ ts) 1) ↔
      P (tokenAt ts (start + 1)) ∧ (tokenAt ts (start + 1)).line = (tokenAt ts start).line := by
  by_cases hlt : start + 1 < stop
  · have htoken : tokenAt (Extent.tokens ⟨start, stop⟩ ts) 1 = tokenAt ts (start + 1) :=
      Extent.tokenAt_tokens hlt (Nat.le_of_lt hlen)
    rw [htoken]
    exact (and_iff_left (h.same _ hlt (Nat.le_succ start)).2).symm
  · have hshort : (Extent.tokens ⟨start, stop⟩ ts).length ≤ 1 := by
      simp only [Extent.tokens, List.length_take]
      omega
    refine iff_of_false (fun hsecond => hP _ hsecond (kindAt_of_length_le hshort)) ?_
    rintro ⟨hsecond, hline⟩
    exact hlt ((h.second_iff (hP _ hsecond)).mpr hline)

theorem IsLine.classLineAt_iff (h : IsLine ts start stop) (hlen : stop < ts.length) :
    (kindAt (Extent.tokens ⟨start, stop⟩ ts) 0 == .kwClass &&
      kindAt (Extent.tokens ⟨start, stop⟩ ts) 1 == .identifier) = true ↔ ClassLineAt ts start := by
  have hsecond := h.second hlen (P := fun t => t.kind = .identifier) fun t ht => by simp [ht]
  rw [ClassLineAt, Bool.and_eq_true, beq_iff_eq, beq_iff_eq, kindAt, h.first hlen, kindAt, hsecond,
    and_iff_right h.starts]
  rfl

theorem IsLine.pubLineAt_iff (h : IsLine ts start stop) (hlen : stop < ts.length) :
    kindAt (Extent.tokens ⟨start, stop⟩ ts) 0 = .kwPub ∧
      isMemberStart (tokenAt (Extent.tokens ⟨start, stop⟩ ts) 1) = true ↔ PubLineAt ts start := by
  have hsecond := h.second hlen (P := fun t => isMemberStart t = true) fun t ht hk => by
    rw [isMemberStart, hk] at ht
    cases ht
  rw [PubLineAt, kindAt, h.first hlen, hsecond, and_iff_right h.starts]
  rfl

/-- **One line.** -/
theorem ClassTracker.Follows.line (h : t.Follows ts start start) (hline : IsLine ts start stop)
    (hlen : stop < ts.length) : (t.line (Extent.tokens ⟨start, stop⟩ ts)).Follows ts stop stop := by
  have hlt := hline.lt
  have hopened : ClassTracker.Follows ts (start + 1) start { t with inClass := t.inClass ||
      (kindAt (Extent.tokens ⟨start, stop⟩ ts) 0 == .kwClass &&
        kindAt (Extent.tokens ⟨start, stop⟩ ts) 1 == .identifier) } := by
    refine ⟨h.depth, ?_⟩
    rw [classOpen_start_iff, ← h.inClass, ← hline.classLineAt_iff hlen, Bool.or_eq_true]
  have hfolded := hopened.foldl (Nat.le_refl _) (n := stop - start) (by omega)
  rw [Nat.add_sub_cancel' (Nat.le_of_lt hlt)] at hfolded
  exact ⟨hfolded.depth, hfolded.inClass.trans hline.classOpen_iff.symm⟩

/-- The tracker asks for a hint on a line that starts with `pub` and a member, and for which a class
is kept open. -/
theorem ClassTracker.Follows.hint_iff {file : String} {text : List Char}
    (h : t.Follows ts stop stop) (hline : IsLine ts start stop) (hstream : TokenStream file text ts)
    (hlen : stop < ts.length) :
    (t.inClass && kindAt (Extent.tokens ⟨start, stop⟩ ts) 0 == .kwPub &&
      isMemberStart (tokenAt (Extent.tokens ⟨start, stop⟩ ts) 1)) = true ↔
        PubLineAt ts start ∧ ∃ c, KeptOpen ts c start := by
  rw [Bool.and_assoc, Bool.and_eq_true, Bool.and_eq_true, beq_iff_eq, hline.pubLineAt_iff hlen,
    h.inClass, and_comm]
  exact and_congr_right (hline.classOpen_iff_keptOpen hstream)

end Tracker

/-! ## The hints -/

/-- What is said of a `pub` in front of a member. -/
def pubMember : String :=
  "Class members are public by default. The 'pub' modifier is unnecessary."

section Hints

variable {doc : Document} {d : Diagnostic}

/-- **All lines.** -/
theorem mem_checkPub_iff (hdoc : doc.Streamed) {p : Nat} {lines : List Extent} {t : ClassTracker}
    (hlines : LinesFrom doc.tokens p lines) (ht : t.Follows doc.tokens p p) :
    d ∈ checkPub doc t lines ↔ ∃ i, p ≤ i ∧ PubLineAt doc.tokens i ∧
      (∃ c, KeptOpen doc.tokens c i) ∧ d = .unnecessary pubMember (doc.token i).span := by
  have hts := hdoc.endsInEof
  induction hlines generalizing t with
  | @nil p heof =>
    refine iff_of_false List.not_mem_nil ?_
    rintro ⟨i, hle, hpub, _⟩
    have hlen := hts.succ_lt_of_eq hpub.2.1 nofun
    exact hts.kindAt_ne_eof (show p + 1 < doc.tokens.length by omega) heof
  | @cons start stop lines hline hrest ih =>
    have hlt := hline.lt
    have hlen := hline.stop_lt hts
    have hnext := ht.line hline hlen
    have hhint := hnext.hint_iff hline hdoc hlen
    have hcons : d ∈ checkPub doc t (⟨start, stop⟩ :: lines) ↔
        ((PubLineAt doc.tokens start ∧ ∃ c, KeptOpen doc.tokens c start) ∧
          d = .unnecessary pubMember (doc.token start).span) ∨
        d ∈ checkPub doc (t.line (Extent.tokens ⟨start, stop⟩ doc.tokens)) lines := by
      simp only [checkPub]
      rw [List.mem_append, hline.first hlen]
      refine or_congr_left ?_
      split
      · rename_i hyes
        rw [List.mem_singleton, and_iff_right (hhint.mp hyes)]
        rfl
      · rename_i hno
        exact iff_of_false List.not_mem_nil fun h => hno (hhint.mpr h.1)
    refine (hcons.trans (or_congr_right (ih hnext))).trans ?_
    constructor
    · rintro (⟨⟨hpub, hopen⟩, rfl⟩ | ⟨i, hle, hi⟩)
      · exact ⟨start, Nat.le_refl _, hpub, hopen, rfl⟩
      · exact ⟨i, by omega, hi⟩
    · rintro ⟨i, hle, hpub, hopen, heq⟩
      rcases Nat.lt_or_ge i stop with hin | hge
      · obtain rfl := hline.eq_start hpub.1 hle hin
        exact .inl ⟨⟨hpub, hopen⟩, heq⟩
      · exact .inr ⟨i, hge, hpub, hopen, heq⟩

theorem what_mem_of_headerAt {ts : List Token} {i last : Nat} {what : String}
    (h : headerAt ts i = some (last, what)) : what ∈ ["Function", "Constructor", "Class"] := by
  unfold headerAt at h
  split at h
  · obtain ⟨_, _, heq⟩ := Option.map_eq_some_iff.mp h
    simp [← (Prod.mk.inj heq).2]
  · obtain ⟨_, _, heq⟩ := Option.map_eq_some_iff.mp h
    simp [← (Prod.mk.inj heq).2]
  · obtain ⟨_, _, heq⟩ := Option.map_eq_some_iff.mp h
    simp [← (Prod.mk.inj heq).2]
  · cases h

/-- What is said of single lines is something else. -/
theorem message_ne_of_mem_checkLine {hints : Bool} {line : Extent}
    (hd : d ∈ checkLine doc hints line) : d.message ≠ pubMember := by
  rcases List.mem_append.mp hd with hd | hd
  · have hmissing : ∀ what ∈ ["Function", "Constructor", "Class"],
        s!"{what} definition missing opening '\x7b' brace" ≠ pubMember := by decide
    unfold checkMissingBrace at hd
    split at hd
    · rename_i last what hheader
      split at hd
      · obtain rfl := List.mem_singleton.mp hd
        exact hmissing what (what_mem_of_headerAt hheader)
      · cases hd
    · cases hd
  · split at hd
    · rcases List.mem_append.mp hd with hd | hd
      · obtain ⟨t, _, ht⟩ := List.mem_filterMap.mp hd
        split at ht
        · obtain rfl := Option.some.inj ht
          show "Consider using camelCase instead of snake_case for better AuroraLang style" ≠ pubMember
          decide
        · cases ht
      · simp only [checkSemicolon] at hd
        split at hd
        · obtain rfl := List.mem_singleton.mp hd
          show "Semicolons are optional in AuroraLang" ≠ pubMember
          decide
        · cases hd
    · cases hd

/-- **Which hints on `pub` a document gets.** -/
theorem mem_check_pubMember_iff (hdoc : doc.Streamed) :
    d ∈ check doc true ∧ d.message = pubMember ↔ ∃ i, PubLineAt doc.tokens i ∧
      (∃ c, KeptOpen doc.tokens c i) ∧ d = .unnecessary pubMember (doc.token i).span := by
  have hstart : ClassTracker.Follows doc.tokens 0 0 {} :=
    ⟨rfl, iff_of_false Bool.false_ne_true fun ⟨c, hc, _⟩ => Nat.not_lt_zero c hc⟩
  have hpub := mem_checkPub_iff (d := d) hdoc (tokenLines_spec hdoc.endsInEof) hstart
  simp only [Nat.zero_le, true_and] at hpub
  rw [← hpub]
  constructor
  · rintro ⟨hd, hmessage⟩
    rcases List.mem_append.mp hd with hd | hd
    · obtain ⟨line, _, hd⟩ := List.mem_flatMap.mp hd
      exact absurd hmessage (message_ne_of_mem_checkLine hd)
    · exact hd
  · intro hd
    obtain ⟨i, _, _, rfl⟩ := hpub.mp hd
    exact ⟨List.mem_append_right _ hd, rfl⟩

end Hints

/-! ## Bodies of classes -/

/-- Token `i` lies in the body of the class at token `c`. -/
def InBodyOf (ts : List Token) (c i : Nat) : Prop :=
  ∃ b, (classHeaderAt ts c).bind (·.body) = some b ∧ b < i ∧ i < blockEnd ts b

/-- The class at token `c` cannot have token `i` in its body: it has none, or its body comes behind
the token or ends in front of it, as it may inside braces that are still open. -/
def Outlived (ts : List Token) (c i : Nat) : Prop :=
  match (classHeaderAt ts c).bind (·.body) with
  | none => True
  | some b => i < b ∨ blockEnd ts b < i ∧ braceDepth ts c ≠ 0

section Bodies

variable {ts : List Token} {c i : Nat}

theorem leadsTo_of_classHeaderAt (hts : EndsInEof ts) {b : Nat}
    (h : (classHeaderAt ts c).bind (·.body) = some b) : LeadsTo ts c b := by
  obtain ⟨header, hheader, hbody⟩ := Option.bind_eq_some_iff.mp h
  exact leadsTo_of_classBody hts hheader hbody

/-- **A class that is kept open for a `pub` has it in its body, unless it is outlived.** -/
theorem KeptOpen.inBodyOf_iff {file : String} {text : List Char} (h : KeptOpen ts c i)
    (hstream : TokenStream file text ts) (hpub : kindAt ts i = .kwPub) :
    InBodyOf ts c i ↔ ¬ Outlived ts c i := by
  have hts := hstream.endsInEof
  have hi := hts.succ_lt_of_eq hpub nofun
  unfold InBodyOf Outlived
  cases hbody : (classHeaderAt ts c).bind (·.body) with
  | none => simp
  | some b =>
    have hleads := leadsTo_of_classHeaderAt hts hbody
    simp only [Option.some.injEq, exists_eq_left']
    constructor
    · rintro ⟨hbi, hib⟩
      omega
    · intro hout
      have hne : i ≠ b := by
        rintro rfl
        cases hpub.symm.trans hleads.brace
      refine ⟨by omega, ?_⟩
      apply Nat.lt_of_not_le
      intro hle
      rcases braceDepth_blockEnd hts hleads.brace with heof | ⟨hend, hdepth⟩
      · exact hts.kindAt_ne_eof (by omega) heof
      · have hlt : blockEnd ts b < i := by
          apply Nat.lt_of_le_of_ne hle
          intro heq
          rw [heq] at hend
          cases hpub.symm.trans hend
        -- the `}` of the body brings the count back to that of the class, which is still open
        have hb := hts.succ_lt_of_eq hleads.brace nofun
        have hstart := (blockEnd_spec (show b < ts.length by omega)).1
        have hcount := h.stays (blockEnd ts b) (Nat.lt_of_lt_of_le hleads.lt hstart)
          (hstream.line_le (Nat.le_of_lt hlt) hi) hend
        rw [hdepth, hleads.braceDepth_eq] at hcount
        exact hout (.inr ⟨hlt, hcount⟩)

theorem InBodyOf.lt (hts : EndsInEof ts) (h : InBodyOf ts c i) : c < i := by
  obtain ⟨b, hbody, hbi, _⟩ := h
  exact Nat.lt_trans (leadsTo_of_classHeaderAt hts hbody).lt hbi

instance : Decidable (InBodyOf ts c i) :=
  decidable_of_iff (((classHeaderAt ts c).bind (·.body)).any fun b =>
    decide (b < i ∧ i < blockEnd ts b)) (by simp [InBodyOf, Option.any_eq_true])

end Bodies

/-- **Where hints on `pub` are given.** They are given on the lines that start with `pub` and a
member, while a class is kept open. The class has the `pub` in its body exactly if it is not outlived,
so all hints lie in bodies of classes exactly if every `pub` for which an outlived class is kept open
lies in that of another one. -/
theorem pub_hints (uri text : String) :
    let doc := Document.ofText uri text
    (∀ d, d ∈ check doc true ∧ d.message = pubMember ↔ ∃ i, PubLineAt doc.tokens i ∧
        (∃ c, KeptOpen doc.tokens c i) ∧ d = .unnecessary pubMember (doc.token i).span) ∧
      (∀ c i, PubLineAt doc.tokens i → KeptOpen doc.tokens c i →
        (InBodyOf doc.tokens c i ↔ ¬ Outlived doc.tokens c i)) ∧
      ((∀ d ∈ check doc true, d.message = pubMember → ∃ i, doc.kind i = .kwPub ∧
          d.span = some (doc.token i).span ∧ ∃ c, InBodyOf doc.tokens c i) ↔
        ∀ c i, PubLineAt doc.tokens i → KeptOpen doc.tokens c i → Outlived doc.tokens c i →
          ∃ c', InBodyOf doc.tokens c' i) := by
  intro doc
  have hdoc : doc.Streamed := Document.streamed_ofText uri text
  have hts := hdoc.endsInEof
  refine ⟨fun d => mem_check_pubMember_iff hdoc,
    fun c i hpub hopen => hopen.inBodyOf_iff hdoc hpub.2.1, ?_, ?_⟩
  · intro hall c i hpub hopen _
    obtain ⟨hd, hmessage⟩ := (mem_check_pubMember_iff hdoc).mpr ⟨i, hpub, ⟨c, hopen⟩, rfl⟩
    obtain ⟨i', hpub', hspan, hin⟩ := hall _ hd hmessage
    have hi := hts.succ_lt_of_eq hpub.2.1 nofun
    have hi' := hts.succ_lt_of_eq hpub' nofun
    have heq : (doc.token i).span = (doc.token i').span := Option.some.inj hspan
    obtain rfl : i = i' := hdoc.index_eq_of_start_eq (by omega) (by omega)
      (congrArg (·.start.offset) heq)
    exact hin
  · intro hall d hd hmessage
    obtain ⟨i, hpub, ⟨c, hopen⟩, rfl⟩ := (mem_check_pubMember_iff hdoc).mp ⟨hd, hmessage⟩
    refine ⟨i, hpub.2.1, rfl, ?_⟩
    by_cases hout : Outlived doc.tokens c i
    · exact hall c i hpub hopen hout
    · exact ⟨c, (hopen.inBodyOf_iff hdoc hpub.2.1).mpr hout⟩

/-- A class in a function, and behind it a `pub`: the brackets are balanced, the class has ended, and
the hint is given because the function has not. -/
theorem pub_hint_behind_class :
    let doc := Document.ofText "m" "fn f() {
    class A {
    }
    pub let x = 1
}"
    Brackets.check doc.tokens = [] ∧ doc.kind 9 = .kwPub ∧
      Diagnostic.unnecessary pubMember (doc.token 9).span ∈ check doc true ∧
      ¬ ∃ c, InBodyOf doc.tokens c 9 := by
  intro doc
  refine ⟨by decide +kernel, by decide +kernel, by decide +kernel, ?_⟩
  rintro ⟨c, hin⟩
  have hlt := hin.lt (Document.streamed_ofText "m" _).endsInEof
  have hnone : ∀ c < 9, ¬ InBodyOf doc.tokens c 9 := by decide +kernel
  exact hnone c hlt hin

end Style

end AuroraLint
