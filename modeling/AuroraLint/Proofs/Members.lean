import AuroraLint.Analysis
import AuroraLint.Proofs.ClassScopes
import AuroraLint.Proofs.MemberHeaders
import AuroraLint.Proofs.Symbols

/-!
# The members of a class

The walk over a class body counts braces and jumps over what a member takes. Told without it:

* `DirectlyIn`       : a token stands in a block, and in no block inside of it.
* `startsMember`     : a member is read at a token directly in the body, and no member before it
  reaches over the token.
* `LastMember`       : a member is the last one with its key.
* `ClassInfo.OfBody` : what the entries of a class say of the tokens of its body.

Main statements: `membersFrom_eq` — the count is the number of open braces, so that the walk finds
the members directly in the body; `ClassInfo.holds_addMembers` — the last of the members with a key
stays; `SymbolTable.class_members` — the entries of a class are exactly these, and nothing in its
body is a function of the document.
-/

set_option autoImplicit false

namespace AuroraLint

/-! ## Directly in a block -/

/-- Token `k` stands between the `{` at token `b` and the end of its block, with as many braces
closed behind `b` as opened. -/
def DirectlyIn (ts : List Token) (b k : Nat) : Prop :=
  b < k ∧ k < blockEnd ts b ∧ countBetween ts .leftBrace b k = countBetween ts .rightBrace b k

instance (ts : List Token) (b k : Nat) : Decidable (DirectlyIn ts b k) :=
  inferInstanceAs (Decidable (_ ∧ _))

/-- The member at token `k`, if that stands directly in the block at token `b`. -/
def memberIn (className : String) (ts : List Token) (b k : Nat) : Option (Member × Nat) :=
  if DirectlyIn ts b k then memberAt className ts k else none

/-- Token `k` starts a member of the class with its body at token `b`. -/
def startsMember (className : String) (ts : List Token) (b k : Nat) : Bool :=
  taken (memberIn className ts b) k

section Directly

variable {className : String} {ts : List Token} {b k : Nat}

/-- Up to the end of a block, no more braces are closed in it than opened. -/
theorem countBetween_rightBrace_le (hts : EndsInEof ts) (hb : kindAt ts b = .leftBrace) (hbk : b < k)
    (hk : k ≤ blockEnd ts b) :
    countBetween ts .rightBrace b k ≤ countBetween ts .leftBrace b k := by
  obtain ⟨n, hn, _⟩ := blockFrom_openBraces hts hb hbk hk
  have := (getElem?_openBraces_iff.mp hn).2
  omega

theorem kindAt_blockEnd (hts : EndsInEof ts) (hb : kindAt ts b = .leftBrace) :
    kindAt ts (blockEnd ts b) = .rightBrace ∨ kindAt ts (blockEnd ts b) = .eof := by
  have hlen := hts.succ_lt_of_eq hb nofun
  have hend := (blockEnd_spec (show b < ts.length by omega)).2
  have hlt := (blockFrom_bounds (blockFrom_succ_eq_blockEnd hts hb)).1
  obtain ⟨n, _, hfrom⟩ := blockFrom_openBraces hts hb hlt (Nat.le_refl _)
  rcases blockFrom_step hend hfrom with ⟨_, heof | ⟨hr, _⟩⟩ | ⟨_, hnext, _⟩
  · exact .inr heof
  · exact .inl hr
  · have := (blockFrom_bounds hnext).1
    omega

/-- A member that starts in a block ends in it. -/
theorem Member.ReadAt.last_lt_blockEnd {m : Member} {last : Nat} (h : m.ReadAt className ts k last)
    (hts : EndsInEof ts) (hb : kindAt ts b = .leftBrace) (hk : k < blockEnd ts b) :
    last < blockEnd ts b := by
  refine Nat.lt_of_not_le fun hle => ?_
  have hnot := h.ne_brace (Nat.le_of_lt hk) hle
  have hlen := (h.bounds hts).2
  rcases kindAt_blockEnd hts hb with hr | heof
  · exact hnot.2 hr
  · exact hts.kindAt_ne_eof (by omega) heof

theorem memberIn_eq_some_iff (hts : EndsInEof ts) {m : Member} {last : Nat} :
    memberIn className ts b k = some (m, last) ↔
      DirectlyIn ts b k ∧ m.ReadAt className ts k last := by
  rw [← memberAt_eq_some_iff hts]
  unfold memberIn
  split
  · rename_i hin
    simp [hin]
  · rename_i hin
    simp [hin]

theorem startsMember_iff (hts : EndsInEof ts) :
    startsMember className ts b k = true ↔
      DirectlyIn ts b k ∧ (∃ m : Member, ∃ last, m.ReadAt className ts k last) ∧
        ∀ j < k, startsMember className ts b j = true →
          ∀ (m : Member) (last : Nat), m.ReadAt className ts j last → last < k := by
  unfold startsMember
  rw [taken_iff, Option.isSome_iff_exists]
  constructor
  · rintro ⟨⟨⟨m, last⟩, hat⟩, hnot⟩
    obtain ⟨hin, hread⟩ := (memberIn_eq_some_iff hts).mp hat
    refine ⟨hin, ⟨m, last, hread⟩, fun j hj htaken m' last' hread' => ?_⟩
    have hin' := ((memberIn_eq_some_iff hts).mp
      (Option.get_mem (taken_iff.mp htaken).1 : memberIn className ts b j = some _)).1
    exact Nat.lt_of_not_le fun hle =>
      hnot ⟨j, hj, htaken, m', last', (memberIn_eq_some_iff hts).mpr ⟨hin', hread'⟩, hle⟩
  · rintro ⟨hin, ⟨m, last, hread⟩, hbefore⟩
    refine ⟨⟨(m, last), (memberIn_eq_some_iff hts).mpr ⟨hin, hread⟩⟩, ?_⟩
    rintro ⟨j, hj, htaken, m', last', hat', hle⟩
    have := hbefore j hj htaken m' last' ((memberIn_eq_some_iff hts).mp hat').2
    omega

end Directly

/-! ## The walk over a body -/

section Walk

variable {className : String} {ts : List Token} {b : Nat}

theorem memberIn_of_directlyIn {k : Nat} (h : DirectlyIn ts b k) :
    memberIn className ts b k = memberAt className ts k :=
  if_pos h

/-- What is read behind a `pub` stands directly in the block as well. -/
theorem DirectlyIn.succ_of_pub {k : Nat} (h : DirectlyIn ts b k) (hpub : kindAt ts k = .kwPub)
    (hts : EndsInEof ts) (hb : kindAt ts b = .leftBrace) {m : Member} {last : Nat}
    (hread : m.ReadAt className ts (k + 1) last) : DirectlyIn ts b (k + 1) := by
  obtain ⟨hlt, hle, hcount⟩ := h
  have hbounds := hread.bounds hts
  refine ⟨Nat.lt_succ_of_lt hlt, Nat.lt_of_le_of_ne hle fun heq => ?_, ?_⟩
  · rcases kindAt_blockEnd hts hb with hr | heof
    · exact (hread.ne_brace (Nat.le_refl _) (Nat.le_of_lt hbounds.1)).2 (heq ▸ hr)
    · exact hts.kindAt_ne_eof (by omega) (heq ▸ heof)
  · rw [countBetween_succ_of_ne (by rw [hpub]; decide), countBetween_succ_of_ne (by rw [hpub]; decide),
      hcount]

theorem memberIn_eq_none (hts : EndsInEof ts) {k : Nat}
    (hk : kindAt ts k ∉ [.kwLet, .kwVar, .kwFn, .kwConstructor]) : memberIn className ts b k = none :=
  Option.eq_none_iff_forall_not_mem.mpr fun _ hat =>
    hk ((memberIn_eq_some_iff hts).mp hat).2.word

/-- At a token directly in the body, a member starts there or behind a `pub`. -/
theorem takeFrom_memberIn (hts : EndsInEof ts) (hb : kindAt ts b = .leftBrace) {resume i n : Nat}
    (hin : DirectlyIn ts b i) (hresume : ¬ i < resume) (hn : i + (n + 1) = blockEnd ts b) :
    takeFrom (memberIn className ts b) resume i (n + 1) =
      match memberAt className ts (if kindAt ts i = .kwPub then i + 1 else i) with
      | some (m, last) => m :: takeFrom (memberIn className ts b) (last + 1) (i + 1) n
      | none => takeFrom (memberIn className ts b) resume (i + 1) n := by
  rw [takeFrom, if_neg hresume]
  by_cases hpub : kindAt ts i = .kwPub
  · rw [if_pos hpub, memberIn_eq_none hts (by rw [hpub]; decide)]
    cases hat : memberAt className ts (i + 1) with
    | none => rfl
    | some p =>
      obtain ⟨m, last⟩ := p
      have hread := (memberAt_eq_some_iff hts).mp hat
      have hin' := hin.succ_of_pub hpub hts hb hread
      obtain ⟨n, rfl⟩ : ∃ n', n = n' + 1 := ⟨n - 1, by have := hin'.2.1; omega⟩
      exact takeFrom_of_some (by omega) ((memberIn_eq_some_iff hts).mpr ⟨hin', hread⟩)
        (Nat.le_of_lt (hread.bounds hts).1)
  · rw [if_neg hpub, memberIn_of_directlyIn hin]
    cases memberAt className ts i <;> rfl

/-- The walk from token `i` on, where `depth` braces of the body are open and no token before index
`resume` is a brace. -/
theorem membersFrom_eq (hts : EndsInEof ts) (hb : kindAt ts b = .leftBrace) {depth resume i n : Nat}
    (hbi : b < i) (hn : i + n = blockEnd ts b)
    (hdepth : countBetween ts .leftBrace b i = countBetween ts .rightBrace b i + depth)
    (hresume : ∀ j, i ≤ j → j < resume → kindAt ts j ≠ .leftBrace ∧ kindAt ts j ≠ .rightBrace) :
    membersFrom className ts depth resume i ((ts.drop i).take n) =
      takeFrom (memberIn className ts b) resume i n := by
  induction n generalizing depth resume i with
  | zero => rfl
  | succ n ih =>
    have hlen := hts.succ_lt_of_eq hb (by decide)
    have hend := (blockEnd_spec (show b < ts.length by omega)).2
    have hkind : (tokenAt ts i).kind = kindAt ts i := rfl
    rw [drop_eq_tokenAt_cons (by omega), List.take_succ_cons, membersFrom, hkind]
    by_cases hlt : i < resume
    · -- the token belongs to a member
      obtain ⟨hnl, hnr⟩ := hresume i (Nat.le_refl i) hlt
      rw [if_pos hlt, takeFrom, if_pos hlt]
      refine ih (by omega) (by omega) ?_ fun j hj => hresume j (by omega)
      rw [countBetween_succ_of_ne hnl, countBetween_succ_of_ne hnr, hdepth]
    have hrest : ∀ j, i + 1 ≤ j → j < resume →
        kindAt ts j ≠ .leftBrace ∧ kindAt ts j ≠ .rightBrace := fun j hj hj' => by omega
    rw [if_neg hlt]
    split
    · rename_i hk
      rw [takeFrom, if_neg hlt, memberIn_eq_none hts (by rw [hk]; decide)]
      refine ih (by omega) (by omega) ?_ hrest
      rw [countBetween_succ_of_eq hbi hk, countBetween_succ_of_ne (by rw [hk]; decide), hdepth,
        Nat.add_assoc]
    · -- some brace of the body is open, or the body would end here
      rename_i hk
      have hle := countBetween_rightBrace_le hts hb (show b < i + 1 by omega) (by omega)
      rw [takeFrom, if_neg hlt, memberIn_eq_none hts (by rw [hk]; decide)]
      refine ih (by omega) (by omega) ?_ hrest
      rw [countBetween_succ_of_eq hbi hk, countBetween_succ_of_ne (by rw [hk]; decide)] at hle ⊢
      omega
    · rename_i hnl hnr
      have hnext : countBetween ts .leftBrace b (i + 1) =
          countBetween ts .rightBrace b (i + 1) + depth := by
        rw [countBetween_succ_of_ne hnl, countBetween_succ_of_ne hnr, hdepth]
      by_cases hpos : 0 < depth
      · have hnone : memberIn className ts b i = none :=
          if_neg fun hin => by have := hin.2.2; omega
        rw [if_pos hpos, takeFrom, if_neg hlt, hnone]
        exact ih (by omega) (by omega) hnext hrest
      · rw [if_neg hpos, takeFrom_memberIn hts hb ⟨hbi, by omega, by omega⟩ hlt hn]
        cases hat : memberAt className ts (if kindAt ts i = .kwPub then i + 1 else i) with
        | none => exact ih (by omega) (by omega) hnext hrest
        | some p =>
          have hread := (memberAt_eq_some_iff hts).mp hat
          refine congrArg (p.1 :: ·) (ih (by omega) (by omega) hnext fun j hj hj' => ?_)
          exact hread.ne_brace (by split <;> omega) (Nat.le_of_lt_succ hj')

/-- **The walk over a body finds the members that start at its tokens.** -/
theorem membersOf_eq (className : String) (hts : EndsInEof ts) (hb : kindAt ts b = .leftBrace) :
    membersOf className ts b (blockEnd ts b) =
      (List.range' (b + 1) (blockEnd ts b - (b + 1))).filterMap
        (takenAt (memberIn className ts b)) := by
  have hlt := (blockFrom_bounds (blockFrom_succ_eq_blockEnd hts hb)).1
  have hnone : ∀ k, b + 1 ≤ k →
      (k < b + 1 ↔ TakenOver (memberIn className ts b) (b + 1) k) := by
    refine fun k hk => ⟨fun h => by omega, ?_⟩
    rintro ⟨j, hj, _, m, last, hat, _⟩
    have := ((memberIn_eq_some_iff hts).mp hat).1.1
    omega
  rw [membersOf, membersFrom_eq hts hb (Nat.lt_succ_self b) (by omega) ?_ (by omega),
    takeFrom_eq hnone]
  rw [countBetween_of_le ts .leftBrace (Nat.le_refl _),
    countBetween_of_le ts .rightBrace (Nat.le_refl _)]

end Walk

/-! ## The entries of a class -/

/-- Both are fields of one name, or both methods under one key. -/
def Member.sameKey : Member → Member → Bool
  | .field a _, .field b _ => a == b
  | .method a _, .method b _ => a == b
  | _, _ => false

/-- The member is an entry of the class. -/
def ClassInfo.Holds (c : ClassInfo) : Member → Prop
  | .field name type => c.fields[name]? = some type
  | .method key s => c.methods[key]? = some s

/-- Of the members that start in the body of a class, `m` is one, and the last one with its key. -/
def LastMember (className : String) (ts : List Token) (b : Nat) (m : Member) : Prop :=
  ∃ k last, startsMember className ts b k = true ∧ m.ReadAt className ts k last ∧
    ∀ (k' last' : Nat) (m' : Member), k < k' → startsMember className ts b k' = true →
      m'.ReadAt className ts k' last' → m'.sameKey m = false

section Entries

variable {c : ClassInfo} {m : Member}

theorem Member.sameKey_self (m : Member) : m.sameKey m = true := by
  cases m <;> exact beq_self_eq_true _

theorem ClassInfo.holds_addMember (c : ClassInfo) (a m : Member) :
    (c.addMember a).Holds m ↔ if a.sameKey m then a = m else c.Holds m := by
  cases a <;> cases m <;>
    simp only [addMember, Holds, Member.sameKey, Std.TreeMap.getElem?_insert,
      Std.LawfulEqCmp.compare_eq_iff_eq, beq_iff_eq, Bool.false_eq_true, if_false]
  · split
    · rename_i h
      simp [h]
    · rfl
  · split
    · rename_i h
      simp [h]
    · rfl

/-- **The last of the members with a key stays.** -/
theorem ClassInfo.holds_addMembers (hc : ∀ m, ¬ c.Holds m) (f : Nat → Option Member) (s n : Nat) :
    (((List.range' s n).filterMap f).foldl addMember c).Holds m ↔
      ∃ k, (s ≤ k ∧ k < s + n) ∧ f k = some m ∧
        ∀ k', k < k' → k' < s + n → ∀ m', f k' = some m' → m'.sameKey m = false := by
  induction n with
  | zero =>
    refine iff_of_false (hc m) ?_
    rintro ⟨k, hk, _⟩
    omega
  | succ n ih =>
    rw [List.range'_1_concat, List.filterMap_append, List.foldl_append]
    by_cases hclash : ∃ a, f (s + n) = some a ∧ a.sameKey m = true
    · -- the last one takes the key
      obtain ⟨a, hf, hkey⟩ := hclash
      simp only [List.filterMap_cons, hf, List.filterMap_nil, List.foldl_cons, List.foldl_nil,
        holds_addMember, hkey, if_true]
      constructor
      · rintro rfl
        exact ⟨s + n, by omega, hf, fun k' hlt hlt' => by omega⟩
      · rintro ⟨k, hk, hat, hlast⟩
        by_cases heq : k = s + n
        · subst heq
          exact Option.some.inj (hf.symm.trans hat)
        · have := hlast (s + n) (by omega) (by omega) a hf
          rw [hkey] at this
          cases this
    · -- the last one leaves the key as it is
      have hkey : ∀ a, f (s + n) = some a → a.sameKey m = false :=
        fun a hf => Bool.eq_false_iff.mpr fun h => hclash ⟨a, hf, h⟩
      have hsame : (([s + n].filterMap f).foldl addMember
          (((List.range' s n).filterMap f).foldl addMember c)).Holds m ↔
          (((List.range' s n).filterMap f).foldl addMember c).Holds m := by
        cases hf : f (s + n) with
        | none => simp [hf]
        | some a => simp [hf, holds_addMember, hkey a hf]
      rw [hsame, ih]
      constructor
      · rintro ⟨k, hk, hat, hlast⟩
        refine ⟨k, by omega, hat, fun k' hlt hlt' m' hat' => ?_⟩
        by_cases heq : k' = s + n
        · exact hkey m' (heq ▸ hat')
        · exact hlast k' hlt (by omega) m' hat'
      · rintro ⟨k, hk, hat, hlast⟩
        have hne : k ≠ s + n := by
          rintro rfl
          have := hkey m hat
          rw [m.sameKey_self] at this
          cases this
        exact ⟨k, by omega, hat, fun k' hlt hlt' => hlast k' hlt (by omega)⟩

end Entries

/-! ## Registered classes -/

/-- What the entries of a class say of its body, which opens at token `b`. -/
structure ClassInfo.OfBody (ts : List Token) (b : Nat) (c : ClassInfo) : Prop where
  /-- A token starts a member if it stands directly in the body, a member can be read there, and no
  member that starts before it reaches to it. -/
  starts : ∀ k, startsMember c.name ts b k = true ↔
    DirectlyIn ts b k ∧ (∃ m : Member, ∃ last, m.ReadAt c.name ts k last) ∧
      ∀ j < k, startsMember c.name ts b j = true →
        ∀ (m : Member) (last : Nat), m.ReadAt c.name ts j last → last < k
  /-- Header and initial value end in front of the end of the body. -/
  within : ∀ (k last : Nat) (m : Member), startsMember c.name ts b k = true →
    m.ReadAt c.name ts k last →
      kindAt ts k ∈ [.kwLet, .kwVar, .kwFn, .kwConstructor] ∧ last < blockEnd ts b
  fields : ∀ (name : String) (type : Ty),
    c.fields[name]? = some type ↔ LastMember c.name ts b (.field name type)
  methods : ∀ (key : String) (s : Signature),
    c.methods[key]? = some s ↔ LastMember c.name ts b (.method key s)
  /-- Only a constructor stands under the reserved key, and it makes an object of the class. -/
  reserved : ∀ s, c.methods["constructor"]? = some s → s.origin = .constructor ∧
    s.returnType = .named c.name ∧
      ∃ k, startsMember c.name ts b k = true ∧ kindAt ts k = .kwConstructor
  /-- Every other method comes from a function, under the name of that. -/
  unreserved : ∀ key s, key ≠ "constructor" → c.methods[key]? = some s → s.origin = .method ∧
    s.name = key ∧ ∃ k, startsMember c.name ts b k = true ∧ kindAt ts k = .kwFn

section Registered

variable {file : String} {text : List Char} {ts : List Token}

theorem name_addMembers (members : List Member) (c : ClassInfo) :
    (members.foldl ClassInfo.addMember c).name = c.name := by
  induction members generalizing c with
  | nil => rfl
  | cons m members ih =>
    rw [List.foldl_cons, ih]
    cases m <;> rfl

/-- An entry of a class with a body is the last member with its key. -/
theorem ClassHeader.holds_declared (hts : EndsInEof ts) {h : ClassHeader} {b : Nat}
    (hb : kindAt ts b = .leftBrace) (m : Member) :
    (h.declared (membersOf h.name ts b (blockEnd ts b))).Holds m ↔ LastMember h.name ts b m := by
  have hempty : ∀ m, ¬ (⟨h.name, ∅, ∅, h.nameSpan⟩ : ClassInfo).Holds m := by
    intro m
    cases m <;> simp [ClassInfo.Holds]
  have hat : ∀ {k : Nat} {m : Member}, takenAt (memberIn h.name ts b) k = some m ↔
      startsMember h.name ts b k = true ∧ ∃ last, m.ReadAt h.name ts k last := by
    intro k m
    rw [takenAt_eq_some_iff]
    refine and_congr_right fun htaken => exists_congr fun last => ?_
    rw [memberIn_eq_some_iff hts]
    exact and_iff_right ((startsMember_iff hts).mp htaken).1
  rw [ClassHeader.declared, membersOf_eq h.name hts hb, ClassInfo.holds_addMembers hempty]
  constructor
  · rintro ⟨k, hk, hm, hlast⟩
    obtain ⟨hstarts, last, hread⟩ := hat.mp hm
    refine ⟨k, last, hstarts, hread, fun k' last' m' hlt hstarts' hread' => ?_⟩
    have hin := ((startsMember_iff hts).mp hstarts').1
    exact hlast k' hlt (by have := hin.2.1; omega) m' (hat.mpr ⟨hstarts', last', hread'⟩)
  · rintro ⟨k, last, hstarts, hread, hlast⟩
    have hin := ((startsMember_iff hts).mp hstarts).1
    refine ⟨k, by have := hin.1; have := hin.2.1; omega, hat.mpr ⟨hstarts, last, hread⟩, ?_⟩
    intro k' hlt _ m' hm'
    obtain ⟨hstarts', last', hread'⟩ := hat.mp hm'
    exact hlast k' last' m' hlt hstarts' hread'

/-- **The entries of a class with a body are the members directly in the body.** -/
theorem ClassHeader.ofBody (hstream : TokenStream file text ts) {h : ClassHeader} {b : Nat}
    (hb : kindAt ts b = .leftBrace) :
    (h.declared (membersOf h.name ts b (blockEnd ts b))).OfBody ts b := by
  have hts := hstream.endsInEof
  have hname : (h.declared (membersOf h.name ts b (blockEnd ts b))).name = h.name :=
    name_addMembers _ _
  have hholds := ClassHeader.holds_declared (h := h) hts hb
  constructor <;> rw [hname]
  · exact fun k => startsMember_iff hts
  · intro k last m hstarts hread
    exact ⟨hread.word, hread.last_lt_blockEnd hts hb ((startsMember_iff hts).mp hstarts).1.2.1⟩
  · exact fun name type => hholds (.field name type)
  · exact fun key s => hholds (.method key s)
  · intro s hs
    obtain ⟨k, last, hstarts, hread, _⟩ := (hholds (.method _ s)).mp hs
    rcases hread.key_cases hstream with ⟨_, hk, horigin, htype⟩ | ⟨hkey, _⟩
    · exact ⟨horigin, htype, k, hstarts, hk⟩
    · exact absurd rfl hkey
  · intro key s hkey hs
    obtain ⟨k, last, hstarts, hread, _⟩ := (hholds (.method key s)).mp hs
    rcases hread.key_cases hstream with ⟨hkey', _⟩ | ⟨_, hk, horigin, hname⟩
    · exact absurd hkey' hkey
    · exact ⟨horigin, hname, k, hstarts, hk⟩

end Registered

namespace SymbolTable

section Collected

variable {file : String} {text : List Char} {ts : List Token}

theorem mem_collected {d : Declaration} (h : d ∈ collected ts) :
    ∃ i last, collects ts i = true ∧ declarationAt ts i = some (d, last) := by
  obtain ⟨i, _, hi⟩ := List.mem_filterMap.mp h
  split at hi
  · rename_i hcollects
    obtain ⟨⟨_, last⟩, hat, rfl⟩ := Option.map_eq_some_iff.mp hi
    exact ⟨i, last, hcollects, hat⟩
  · cases hi

theorem holds_collect (ts : List Token) : Holds (collected ts) (collect ts).1 := by
  rw [collect, declarations_eq_collected]
  exact (holds_builtins.addAll (collected ts)).1

/-- A class that is registered was collected, with the members of its body. -/
theorem exists_of_class? {name : String} {info : ClassInfo}
    (h : (collect ts).1.class? name = some info) :
    ∃ i h, collects ts i = true ∧ classHeaderAt ts i = some h ∧
      declarationAt ts i = some (.classDef h (h.members ts), h.lastToken ts) ∧
        info = h.declared (h.members ts) := by
  rw [(holds_collect ts).classes name, firstClass?, Option.map_eq_some_iff] at h
  obtain ⟨⟨header, members⟩, hfind, rfl⟩ := h
  obtain ⟨d, hd, hclass⟩ := List.mem_filterMap.mp (List.mem_of_find?_eq_some hfind)
  obtain ⟨i, last, hcollects, hat⟩ := mem_collected hd
  cases d with
  | function | external => cases hclass
  | classDef =>
    obtain ⟨rfl, rfl⟩ := Prod.mk.inj (Option.some.inj hclass)
    have hread := hat
    unfold declarationAt at hread
    split at hread
    · obtain ⟨_, _, heq⟩ := Option.map_eq_some_iff.mp hread
      cases heq
    · obtain ⟨_, _, heq⟩ := Option.map_eq_some_iff.mp hread
      cases heq
    · obtain ⟨h, hh, heq⟩ := Option.map_eq_some_iff.mp hread
      cases heq
      exact ⟨i, _, hcollects, hh, hat, rfl⟩
    · cases hread

/-- A function that is registered at a place was collected from a header with that place. -/
theorem exists_of_function? {name : String} {s : Signature} {span : Span}
    (h : (collect ts).1.function? name = some s) (hspan : s.declaredAt = some span)
    (hts : EndsInEof ts) :
    ∃ i word header, collects ts i = true ∧ FnHeader.NamedAt ts i word header ∧
      header.span = span := by
  rw [(holds_collect ts).functions name] at h
  have hplace := declaredAt_firstFunction? (collected ts) name
  rw [h, Option.bind_some, hspan] at hplace
  obtain ⟨⟨header, origin⟩, hfind, hheader⟩ := Option.map_eq_some_iff.mp hplace.symm
  obtain ⟨d, hd, hfunction⟩ := List.mem_filterMap.mp (List.mem_of_find?_eq_some hfind)
  obtain ⟨i, last, hcollects, hat⟩ := mem_collected hd
  unfold declarationAt at hat
  split at hat
  · obtain ⟨_, hh, heq⟩ := Option.map_eq_some_iff.mp hat
    cases heq
    cases hfunction
    exact ⟨i, _, _, hcollects, (externHeaderAt_eq_some_iff hts).mp hh, hheader⟩
  · obtain ⟨_, hh, heq⟩ := Option.map_eq_some_iff.mp hat
    cases heq
    cases hfunction
    exact ⟨i, _, _, hcollects, (fnHeaderAt_eq_some_iff hts).mp hh, hheader⟩
  · obtain ⟨_, _, heq⟩ := Option.map_eq_some_iff.mp hat
    cases heq
    cases hfunction
  · cases hat

/-- Headers with one span start at one token. -/
theorem index_eq_of_span_eq (hstream : TokenStream file text ts) {i j : Nat} {word word' : Kind}
    {a b : FnHeader} (ha : a.NamedAt ts i word) (hb : b.NamedAt ts j word')
    (hspan : a.span = b.span) : i = j := by
  have hstart := (hstream.fnHeader_real ha.readAt (by omega)).2
  have hstart' := (hstream.fnHeader_real hb.readAt (by omega)).2
  have hbounds := ha.readAt.bounds hstream.endsInEof
  have hbounds' := hb.readAt.bounds hstream.endsInEof
  refine hstream.index_eq_of_start_eq (by omega) (by omega) ?_
  rw [← hstart, ← hstart', hspan]

/-- A class that is registered at the place of a header was collected from that header. -/
theorem collects_of_class? (hstream : TokenStream file text ts) {i : Nat} {h : ClassHeader}
    {info : ClassInfo} (hh : classHeaderAt ts i = some h)
    (hclass : (collect ts).1.class? h.name = some info) (hplace : info.declaredAt = h.nameSpan) :
    collects ts i = true ∧
      declarationAt ts i = some (.classDef h (h.members ts), h.lastToken ts) ∧
        info = h.declared (h.members ts) := by
  have hts := hstream.endsInEof
  obtain ⟨i', h', hcollects, hh', hat, rfl⟩ := exists_of_class? hclass
  obtain rfl : i = i' := by
    have hr := (classHeaderAt_eq_some_iff hts).mp hh
    have hr' := (classHeaderAt_eq_some_iff hts).mp hh'
    have hspan : h'.nameSpan = h.nameSpan := (declaredAt_addMembers _ _).symm.trans hplace
    rw [hr.nameSpan_eq, hr'.nameSpan_eq] at hspan
    have hlt := hts.succ_lt_of_eq hr.name_kind nofun
    have hlt' := hts.succ_lt_of_eq hr'.name_kind nofun
    exact Nat.succ.inj (hstream.index_eq_of_start_eq (by omega) (by omega) (by rw [hspan]))
  obtain rfl : h = h' := Option.some.inj (hh.symm.trans hh')
  exact ⟨hcollects, hat, rfl⟩

/-- No function is registered from a header that a collected declaration reaches over. -/
theorem declaredAt_ne_of_reachedOver (hstream : TokenStream file text ts) {j : Nat} {word : Kind}
    {header : FnHeader} (hheader : header.NamedAt ts j word) (hover : ReachedOver ts j j)
    {name : String} {s : Signature} (hs : (collect ts).1.function? name = some s) :
    s.declaredAt ≠ some header.span := by
  intro hspan
  obtain ⟨j', word', header', hcollects, hheader', heq⟩ :=
    exists_of_function? hs hspan hstream.endsInEof
  obtain rfl := index_eq_of_span_eq hstream hheader hheader' heq.symm
  exact (collects_iff.mp hcollects).2 hover

end Collected

/-- **The members of a class are the declarations directly in its body.** Let a class be registered
from a header that has a body. Its entries are the last members with their keys, of those that start
directly in the body and behind the members before them, and none of them reaches to the end of the
body. No header in the body belongs to a function of the document. -/
theorem class_members (uri text : String) {i b : Nat} {h : ClassHeader} {info : ClassInfo}
    (hh : classHeaderAt (Document.ofText uri text).tokens i = some h) (hb : h.body = some b)
    (hclass : (symbolsOf uri text).class? h.name = some info)
    (hplace : info.declaredAt = h.nameSpan) :
    let ts := (Document.ofText uri text).tokens
    info.name = h.name ∧ info.OfBody ts b ∧
      ∀ (name : String) (s : Signature), (symbolsOf uri text).function? name = some s →
        ∀ (j : Nat) (header : FnHeader), b ≤ j → j ≤ blockEnd ts b →
          fnHeaderAt ts j = some header ∨ externHeaderAt ts j = some header →
            s.declaredAt ≠ some header.span := by
  intro ts
  have hstream : TokenStream uri text.toList ts := tokenStream_tokenize uri text
  have hts := hstream.endsInEof
  have hbody := leadsTo_of_classBody hts hh hb
  obtain ⟨hcollects, hat, rfl⟩ := collects_of_class? hstream hh hclass hplace
  have hmembers : h.members ts = membersOf h.name ts b (blockEnd ts b) := by
    rw [ClassHeader.members, hb]
  have hlast : h.lastToken ts = blockEnd ts b := by
    rw [ClassHeader.lastToken, hb]
  refine ⟨name_addMembers _ _, ?_, ?_⟩
  · rw [hmembers]
    exact ClassHeader.ofBody hstream hbody.brace
  · intro name s hs j header hbj hj hheader
    have hib := hbody.lt
    have hover : ReachedOver ts j j :=
      ⟨i, by omega, hcollects, _, _, hat, by rw [hlast]; exact hj⟩
    rcases hheader with hheader | hheader
    · exact declaredAt_ne_of_reachedOver hstream ((fnHeaderAt_eq_some_iff hts).mp hheader) hover hs
    · exact declaredAt_ne_of_reachedOver hstream ((externHeaderAt_eq_some_iff hts).mp hheader) hover
        hs

/-- A class with two fields of one name, and a declaration inside its constructor, which is none. -/
theorem class_members_nested :
    let text := "class P \x7b\n    pub let x = 1\n    let x = 2.5\n    constructor() -> int \x7b\n" ++
      "        let y = 3\n    \x7d\n\x7d"
    let ts := (Document.ofText "m" text).tokens
    ∃ h info, classHeaderAt ts 0 = some h ∧ h.body = some 2 ∧
      (symbolsOf "m" text).class? h.name = some info ∧ info.declaredAt = h.nameSpan ∧
        info.OfBody ts 2 ∧ info.fields["x"]? = some .double ∧ info.fields["y"]? = none ∧
          info.constructor?.map (·.returnType) = some (.named "P") := by
  intro text ts
  obtain ⟨h, hh⟩ : ∃ h, classHeaderAt ts 0 = some h :=
    Option.isSome_iff_exists.mp (by decide +kernel)
  have hheader : (classHeaderAt ts 0).map (fun h => (h.name, h.body, h.nameSpan)) =
      some ("P", some 2, ⟨"m", ⟨1, 7, 6⟩, ⟨1, 8, 7⟩⟩) := by decide +kernel
  have hclass : ((symbolsOf "m" text).class? "P").map (fun c => (c.declaredAt, c.fields["x"]?,
      c.fields["y"]?, c.constructor?.map (·.returnType))) =
      some (⟨"m", ⟨1, 7, 6⟩, ⟨1, 8, 7⟩⟩, some .double, none, some (.named "P")) := by
    decide +kernel
  obtain ⟨info, hinfo, hparts⟩ := Option.map_eq_some_iff.mp hclass
  rw [hh, Option.map_some, Option.some.injEq] at hheader
  simp only [Prod.mk.injEq] at hheader hparts
  obtain ⟨hname, hb, hspan⟩ := hheader
  obtain ⟨hplace, hx, hy, hconstructor⟩ := hparts
  rw [← hname] at hinfo
  obtain ⟨_, hbody, _⟩ := class_members "m" text hh hb hinfo (hplace.trans hspan.symm)
  exact ⟨h, info, hh, hb, hinfo, hplace.trans hspan.symm, hbody, hx, hy, hconstructor⟩

end SymbolTable

end AuroraLint
