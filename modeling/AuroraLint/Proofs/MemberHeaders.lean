import AuroraLint.Proofs.Bodies
import AuroraLint.Symbols.Collect

/-!
# The tokens of a member

* `Member.ReadAt` : the member that the tokens from one index to another declare: a field, a method
  or a constructor.

Main statements: `memberAt_eq_some_iff` — a member is found at a token exactly if it is read there —
and `Member.ReadAt.ne_brace` — a member takes no brace, neither in its header nor in its initial
value.
-/

set_option autoImplicit false

namespace AuroraLint

/-! ## Headers and initial values without braces -/

section Passed

variable {ts : List Token}

/-- The tokens of an expression: a brace would end it. -/
theorem expressionFrom_passed {depth lastLine i j : Nat} (hij : i ≤ j)
    (hj : j < expressionFrom depth lastLine i (ts.drop i)) :
    (kindAt ts j).endsAnyExpression = false := by
  generalize hrest : ts.drop i = rest at hj
  fun_induction expressionFrom depth lastLine i rest with
  | case1 | case2 | case3 => omega
  | case4 depth lastLine i t rest _ hends _ ih =>
    obtain ⟨rfl, htail⟩ := tokenAt_of_drop hrest
    rcases Nat.eq_or_lt_of_le hij with rfl | hlt
    · exact Bool.eq_false_iff.mpr hends
    · exact ih hlt htail hj

theorem expressionEnd_passed {start j : Nat} (hle : start ≤ j) (hlt : j < expressionEnd ts start) :
    (kindAt ts j).endsAnyExpression = false := by
  unfold expressionEnd at hlt
  split at hlt
  · omega
  · rename_i hdrop
    rw [← hdrop] at hlt
    exact expressionFrom_passed hle hlt

theorem ne_brace_of_endsAnyExpression {k : Kind} (h : k.endsAnyExpression = false) :
    k ≠ .leftBrace ∧ k ≠ .rightBrace := by
  constructor <;> rintro rfl <;> cases h

/-- No brace stands in an initial value. -/
theorem ne_brace_of_initAt {p j : Nat} (hle : p ≤ j) (hlt : j < (initAt ts p).2) :
    kindAt ts j ≠ .leftBrace ∧ kindAt ts j ≠ .rightBrace := by
  unfold initAt at hlt
  split at hlt
  · rename_i hequal
    rcases Nat.eq_or_lt_of_le hle with rfl | hle
    · simp [hequal]
    · exact ne_brace_of_endsAnyExpression (expressionEnd_passed hle hlt)
  · simp only at hlt
    omega

theorem ne_brace_of_annotationAt (mark : Kind) {p j : Nat}
    (hmark : mark ≠ .leftBrace ∧ mark ≠ .rightBrace) (hle : p ≤ j)
    (hlt : j < (annotationAt mark ts p).2) :
    kindAt ts j ≠ .leftBrace ∧ kindAt ts j ≠ .rightBrace := by
  have hpassed := annotationAt_passed hle hlt
  simp only [List.mem_cons, List.not_mem_nil, or_false] at hpassed
  rcases hpassed with hk | hk | hk
  · rw [hk]
    exact hmark
  · simp [hk]
  · simp [hk]

/-- No brace stands in a header behind its words. -/
theorem FnHeader.ReadAt.ne_brace {h : FnHeader} {keyword opener j : Nat}
    (hr : h.ReadAt ts keyword opener) (hle : opener ≤ j) (hj : j ≤ h.last) :
    kindAt ts j ≠ .leftBrace ∧ kindAt ts j ≠ .rightBrace := by
  obtain ⟨closer, hclose, _, hann⟩ := hr.closes
  rcases Nat.eq_or_lt_of_le hle with rfl | hlt
  · simp [hr.opens]
  rcases Nat.lt_or_ge closer j with hbehind | hinside
  · exact ne_brace_of_annotationAt .arrow ⟨nofun, nofun⟩ hbehind
      (by rw [hann]; exact Nat.lt_succ_of_le hj)
  · exact ne_brace_of_callClose hr.opens hclose hlt hinside

/-- No brace stands in the declaration of a variable. -/
theorem VarDecl.ReadAt.ne_brace {d : VarDecl} {i stop j : Nat} (hr : d.ReadAt ts i stop)
    (hle : i ≤ j) (hlt : j < stop) : kindAt ts j ≠ .leftBrace ∧ kindAt ts j ≠ .rightBrace := by
  rcases Nat.lt_or_ge j (i + 2) with hword | hbehind
  · rcases (by omega : j = i ∨ j = i + 1) with rfl | rfl
    · rw [hr.word_kind]
      cases d.isMutable <;> exact ⟨nofun, nofun⟩
    · simp [hr.name_kind]
  rcases Nat.lt_or_ge j (annotationAt .colon ts (i + 2)).2 with hann | hinit
  · exact ne_brace_of_annotationAt .colon ⟨nofun, nofun⟩ hbehind hann
  · exact ne_brace_of_initAt hinit (by rw [hr.init_eq]; exact hlt)

end Passed

/-! ## Members -/

/-- What a member of a class says of the tokens from index `k` to index `last`. -/
inductive Member.ReadAt (className : String) (ts : List Token) (k last : Nat) : Member → Prop
  | field (d : VarDecl) (hd : d.ReadAt ts k (last + 1)) :
    ReadAt className ts k last (.field d.name (d.fieldType ts))
  | method (h : FnHeader) (hh : h.NamedAt ts k .kwFn) (hlast : h.last = last) :
    ReadAt className ts k last (.method h.name (h.signature .double .method))
  | constructor (h : FnHeader) (hh : h.UnnamedAt ts k) (hlast : h.last = last) :
    ReadAt className ts k last
      (.method ClassInfo.constructorName (h.constructorSignature className))

namespace Member.ReadAt

variable {className : String} {ts : List Token} {k last : Nat} {m : Member}

/-- A member starts with one of four words. -/
theorem word (h : m.ReadAt className ts k last) :
    kindAt ts k ∈ [.kwLet, .kwVar, .kwFn, .kwConstructor] := by
  cases h with
  | field d hd =>
    rw [hd.word_kind]
    cases d.isMutable <;> decide
  | method h hh hlast => simp [hh.word_kind]
  | constructor h hh hlast => simp [hh.word_kind]

theorem bounds (h : m.ReadAt className ts k last) (hts : EndsInEof ts) :
    k < last ∧ last + 1 < ts.length := by
  cases h with
  | field d hd =>
    have := hd.bounds hts
    omega
  | method h hh hlast =>
    have := hh.readAt.bounds hts
    omega
  | constructor h hh hlast =>
    have := hh.readAt.bounds hts
    omega

/-- **No brace is among the tokens of a member.** -/
theorem ne_brace (h : m.ReadAt className ts k last) {j : Nat} (hkj : k ≤ j) (hj : j ≤ last) :
    kindAt ts j ≠ .leftBrace ∧ kindAt ts j ≠ .rightBrace := by
  cases h with
  | field d hd => exact hd.ne_brace hkj (Nat.lt_succ_of_le hj)
  | method h hh hlast =>
    rcases Nat.lt_or_ge j (k + 2) with hword | hbehind
    · rcases (by omega : j = k ∨ j = k + 1) with rfl | rfl
      · simp [hh.word_kind]
      · simp [hh.name_kind]
    · exact hh.readAt.ne_brace hbehind (hlast ▸ hj)
  | constructor h hh hlast =>
    rcases Nat.eq_or_lt_of_le hkj with rfl | hbehind
    · simp [hh.word_kind]
    · exact hh.readAt.ne_brace hbehind (hlast ▸ hj)

/-- Only a constructor stands under the name of constructors: no identifier spells it. Every other
method stands under its own name. -/
theorem key_cases {file : String} {text : List Char} {key : String} {s : Signature}
    (h : (Member.method key s).ReadAt className ts k last) (hstream : TokenStream file text ts) :
    key = ClassInfo.constructorName ∧ kindAt ts k = .kwConstructor ∧ s.origin = .constructor ∧
        s.returnType = .named className ∨
      key ≠ ClassInfo.constructorName ∧ kindAt ts k = .kwFn ∧ s.origin = .method ∧
        s.name = key := by
  cases h with
  | method h hh hlast =>
    refine .inr ⟨fun heq => ?_, hh.word_kind, rfl, rfl⟩
    have hword := hstream.keyword?_lexeme hh.name_kind
    rw [← hh.name_eq, heq] at hword
    exact absurd hword (by decide)
  | constructor h hh hlast => exact .inl ⟨rfl, hh.word_kind, rfl, rfl⟩

end Member.ReadAt

/-- **A member is found at a token exactly if it is read there.** -/
theorem memberAt_eq_some_iff {className : String} {ts : List Token} {k last : Nat} {m : Member}
    (hts : EndsInEof ts) :
    memberAt className ts k = some (m, last) ↔ m.ReadAt className ts k last := by
  constructor
  · intro h
    unfold memberAt at h
    split at h
    case h_1 | h_2 =>
      split at h
      · rename_i d c hread
        obtain ⟨stop, rfl, hd⟩ := (Reading.varDecl_eq_some_iff hts).mp hread
        obtain ⟨rfl, rfl⟩ := Prod.mk.inj (Option.some.inj h)
        have hbounds := hd.bounds hts
        exact .field d (by rwa [show stop - 1 + 1 = stop by omega])
      · cases h
    · obtain ⟨header, hh, heq⟩ := Option.map_eq_some_iff.mp h
      obtain ⟨rfl, rfl⟩ := Prod.mk.inj heq
      exact .method header ((fnHeaderAt_eq_some_iff hts).mp hh) rfl
    · obtain ⟨header, hh, heq⟩ := Option.map_eq_some_iff.mp h
      obtain ⟨rfl, rfl⟩ := Prod.mk.inj heq
      exact .constructor header ((constructorHeaderAt_eq_some_iff hts).mp hh) rfl
    · cases h
  · intro h
    cases h with
    | field d hd =>
      have hread : Reading.varDecl ⟨ts, k⟩ = (some d, ⟨ts, last + 1⟩) :=
        (Reading.varDecl_eq_some_iff hts).mpr ⟨_, rfl, hd⟩
      unfold memberAt
      rw [hread, hd.word_kind]
      cases d.isMutable <;> rfl
    | method header hh hlast =>
      unfold memberAt
      rw [hh.word_kind, (fnHeaderAt_eq_some_iff hts).mpr hh, ← hlast]
      rfl
    | constructor header hh hlast =>
      unfold memberAt
      rw [hh.word_kind, (constructorHeaderAt_eq_some_iff hts).mpr hh, ← hlast]
      rfl

end AuroraLint
