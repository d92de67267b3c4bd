import AuroraLint.Proofs.LoopBinding
import AuroraLint.Proofs.Returns.Nested
import AuroraLint.Resolve.Calls

/-!
# The classes around a token

The walk keeps the classes it is inside of in a stack, each with the depth of the scope of its body,
and drops one where a `}` closes a scope of that depth.

* `nesting`         : the number of open braces; a `}` too many closes nothing.
* `PlainClassLists` : no class is declared inside the list of a class header.
* `classesAround`   : the classes whose bodies reach over a token.
* `ClassStack`      : the open braces, and the entries of the class bodies among them.

Main statements: `mem_openBraces_iff_le_blockEnd` — a brace is open up to the one that ends its
block; `State.InClasses.step` — one token keeps the entries in step with the open braces, from which
`stateBefore_inClasses` follows; `Resolve.lookup_in_innermost_class` — so the stack names the
classes around a token, and calls are looked up in the innermost one first.
-/

set_option autoImplicit false

namespace AuroraLint

/-! ## Open braces and the ends of their blocks -/

/-- The number of braces that are open in front of a token. -/
def nesting (ts : List Token) : Nat → Nat
  | 0 => 0
  | i + 1 =>
    match kindAt ts i with
    | .leftBrace => nesting ts i + 1
    | .rightBrace => nesting ts i - 1
    | _ => nesting ts i

section Blocks

variable {ts : List Token} {b i : Nat}

theorem length_openBraces (ts : List Token) (i : Nat) :
    (openBraces ts i).length = nesting ts i := by
  induction i with
  | zero => rfl
  | succ i ih =>
    by_cases hl : kindAt ts i = .leftBrace
    · rw [openBraces_of_leftBrace hl, List.length_cons, ih, nesting, hl]
    · by_cases hr : kindAt ts i = .rightBrace
      · rw [openBraces_of_rightBrace hr, List.length_tail, ih, nesting, hr]
      · rw [openBraces_of_ne hl hr, ih, nesting]
        split
        · contradiction
        · contradiction
        · rfl

theorem mem_openBraces_succ (h : b ∈ openBraces ts (i + 1)) : b = i ∨ b ∈ openBraces ts i := by
  rw [openBraces] at h
  split at h
  · exact List.mem_cons.mp h
  · exact .inr (List.mem_of_mem_tail h)
  · exact .inr h

/-- Up to the end of its block, a brace stands in the stack below as many others as the search for
that end has counted. -/
theorem blockFrom_openBraces (hts : EndsInEof ts) (hb : kindAt ts b = .leftBrace) (hbi : b < i)
    (hi : i ≤ blockEnd ts b) : ∃ n, (openBraces ts i)[n]? = some b ∧
      blockFrom (n + 1) i (ts.drop i) = some (blockEnd ts b) := by
  have hlen := hts.succ_lt_of_eq hb nofun
  have hend := (blockEnd_spec (show b < ts.length by omega)).2
  obtain ⟨m, rfl⟩ := Nat.exists_eq_add_of_lt hbi
  clear hbi
  induction m with
  | zero =>
    refine ⟨0, ?_, blockFrom_succ_eq_blockEnd hts hb⟩
    rw [Nat.add_zero, openBraces_of_leftBrace hb]
    rfl
  | succ m ih =>
    obtain ⟨n, hn, hfrom⟩ := ih (by omega)
    rw [← Nat.add_assoc]
    rcases blockFrom_step (by omega) hfrom with
      ⟨heq, _⟩ | ⟨_, hnext, ⟨hl, rfl⟩ | ⟨hr, hpos, hdepth⟩ | ⟨⟨hl, hr⟩, rfl⟩⟩
    · omega
    · refine ⟨n + 1, ?_, hnext⟩
      rw [openBraces_of_leftBrace hl]
      exact hn
    · obtain ⟨k, rfl⟩ : ∃ k, n = k + 1 := ⟨n - 1, by omega⟩
      obtain rfl : _ = k + 1 := Nat.succ.inj hdepth
      refine ⟨k, ?_, hnext⟩
      rw [openBraces_of_rightBrace hr, List.getElem?_tail]
      exact hn
    · refine ⟨n, ?_, hnext⟩
      rw [openBraces_of_ne hl hr]
      exact hn

/-- Behind the end of its block, a brace is not open any more. -/
theorem not_mem_openBraces (hts : EndsInEof ts) (hb : kindAt ts b = .leftBrace)
    (hi : blockEnd ts b < i) (hlen : i < ts.length) : b ∉ openBraces ts i := by
  have hlt := (blockFrom_bounds (blockFrom_succ_eq_blockEnd hts hb)).1
  obtain ⟨m, rfl⟩ := Nat.exists_eq_add_of_lt hi
  clear hi
  induction m with
  | zero =>
    obtain ⟨n, hn, hfrom⟩ := blockFrom_openBraces hts hb hlt (Nat.le_refl _)
    rcases blockFrom_step (by omega) hfrom with ⟨_, heof | ⟨hr, hdepth⟩⟩ | ⟨_, hnext, _⟩
    · exact absurd heof (hts.kindAt_ne_eof hlen)
    · -- the innermost brace is closed, and no other is the same
      obtain rfl : n = 0 := by omega
      rw [Nat.add_zero, openBraces_of_rightBrace hr]
      have hpair := openBraces_pairwise ts (blockEnd ts b)
      cases hbraces : openBraces ts (blockEnd ts b) with
      | nil => simp [hbraces] at hn
      | cons top below =>
        rw [hbraces] at hn hpair
        obtain rfl : top = b := by simpa using hn
        intro hmem
        exact Nat.lt_irrefl top (List.rel_of_pairwise_cons hpair hmem)
    · have := (blockFrom_bounds hnext).1
      omega
  | succ m ih =>
    intro hmem
    rcases mem_openBraces_succ hmem with heq | hmem
    · omega
    · exact ih (by omega) hmem

/-- **A brace is open up to the one that ends its block.** -/
theorem mem_openBraces_iff_le_blockEnd (hts : EndsInEof ts) (hi : i < ts.length) :
    b ∈ openBraces ts i ↔ b < i ∧ kindAt ts b = .leftBrace ∧ i ≤ blockEnd ts b := by
  constructor
  · intro hmem
    obtain ⟨hbi, hb, _⟩ := mem_openBraces_iff.mp hmem
    refine ⟨hbi, hb, ?_⟩
    apply Nat.le_of_not_lt
    intro hlt
    exact not_mem_openBraces hts hb hlt hi hmem
  · rintro ⟨hbi, hb, hle⟩
    obtain ⟨n, hn, _⟩ := blockFrom_openBraces hts hb hbi hle
    exact List.mem_of_getElem? hn

end Blocks

/-! ## Class headers -/

/-- No class is declared inside the list of a class header. -/
def PlainClassLists (ts : List Token) : Prop :=
  ∀ k < ts.length, (classHeaderAt ts k).isSome → kindAt ts (k + 2) = .leftParen →
    ∀ closer ∈ callClose ts (k + 2), ∀ j < closer, k + 2 < j → kindAt ts j ≠ .kwClass

instance (ts : List Token) : Decidable (PlainClassLists ts) :=
  inferInstanceAs (Decidable (∀ k < ts.length, _))

/-- The bodies of both classes are there, and that of the first opens first. -/
def ClassHeader.Precedes (h h' : ClassHeader) : Prop :=
  ∃ b b', h.body = some b ∧ h'.body = some b' ∧ b < b'

/-- The header stands in the list, and its body opens at token `b`. -/
def ClassAt (ts : List Token) (b : Nat) (h : ClassHeader) : Prop :=
  (∃ k, classHeaderAt ts k = some h) ∧ h.body = some b

section Headers

variable {ts : List Token} {b k : Nat} {h : ClassHeader}

theorem ClassAt.unique (hts : EndsInEof ts) {h' : ClassHeader} (hb : ClassAt ts b h)
    (hb' : ClassAt ts b h') : h = h' := by
  obtain ⟨⟨k, hh⟩, hbody⟩ := hb
  obtain ⟨⟨k', hh'⟩, hbody'⟩ := hb'
  obtain rfl := (leadsTo_of_classBody hts hh hbody).unique (leadsTo_of_classBody hts hh' hbody')
  exact Option.some.inj (hh.symm.trans hh')

/-- The body of a class is not that of a function or constructor. -/
theorem ClassAt.not_callable (hts : EndsInEof ts) (hb : ClassAt ts b h) :
    ¬ ∃ k < b, (callableAt ts k).bind (·.body) = some b := by
  rintro ⟨k', _, hcallable⟩
  obtain ⟨⟨k, hh⟩, hbody⟩ := hb
  obtain ⟨h', hh', hbody'⟩ := Option.bind_eq_some_iff.mp hcallable
  obtain rfl := (leadsTo_of_classBody hts hh hbody).unique (leadsTo_of_body hts hh' hbody')
  have hclass := ((classHeaderAt_eq_some_iff hts).mp hh).word_kind
  rcases (callableAt_eq_some hts hh').1 with hk | hk <;> cases hclass.symm.trans hk

/-- Where lists are plain, no class is declared between the word of a class and its body. -/
theorem PlainClassLists.ne_class (hplain : PlainClassLists ts) (hts : EndsInEof ts)
    (hh : classHeaderAt ts k = some h) (hb : h.body = some b) :
    ∀ j < b, k < j → kindAt ts j ≠ .kwClass := by
  have hr := (classHeaderAt_eq_some_iff hts).mp hh
  have hlen := hts.succ_lt_of_eq hr.word_kind nofun
  obtain ⟨rfl, _⟩ := hr.body_spec hb
  intro j hj hkj hclass
  rw [hr.last_eq] at hj
  have hname : j ≠ k + 1 := by
    rintro rfl
    cases hr.name_kind.symm.trans hclass
  unfold listEnd at hj
  split at hj
  · rename_i hopen
    split at hj
    · rename_i closer hclose
      have hopener : j ≠ k + 2 := by
        rintro rfl
        cases hopen.symm.trans hclass
      have hcloser : j ≠ closer := by
        rintro rfl
        cases (callClose_spec hopen hclose).1.symm.trans hclass
      exact hplain k (by omega) (by rw [hh]; rfl) hopen closer hclose j (by omega) (by omega) hclass
    · omega
  · omega

end Headers

/-! ## The stack of classes -/

/-- The braces of a stack, the innermost first, and the entries of the class bodies among them: the
name of the class, and the depth of the scopes with that of its body. -/
inductive ClassStack (ts : List Token) : List Nat → List (String × Nat) → Prop
  | empty : ClassStack ts [] []
  | classBody {b : Nat} {below : List Nat} {classes : List (String × Nat)} {h : ClassHeader}
      (hb : ClassAt ts b h) (hbelow : ClassStack ts below classes) :
      ClassStack ts (b :: below) ((h.name, below.length + 2) :: classes)
  | other {b : Nat} {below : List Nat} {classes : List (String × Nat)}
      (hb : ∀ h, ¬ ClassAt ts b h) (hbelow : ClassStack ts below classes) :
      ClassStack ts (b :: below) classes

namespace ClassStack

variable {ts : List Token} {braces : List Nat} {classes : List (String × Nat)}

/-- No entry is deeper than the stack. -/
theorem depth_le (h : ClassStack ts braces classes) :
    ∀ entry ∈ classes, entry.2 ≤ braces.length + 1 := by
  induction h with
  | empty =>
    intro entry hentry
    cases hentry
  | classBody _ _ ih =>
    intro entry hentry
    rcases List.mem_cons.mp hentry with rfl | hentry
    · simp
    · have := ih entry hentry
      simp only [List.length_cons]
      omega
  | other _ _ ih =>
    intro entry hentry
    have := ih entry hentry
    simp only [List.length_cons]
    omega

/-- Where the innermost brace is closed, the entry of that depth goes, if there is one. -/
theorem closed (h : ClassStack ts braces classes) :
    ClassStack ts braces.tail
      (if classes.head?.any (·.2 == braces.length + 1) then classes.tail else classes) := by
  cases h with
  | empty => exact .empty
  | classBody _ hbelow => simpa using hbelow
  | @other b below _ _ hbelow =>
    have hdeep : ∀ entry ∈ classes.head?, (entry.2 == (b :: below).length + 1) = false := by
      intro entry hentry
      have := hbelow.depth_le entry (List.mem_of_mem_head? hentry)
      rw [beq_eq_false_iff_ne]
      simp only [List.length_cons]
      omega
    have hnone : classes.head?.any (·.2 == (b :: below).length + 1) = false := by
      cases hhead : classes.head? with
      | none => rfl
      | some entry => exact hdeep entry hhead
    rw [hnone]
    exact hbelow

/-- The names in the stack are those of the classes that have their bodies in it. -/
theorem exists_headers (h : ClassStack ts braces classes) (hts : EndsInEof ts)
    (hbraces : braces.Pairwise fun inner outer => outer < inner) :
    ∃ headers : List ClassHeader, classes.map (·.1) = headers.map (·.name) ∧
      headers.Pairwise (fun inner outer => outer.Precedes inner) ∧
      ∀ header, header ∈ headers ↔ ∃ b ∈ braces, ClassAt ts b header := by
  induction h with
  | empty => exact ⟨[], rfl, .nil, by simp⟩
  | @classBody b below classes h hb hbelow ih =>
    obtain ⟨hinner, hbelow'⟩ := List.pairwise_cons.mp hbraces
    obtain ⟨headers, hnames, hordered, hmem⟩ := ih hbelow'
    refine ⟨h :: headers, by simp [hnames], List.pairwise_cons.mpr ⟨?_, hordered⟩, ?_⟩
    · intro outer houter
      obtain ⟨b', hb', hat⟩ := (hmem outer).mp houter
      exact ⟨b', b, hat.2, hb.2, hinner b' hb'⟩
    · intro header
      simp only [List.mem_cons, exists_eq_or_imp, hmem]
      refine or_congr_left ⟨?_, fun hat => hat.unique hts hb⟩
      rintro rfl
      exact hb
  | @other b below classes hb hbelow ih =>
    obtain ⟨headers, hnames, hordered, hmem⟩ := ih (List.pairwise_cons.mp hbraces).2
    refine ⟨headers, hnames, hordered, fun header => ?_⟩
    simp only [List.mem_cons, exists_eq_or_imp, hmem, hb header, false_or]

end ClassStack

/-! ## The walk -/

namespace Resolve

theorem State.Keeps.depth_eq {doc : Document} {i : Nat} {st : State} (h : st.Keeps doc i) :
    st.scopes.depth = (openBraces doc.tokens i).length + 1 := by
  have hlen := h.scopes.length_eq
  simp only [openBlocks, ScopeStack.scopes, List.length_append, List.length_map,
    List.length_singleton] at hlen
  rw [hlen, ScopeStack.depth]

/-- The state just before token `i` has the classes of the open braces, and waits for the body of a
class that is there. -/
structure State.InClasses (doc : Document) (i : Nat) (st : State) : Prop where
  classes : ClassStack doc.tokens (openBraces doc.tokens i) st.classes
  awaited : ∀ b name, st.awaitedClass = some (b, name) →
    ∃ h, ClassAt doc.tokens b h ∧ h.name = name

section Walk

variable {doc : Document} {i : Nat} {st : State}

/-- Braces alone change the stack of classes. -/
theorem State.classes_step (hl : doc.kind i ≠ .leftBrace) (hr : doc.kind i ≠ .rightBrace) :
    (st.step doc i).classes = st.classes := by
  unfold State.step
  split
  · exact absurd ‹_› hl
  · exact absurd ‹_› hr
  · rw [expectBody_eq]
  · rw [expectBody_eq]
  · rfl
  · rw [expectLoop_eq]
  · rw [declare_eq]
  · rw [declare_eq]
  · rfl

/-- A `{` and a `class` alone change the class that is waited for. -/
theorem State.awaitedClass_step (hl : doc.kind i ≠ .leftBrace) (hc : doc.kind i ≠ .kwClass) :
    (st.step doc i).awaitedClass = st.awaitedClass := by
  unfold State.step
  split
  · exact absurd ‹_› hl
  · rfl
  · rw [expectBody_eq]
  · rw [expectBody_eq]
  · exact absurd ‹_› hc
  · rw [expectLoop_eq]
  · rw [declare_eq]
  · rw [declare_eq]
  · rfl

/-- The body of a class gets an entry. -/
theorem State.InClasses.openClass (h : st.InClasses doc i) (hkeeps : st.Keeps doc i)
    (hts : EndsInEof doc.tokens) (hplain : PlainClassLists doc.tokens) {header : ClassHeader}
    (hat : ClassAt doc.tokens i header) (hl : doc.kind i = .leftBrace) :
    (st.openScope doc i).InClasses doc (i + 1) := by
  have hbody := (hkeeps.body.filter_eq_none_iff hts).mpr (hat.not_callable hts)
  obtain ⟨⟨k, hh⟩, hb⟩ := hat
  have hlt := (leadsTo_of_classBody hts hh hb).lt
  obtain ⟨name, hname⟩ := hkeeps.classBody.complete hlt (by rw [hh]; exact hb) (Nat.le_refl i)
    (hplain.ne_class hts hh hb)
  obtain ⟨header', hat', rfl⟩ := h.awaited i name hname
  have hfilter : (some (i, header'.name)).filter (·.1 == i) = some (i, header'.name) :=
    Option.filter_some_pos (by simp)
  have hopen : st.openScope doc i =
      { st with
        awaitedBody := none
        awaitedClass := none
        scopes := st.scopes.push .block
        classes := (header'.name, st.scopes.depth + 1) :: st.classes } := by
    rw [State.openScope, hbody]
    simp only [State.openBlock, hname, hfilter, ScopeStack.depth_push]
  rw [hopen]
  refine ⟨?_, fun b name hb => by cases hb⟩
  rw [openBraces_of_leftBrace hl]
  simp only [hkeeps.depth_eq]
  exact .classBody hat' h.classes

/-- Any other `{` gets none. -/
theorem State.InClasses.openOther (h : st.InClasses doc i)
    (hat : ∀ header, ¬ ClassAt doc.tokens i header) (hl : doc.kind i = .leftBrace) :
    (st.openScope doc i).InClasses doc (i + 1) := by
  have hfilter : st.awaitedClass.filter (·.1 == i) = none := by
    rw [Option.filter_eq_none_iff]
    rintro ⟨b, name⟩ hawaited hbi
    obtain rfl : b = i := by simpa using hbi
    obtain ⟨header, hheader, _⟩ := h.awaited b name hawaited
    exact hat header hheader
  have hclasses : ClassStack doc.tokens (openBraces doc.tokens (i + 1)) st.classes := by
    rw [openBraces_of_leftBrace hl]
    exact .other hat h.classes
  unfold State.openScope
  split
  · exact ⟨hclasses, h.awaited⟩
  · unfold State.openBlock
    rw [hfilter]
    simp only
    split
    · contradiction
    · exact ⟨hclasses, fun b name hb => by cases hb⟩
    · exact ⟨hclasses, fun b name hb => by cases hb⟩

/-- **One token of the walk.** -/
theorem State.InClasses.step (h : st.InClasses doc i) (hkeeps : st.Keeps doc i)
    (hts : EndsInEof doc.tokens) (hplain : PlainClassLists doc.tokens) :
    (st.step doc i).InClasses doc (i + 1) := by
  by_cases hl : doc.kind i = .leftBrace
  · have hstep : st.step doc i = st.openScope doc i := by rw [State.step, hl]
    rw [hstep]
    by_cases hat : ∃ header, ClassAt doc.tokens i header
    · obtain ⟨header, hat⟩ := hat
      exact h.openClass hkeeps hts hplain hat hl
    · exact h.openOther (not_exists.mp hat) hl
  · by_cases hr : doc.kind i = .rightBrace
    · have hstep : st.step doc i = st.closeScope := by rw [State.step, hr]
      rw [hstep]
      refine ⟨?_, h.awaited⟩
      have hclosed := h.classes.closed
      rw [← hkeeps.depth_eq] at hclosed
      rw [openBraces_of_rightBrace hr]
      exact hclosed
    · refine ⟨?_, ?_⟩
      · rw [State.classes_step hl hr, openBraces_of_ne hl hr]
        exact h.classes
      · by_cases hc : doc.kind i = .kwClass
        · have hstep : st.step doc i = st.expectClass (classHeaderAt doc.tokens i) := by
            rw [State.step, hc]
          rw [hstep]
          intro b name hawaited
          obtain ⟨header, hh, hmap⟩ := Option.bind_eq_some_iff.mp hawaited
          obtain ⟨body, hbody, hpair⟩ := Option.map_eq_some_iff.mp hmap
          obtain ⟨rfl, rfl⟩ := Prod.mk.inj hpair
          exact ⟨header, ⟨⟨i, hh⟩, hbody⟩, rfl⟩
        · rw [State.awaitedClass_step hl hc]
          exact h.awaited

end Walk

/-- The walk is inside the classes whose bodies are open. -/
theorem stateBefore_inClasses {doc : Document} (hdoc : doc.Streamed)
    (hplain : PlainClassLists doc.tokens) (i : Nat) : (stateBefore doc i).InClasses doc i := by
  induction i with
  | zero => exact ⟨.empty, fun b name hb => by cases hb⟩
  | succ i ih => exact ih.step (stateBefore_keeps hdoc i) hdoc.endsInEof hplain

/-! ## Classes around a token -/

/-- The classes whose bodies reach over token `i`, in the order of their words. -/
def classesAround (doc : Document) (i : Nat) : List ClassHeader :=
  (List.range doc.tokens.length).filterMap fun k =>
    (classHeaderAt doc.tokens k).filter fun h =>
      h.body.any fun b => decide (b < i ∧ i ≤ blockEnd doc.tokens b)

section Around

variable {doc : Document} {i : Nat}

theorem mem_classesAround (hts : EndsInEof doc.tokens) {h : ClassHeader} :
    h ∈ classesAround doc i ↔ ∃ b, (b < i ∧ i ≤ blockEnd doc.tokens b) ∧ ClassAt doc.tokens b h := by
  simp only [classesAround, List.mem_filterMap, List.mem_range, Option.filter_eq_some_iff,
    Option.any_eq_true, decide_eq_true_eq]
  constructor
  · rintro ⟨k, _, hh, b, hb, hin⟩
    exact ⟨b, hin, ⟨k, hh⟩, hb⟩
  · rintro ⟨b, hin, ⟨k, hh⟩, hb⟩
    have hlen := hts.succ_lt_of_eq ((classHeaderAt_eq_some_iff hts).mp hh).word_kind nofun
    exact ⟨k, by omega, hh, b, hb, hin⟩

/-- Bodies open in the order of the words of their classes. -/
theorem classesAround_ordered (hts : EndsInEof doc.tokens) (i : Nat) :
    (classesAround doc i).Pairwise ClassHeader.Precedes := by
  refine List.pairwise_filterMap.mpr (List.pairwise_lt_range.imp fun {k k'} hlt h hh h' hh' => ?_)
  obtain ⟨hheader, hany⟩ := Option.filter_eq_some_iff.mp hh
  obtain ⟨hheader', hany'⟩ := Option.filter_eq_some_iff.mp hh'
  obtain ⟨b, hb, _⟩ := (Option.any_eq_true _ _).mp hany
  obtain ⟨b', hb', _⟩ := (Option.any_eq_true _ _).mp hany'
  have hleads := leadsTo_of_classBody hts hheader hb
  have hleads' := leadsTo_of_classBody hts hheader' hb'
  refine ⟨b, b', hb, hb', ?_⟩
  rcases Nat.lt_trichotomy b b' with hbb | rfl | hbb
  · exact hbb
  · exact absurd hlt (hleads.not_lt hleads')
  · have := hleads'.lt
    exact absurd hleads'.brace (hleads.firstBrace.2.2 b' hbb (by omega))

/-- **The stack names the classes around a token**, the innermost first. -/
theorem names_eq_classesAround (hdoc : doc.Streamed) (hplain : PlainClassLists doc.tokens)
    (hi : i < doc.tokens.length) :
    (stateBefore doc i).classes.map (·.1) = ((classesAround doc i).map (·.name)).reverse := by
  have hts := hdoc.endsInEof
  obtain ⟨headers, hnames, hordered, hmem⟩ :=
    (stateBefore_inClasses hdoc hplain i).classes.exists_headers hts
      (openBraces_pairwise doc.tokens i)
  have hne : ∀ h h' : ClassHeader, h.Precedes h' → h ≠ h' := by
    rintro h _ ⟨b, b', hb, hb', hlt⟩ rfl
    have := Option.some.inj (hb.symm.trans hb')
    omega
  have hsame : ∀ h, h ∈ headers.reverse ↔ h ∈ classesAround doc i := by
    intro h
    rw [List.mem_reverse, hmem, mem_classesAround hts]
    refine exists_congr fun b => and_congr_left fun hat => ?_
    obtain ⟨⟨k, hh⟩, hb⟩ := hat
    rw [mem_openBraces_iff_le_blockEnd hts hi,
      and_iff_right (leadsTo_of_classBody hts hh hb).brace]
  have hheaders : headers.reverse = classesAround doc i := by
    have hreversed := List.pairwise_reverse.mpr hordered
    have haround := classesAround_ordered hts i
    refine List.Perm.eq_of_pairwise ?_ hreversed haround ?_
    · rintro h h' _ _ ⟨b, b', hb, hb', hlt⟩ ⟨c', c, hc', hc, hlt'⟩
      have := Option.some.inj (hb.symm.trans hc)
      have := Option.some.inj (hb'.symm.trans hc')
      omega
    · exact (List.perm_ext_iff_of_nodup (hreversed.imp (hne _ _)) (haround.imp (hne _ _))).mpr hsame
  rw [hnames, ← hheaders, List.map_reverse, List.reverse_reverse]

end Around

/-- **Calls are looked up in the innermost class around them.** In front of every token the depth of
the scopes is that of the braces, and the stack of classes names the classes around the token in the
order of their bodies. So a name that is no function is looked up in the last of these first. -/
theorem lookup_in_innermost_class (uri text : String) (i : Nat)
    (hplain : PlainClassLists (Document.ofText uri text).tokens)
    (hi : i < (Document.ofText uri text).tokens.length) :
    let doc := Document.ofText uri text
    (stateBefore doc i).scopes.depth = 1 + nesting doc.tokens i ∧
      (stateBefore doc i).classes.map (·.1) = ((classesAround doc i).map (·.name)).reverse ∧
      (classesAround doc i).Pairwise ClassHeader.Precedes ∧
      ∀ (symbols : SymbolTable) (name : String), symbols.function? name = none →
        lookupCallable symbols (stateBefore doc i) name =
          (((classesAround doc i).getLast?.bind fun h =>
            (symbols.class? h.name).bind (·.method? name)) <|> symbols.method? name) := by
  intro doc
  have hdoc : doc.Streamed := Document.streamed_ofText uri text
  have hnames := names_eq_classesAround hdoc hplain hi
  refine ⟨?_, hnames, classesAround_ordered hdoc.endsInEof i, ?_⟩
  · rw [(stateBefore_keeps hdoc i).depth_eq, length_openBraces, Nat.add_comm]
  · intro symbols name hfunction
    have hhead : (stateBefore doc i).classes.head?.map (·.1) =
        (classesAround doc i).getLast?.map (·.name) := by
      rw [← List.head?_map, hnames, List.head?_reverse, List.getLast?_map]
    rw [lookupCallable, hfunction]
    cases hclass : (stateBefore doc i).classes.head? with
    | none =>
      rw [hclass] at hhead
      rw [Option.map_eq_none_iff.mp hhead.symm]
      rfl
    | some entry =>
      rw [hclass] at hhead
      obtain ⟨h, hlast, hname⟩ := Option.map_eq_some_iff.mp hhead.symm
      rw [hlast]
      simp only [Option.bind_some, hname]
      rfl

/-- A class inside the method of another one, behind a `}` too many: both are around the call, and
the inner one has no such method. -/
theorem lookup_in_innermost_class_nested :
    let doc := Document.ofText "m"
      "\x7d class A(x) \x7b fn f() \x7b class B \x7b fn g() \x7b f() \x7d \x7d \x7d \x7d"
    PlainClassLists doc.tokens ∧ 20 < doc.tokens.length ∧
      (stateBefore doc 20).scopes.depth = 1 + nesting doc.tokens 20 ∧
      (stateBefore doc 20).classes.map (·.1) = ["B", "A"] := by
  intro doc
  have hplain : PlainClassLists doc.tokens := by decide +kernel
  have hi : 20 < doc.tokens.length := by decide +kernel
  obtain ⟨hdepth, hnames, _⟩ := lookup_in_innermost_class "m" _ 20 hplain hi
  exact ⟨hplain, hi, hdepth, hnames.trans (by decide +kernel)⟩

end Resolve

end AuroraLint
