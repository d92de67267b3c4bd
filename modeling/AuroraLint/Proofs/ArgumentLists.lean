import AuroraLint.Proofs.Header

/-!
# Lists in parentheses

Lists of parameters and arguments that have no brackets and no commas of their own.

* `Kind.isItemPart` : the tokens that such items are made of.
* `Joined`          : groups of tokens with a comma between any two.

Main statements: `callClose_list` — the list closes where it is written to close;
`Joined.splitArguments_list` — it is split into the groups it was joined from;
`FnHeader.namedAt_list` — the header of a function with such a list of parameters.
-/

set_option autoImplicit false

namespace AuroraLint

theorem tokenAt_append_right (front ts : List Token) (j : Nat) :
    tokenAt (front ++ ts) (front.length + j) = tokenAt ts j := by
  simp [tokenAt, List.getD, List.getElem?_append_right]

theorem kindAt_append_right (front ts : List Token) (j : Nat) :
    kindAt (front ++ ts) (front.length + j) = kindAt ts j :=
  congrArg Token.kind (tokenAt_append_right front ts j)

/-- Neither opens, closes, breaks nor separates a list. -/
def Kind.isItemPart (k : Kind) : Bool :=
  !k.opensList && !k.closesList && !k.breaksList && k != .comma

/-- The tokens of a list: those of its items, and commas. -/
def Kind.isListPart (k : Kind) : Bool :=
  k.isItemPart || k == .comma

theorem Kind.of_isItemPart {k : Kind} (h : k.isItemPart = true) :
    k.opensList = false ∧ k.closesList = false ∧ k.breaksList = false ∧ k ≠ .comma := by
  simpa [Kind.isItemPart, and_assoc] using h

theorem Kind.of_isListPart {k : Kind} (h : k.isListPart = true) :
    k.opensList = false ∧ k.closesList = false ∧ k.breaksList = false := by
  rcases (Bool.or_eq_true ..).mp h with hitem | hcomma
  · obtain ⟨hopens, hcloses, hbreaks, _⟩ := Kind.of_isItemPart hitem
    exact ⟨hopens, hcloses, hbreaks⟩
  · rw [beq_iff_eq.mp hcomma]
    exact ⟨rfl, rfl, rfl⟩

/-! ## Where a list closes -/

section Closing

variable {args : List Token} {opener closer : Token}

theorem closeFrom_list (hargs : ∀ t ∈ args, t.kind.isListPart = true)
    (hcloser : closer.kind = .rightParen) (i : Nat) (behind : List Token) :
    closeFrom 1 i (args ++ closer :: behind) = some (i + args.length) := by
  induction args generalizing i with
  | nil => simp [closeFrom, hcloser, Kind.opensList, Kind.closesList]
  | cons t args ih =>
    have hrest := ih (fun u hu => hargs u (List.mem_cons_of_mem _ hu)) (i + 1)
    obtain ⟨hopens, hcloses, hbreaks⟩ := Kind.of_isListPart (hargs t List.mem_cons_self)
    rw [List.cons_append, closeFrom, hopens, hcloses, hbreaks, List.length_cons]
    simp only [Bool.false_eq_true, if_false, hrest, Option.some.injEq]
    omega

/-- **A list closes right behind its items.** -/
theorem callClose_list (front behind : List Token) (hopener : opener.kind = .leftParen)
    (hargs : ∀ t ∈ args, t.kind.isListPart = true) (hcloser : closer.kind = .rightParen) :
    callClose (front ++ opener :: (args ++ closer :: behind)) front.length =
      some (front.length + 1 + args.length) := by
  rw [callClose, List.drop_left' rfl, closeFrom, hopener]
  exact closeFrom_list hargs hcloser _ _

end Closing

/-! ## How a list is split -/

/-- Groups of tokens with a comma between any two. -/
inductive Joined : List (List Token) → List Token → Prop
  | nil : Joined [] []
  | one (group : List Token) : Joined [group] group
  | more (group : List Token) {next : List Token} {groups : List (List Token)} {comma : Token}
      {ts : List Token} (hcomma : comma.kind = .comma) (hrest : Joined (next :: groups) ts) :
      Joined (group :: next :: groups) (group ++ comma :: ts)

/-- A group passes by without a split. -/
theorem splitFrom_group {group : List Token} (h : ∀ t ∈ group, t.kind.isItemPart = true)
    (start i : Nat) (rest : List Token) :
    splitFrom 0 start i (group ++ rest) = splitFrom 0 start (i + group.length) rest := by
  induction group generalizing i with
  | nil => rfl
  | cons t group ih =>
    have hrest := ih (fun u hu => h u (List.mem_cons_of_mem _ hu)) (i + 1)
    obtain ⟨hopens, hcloses, _, hcomma⟩ := Kind.of_isItemPart (h t List.mem_cons_self)
    rw [List.cons_append, splitFrom, hopens, hcloses, List.length_cons]
    simp only [Bool.false_eq_true, if_false, hcomma, false_and, hrest]
    rw [show i + 1 + group.length = i + (group.length + 1) by omega]

namespace Joined

variable {groups : List (List Token)} {args ts : List Token}

/-- What is true of commas and of the groups is true of the list. -/
theorem forall_kind (h : Joined groups args) {p : Kind → Bool} (hcomma : p .comma = true)
    (hgroups : ∀ g ∈ groups, ∀ t ∈ g, p t.kind = true) : ∀ t ∈ args, p t.kind = true := by
  induction h with
  | nil => exact List.forall_mem_nil _
  | one group => exact hgroups group List.mem_cons_self
  | @more group next groups comma ts hkind _ ih =>
    obtain ⟨hgroup, hothers⟩ := List.forall_mem_cons.mp hgroups
    refine List.forall_mem_append.mpr ⟨hgroup, List.forall_mem_cons.mpr ⟨?_, ih hothers⟩⟩
    rw [hkind]
    exact hcomma

theorem isListPart (h : Joined groups args)
    (hgroups : ∀ g ∈ groups, ∀ t ∈ g, t.kind.isItemPart = true) :
    ∀ t ∈ args, t.kind.isListPart = true :=
  h.forall_kind rfl fun g hg t ht => (Bool.or_eq_true ..).mpr (.inl (hgroups g hg t ht))

/-- The segments between the commas hold the groups. -/
theorem splitFrom_eq (h : Joined groups args)
    (hgroups : ∀ g ∈ groups, g ≠ [] ∧ ∀ t ∈ g, t.kind.isItemPart = true) {i : Nat}
    (hargs : args <+: ts.drop i) : (splitFrom 0 i i args).map (·.tokens ts) = groups := by
  have hsegment : ∀ (group rest : List Token) (i : Nat), group ≠ [] → group ++ rest <+: ts.drop i →
      (segment i (i + group.length)).map (·.tokens ts) = [group] := by
    intro group rest i hne hpre
    have hpos := List.length_pos_iff.mpr hne
    obtain ⟨behind, hbehind⟩ := hpre
    rw [segment, if_pos (by omega)]
    simp [Extent.tokens, ← hbehind]
  induction h generalizing i with
  | nil => simp [splitFrom, segment]
  | one group =>
    obtain ⟨hne, hplain⟩ := hgroups group List.mem_cons_self
    have hsplit := splitFrom_group hplain i i []
    rw [List.append_nil] at hsplit
    rw [hsplit, splitFrom]
    exact hsegment group [] i hne (by rwa [List.append_nil])
  | @more group next groups comma args hcomma hrest ih =>
    obtain ⟨hne, hplain⟩ := hgroups group List.mem_cons_self
    have hnext : args <+: ts.drop (i + group.length + 1) := by
      obtain ⟨behind, hbehind⟩ := hargs
      refine ⟨behind, ?_⟩
      rw [Nat.add_assoc, ← List.drop_drop, ← hbehind, List.append_assoc, List.drop_append]
      simp
    rw [splitFrom_group hplain, splitFrom]
    simp only [hcomma, Kind.opensList, Kind.closesList, Bool.false_eq_true, if_false, and_self,
      if_true, List.map_append, hsegment group _ i hne hargs,
      ih (fun g hg => hgroups g (List.mem_cons_of_mem _ hg)) hnext, List.singleton_append]

/-- **A list is split into the groups it was joined from.** -/
theorem splitArguments_list (h : Joined groups args)
    (hgroups : ∀ g ∈ groups, g ≠ [] ∧ ∀ t ∈ g, t.kind.isItemPart = true)
    (front behind : List Token) (opener : Token)
    (hts : ts = front ++ opener :: (args ++ behind)) :
    (splitArguments ts front.length (front.length + 1 + args.length)).map (·.tokens ts) =
      groups := by
  have hdrop : ts.drop (front.length + 1) = args ++ behind := by
    rw [hts, List.drop_append]
    simp
  rw [splitArguments, hdrop, Nat.add_sub_cancel_left, List.take_left' rfl]
  exact h.splitFrom_eq hgroups ⟨behind, hdrop.symm⟩

/-- The parameters of a list are those that its groups are. -/
theorem params_list (h : Joined groups args)
    (hgroups : ∀ g ∈ groups, g ≠ [] ∧ ∀ t ∈ g, t.kind.isItemPart = true)
    (front behind : List Token) (opener : Token)
    (hts : ts = front ++ opener :: (args ++ behind)) :
    params ts front.length (front.length + 1 + args.length) =
      groups.filterMap Param.ofTokens? := by
  rw [← h.splitArguments_list hgroups front behind opener hts, List.filterMap_map]
  rfl

end Joined

/-! ## Headers -/

/-- **The header of a function with such a list of parameters**, up to the annotation of its return
type. -/
theorem FnHeader.namedAt_list {ts front args behind : List Token} {word name opener closer : Token}
    (hts : ts = front ++ word :: name :: opener :: (args ++ closer :: behind))
    (hname : name.kind = .identifier) (hopener : opener.kind = .leftParen)
    (hargs : ∀ t ∈ args, t.kind.isListPart = true) (hcloser : closer.kind = .rightParen)
    {returnType : Option TypeRef} {last : Nat}
    (hreturn : annotationAt .arrow ts (front.length + 3 + args.length + 1) =
      (returnType, last + 1)) :
    FnHeader.NamedAt ts front.length word.kind
      ⟨front.length, name.lexeme, name.span,
        AuroraLint.params ts (front.length + 2) (front.length + 3 + args.length), returnType, last,
        bodyAfter ts last, word.span.merge (tokenAt ts last).span⟩ := by
  have htoken : ∀ j, tokenAt ts (front.length + j) =
      tokenAt (word :: name :: opener :: (args ++ closer :: behind)) j :=
    fun j => by rw [hts, tokenAt_append_right]
  have hclose : callClose ts (front.length + 2) = some (front.length + 3 + args.length) := by
    have hsplit : ts = (front ++ [word, name]) ++ opener :: (args ++ closer :: behind) := by
      rw [hts, List.append_assoc]
      rfl
    have := callClose_list (front ++ [word, name]) behind hopener hargs hcloser
    rw [← hsplit] at this
    simpa [Nat.add_assoc] using this
  have hword : tokenAt ts front.length = word := htoken 0
  have hname' : tokenAt ts (front.length + 1) = name := htoken 1
  have hopener' : tokenAt ts (front.length + 2) = opener := htoken 2
  refine ⟨congrArg Token.kind hword, ?_, ?_, ?_, rfl, ?_, ⟨_, hclose, rfl, hreturn⟩, rfl, ?_⟩
  · rw [kindAt, hname', hname]
  · rw [hname']
  · rw [hname']
  · rw [kindAt, hopener', hopener]
  · rw [hword]

end AuroraLint
