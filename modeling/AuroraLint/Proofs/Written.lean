import AuroraLint.Proofs.ArgumentLists
import AuroraLint.Proofs.Words
import AuroraLint.Symbols.Collect
import Mathlib.Data.List.Forall2

/-!
# Headers as they are written

Headers of functions by their parts, the text that spells them, and what is read from it.

* `Written.Name`, `Written.Annotation`, `Written.Param`, `Written.Header` : the parts.
* `Written.Header.text`   : the text `NAME(p: T, q) -> R`.
* `Written.Header.shapes` : the kinds and lexemes of its tokens.
* `Written.Header.ReadAs` : a header that was read agrees with one that was written.

Main statements: `Written.Header.lexes` — the text is lexed as these tokens;
`Written.Header.exists_named` — they are read as a header that agrees with it.
-/

set_option autoImplicit false

namespace AuroraLint

namespace Written

/-! ## The parts of a header -/

/-- A name of a function, a parameter or a type. -/
structure Name where
  word : String
  isIdentifier : AuroraLint.isIdentifier word = true
  deriving DecidableEq, Repr

/-- A type behind a mark: `T` or `T?`. -/
structure Annotation where
  name : Name
  isOptional : Bool
  deriving DecidableEq, Repr

/-- A parameter: `p` or `p: T`. -/
structure Param where
  name : Name
  annotation : Option Annotation
  deriving DecidableEq, Repr

/-- The header of a function but for its first word. -/
structure Header where
  name : Name
  params : List Param
  returns : Option Annotation
  deriving DecidableEq, Repr

namespace Annotation

/-- The type as it is written. -/
def text (a : Annotation) : String :=
  a.name.word ++ if a.isOptional then "?" else ""

/-- The type that it stands for. -/
def type (a : Annotation) : Ty :=
  Ty.ofName a.text

/-- The kinds and lexemes of its tokens. -/
def shapes (a : Annotation) : List (Kind × String) :=
  (.identifier, a.name.word) :: if a.isOptional then [(.question, "?")] else []

theorem lexes (a : Annotation) : Lexer.Lexes a.text.toList a.shapes := by
  have hname := Lexer.Lexes.identifier a.name.isIdentifier
  cases h : a.isOptional with
  | false => simpa [text, shapes, h] using hname
  | true =>
    have hmark := Lexer.Lexes.mark '?' [] .question (by decide) .nil
    simpa [text, shapes, h, String.toList_append] using
      hname.append (Lexeme.apart_cons (by decide) _) hmark

end Annotation

namespace Param

/-- The parameter as it is written. -/
def text (p : Param) : String :=
  p.name.word ++ p.annotation.elim "" fun a => ": " ++ a.text

/-- Its type, which is `double` without annotation. -/
def type (p : Param) : Ty :=
  p.annotation.elim .double Annotation.type

/-- The parameter that is declared. -/
def declared (p : Param) : Parameter :=
  ⟨p.name.word, p.type⟩

def shapes (p : Param) : List (Kind × String) :=
  (.identifier, p.name.word) :: p.annotation.elim [] fun a => (.colon, ":") :: a.shapes

theorem lexes (p : Param) : Lexer.Lexes p.text.toList p.shapes := by
  have hname := Lexer.Lexes.identifier p.name.isIdentifier
  cases h : p.annotation with
  | none => simpa [text, shapes, h] using hname
  | some a =>
    have htype := Lexer.Lexes.mark ':' [] .colon (by decide)
      (Lexer.Lexes.blank ' ' (by decide) a.lexes)
    simpa [text, shapes, h, String.toList_append] using
      hname.append (Lexeme.apart_cons (by decide) _) htype

end Param

namespace Header

/-- The annotation of the return type, with its mark. -/
def returnText (h : Header) : String :=
  h.returns.elim "" fun a => " -> " ++ a.text

/-- The header as it is written. -/
def text (h : Header) : String :=
  h.name.word ++ "(" ++ ", ".intercalate (h.params.map Param.text) ++ ")" ++ h.returnText

/-- The return type; `fallback` where none is written. -/
def returnType (h : Header) (fallback : Ty) : Ty :=
  h.returns.elim fallback Annotation.type

def returnShapes (h : Header) : List (Kind × String) :=
  h.returns.elim [] fun a => (.arrow, "->") :: a.shapes

def listShapes (h : Header) : List (Kind × String) :=
  List.intercalate [(.comma, ",")] (h.params.map Param.shapes)

def shapes (h : Header) : List (Kind × String) :=
  (.identifier, h.name.word) :: (.leftParen, "(") ::
    (h.listShapes ++ (.rightParen, ")") :: h.returnShapes)

theorem returnText_lexes (h : Header) :
    Lexer.Lexes h.returnText.toList h.returnShapes ∧ Lexeme.Apart h.returnText.toList := by
  unfold returnText returnShapes
  cases h.returns with
  | none => exact ⟨.nil, Lexeme.apart_nil⟩
  | some a =>
    have hmark := Lexer.Lexes.mark '-' ['>'] .arrow (by decide)
      (Lexer.Lexes.blank ' ' (by decide) a.lexes)
    have htext : (" -> " ++ a.text).toList = ' ' :: ('-' :: '>' :: ' ' :: a.text.toList) := by
      simp [String.toList_append]
    rw [Option.elim_some, Option.elim_some, htext]
    exact ⟨Lexer.Lexes.blank ' ' (by decide) hmark, Lexeme.apart_cons (by decide) _⟩

/-- **The text is lexed as these tokens.** -/
theorem lexes (h : Header) : Lexer.Lexes h.text.toList h.shapes := by
  obtain ⟨hreturns, _⟩ := h.returnText_lexes
  have hclose := Lexer.Lexes.mark ')' [] .rightParen (by decide) hreturns
  have hlist := (Lexer.Lexes.intercalate fun p (_ : p ∈ h.params) => p.lexes).append
    (Lexeme.apart_cons (by decide) _) hclose
  have hname := (Lexer.Lexes.identifier h.name.isIdentifier).append
    (Lexeme.apart_cons (by decide) _) (Lexer.Lexes.mark '(' [] .leftParen (by decide) hlist)
  simpa [text, shapes, listShapes, String.toList_append, String.toList_intercalate,
    Function.comp_def] using hname

/-- The first word and the header, at the start of a document that goes on behind them. -/
theorem exists_lexed (h : Header) {word file : String} {k : Kind} {more rest : List Char}
    {tokens : List Token} (hword : (word, k) ∈ Kind.keywords)
    (hmore : Lexer.Lexed file (word ++ " " ++ h.text).toList more rest tokens)
    (happart : Lexeme.Apart (more ++ rest)) :
    ∃ inner, Lexer.Lexed file [] ((word ++ " " ++ h.text).toList ++ more) rest
        (Lexer.spelled file [] k word.toList :: (inner ++ tokens)) ∧
      inner.map Token.shape = h.shapes := by
  have htext : (word ++ " " ++ h.text).toList = word.toList ++ ' ' :: h.text.toList := by
    simp [String.toList_append]
  have hblank : Lexer.Lexes (' ' :: h.text.toList) h.shapes := h.lexes.blank ' ' (by decide)
  obtain ⟨inner, hinner, hshapes⟩ := hblank file ([] ++ word.toList) (more ++ rest) happart
  have hhead := (Lexer.Lexed.keyword hword (Lexeme.apart_cons (by decide) _) file []).append hinner
  rw [htext] at hmore ⊢
  exact ⟨inner, hhead.append hmore, hshapes⟩

end Header

/-! ## What is read -/

/-- The groups of a list whose items have these shapes. -/
theorem exists_joined {α : Type} {shapes : α → List (Kind × String)} {items : List α}
    {args : List Token}
    (h : args.map Token.shape = List.intercalate [(.comma, ",")] (items.map shapes)) :
    ∃ groups, Joined groups args ∧
      List.Forall₂ (fun a g => g.map Token.shape = shapes a) items groups := by
  induction items generalizing args with
  | nil =>
    obtain rfl : args = [] := List.map_eq_nil_iff.mp h
    exact ⟨[], .nil, .nil⟩
  | cons a items ih =>
    cases items with
    | nil =>
      have hone : args.map Token.shape = shapes a := by simpa [List.intercalate] using h
      exact ⟨[args], .one args, .cons hone .nil⟩
    | cons b items =>
      rw [List.map_cons, List.map_cons, List.intercalate_cons_cons, List.append_assoc] at h
      obtain ⟨group, rest, rfl, hgroup, hrest⟩ := List.map_eq_append_iff.mp h
      obtain ⟨comma, args, rfl, hcomma, hargs⟩ := List.map_eq_cons_iff.mp hrest
      obtain ⟨groups, hjoined, hgroups⟩ := ih hargs
      cases hgroups with
      | cons hnext hmore =>
        exact ⟨_, .more group (congrArg Prod.fst hcomma) hjoined, .cons hgroup (.cons hnext hmore)⟩

variable {ts front group behind : List Token}

namespace Annotation

theorem exists_typeRef (a : Annotation) (hgroup : group.map Token.shape = a.shapes)
    (hts : ts = front ++ (group ++ behind)) (hbehind : kindAt behind 0 ≠ .question) :
    ∃ t : TypeRef, typeRefAt ts front.length = (some t, front.length + group.length) ∧
      t.text = a.text := by
  have htoken : ∀ j, tokenAt ts (front.length + j) = tokenAt (group ++ behind) j :=
    fun j => by rw [hts, tokenAt_append_right]
  obtain ⟨name, marks, rfl, hname, hmarks⟩ := List.map_eq_cons_iff.mp hgroup
  obtain ⟨hkind, hlexeme⟩ := Prod.mk.inj hname
  have hfirst : tokenAt ts front.length = name := htoken 0
  have hid : kindAt ts front.length = .identifier := (congrArg Token.kind hfirst).trans hkind
  unfold typeRefAt
  rw [if_pos hid, hfirst]
  cases ha : a.isOptional with
  | false =>
    rw [ha] at hmarks
    obtain rfl : marks = [] := List.map_eq_nil_iff.mp hmarks
    have hnext : kindAt ts (front.length + 1) ≠ .question := by
      rw [kindAt, htoken 1]
      exact hbehind
    rw [if_neg hnext]
    exact ⟨_, rfl, by simp [text, ha, hlexeme]⟩
  | true =>
    rw [ha, if_pos rfl] at hmarks
    obtain ⟨mark, rfl, hmark⟩ := List.map_eq_singleton_iff.mp hmarks
    have hnext : kindAt ts (front.length + 1) = .question :=
      (congrArg Token.kind (htoken 1)).trans (congrArg Prod.fst hmark)
    rw [if_pos hnext]
    exact ⟨_, rfl, by simp [text, ha, hlexeme]⟩

end Annotation

namespace Param

/-- A group of such tokens is a parameter. -/
theorem exists_ofTokens (p : Param) (hgroup : group.map Token.shape = p.shapes) :
    ∃ q, AuroraLint.Param.ofTokens? group = some q ∧ q.toParameter = p.declared := by
  obtain ⟨name, more, rfl, hname, hmore⟩ := List.map_eq_cons_iff.mp hgroup
  obtain ⟨hkind, hlexeme⟩ := Prod.mk.inj hname
  cases hp : p.annotation with
  | none =>
    rw [hp] at hmore
    obtain rfl : more = [] := List.map_eq_nil_iff.mp hmore
    refine ⟨_, if_pos hkind, ?_⟩
    simp [Param.toParameter, declared, type, hp, hlexeme, TypeRef.typeOr]
  | some a =>
    rw [hp] at hmore
    obtain ⟨colon, types, rfl, hcolon, htypes⟩ := List.map_eq_cons_iff.mp hmore
    obtain ⟨t, marks, rfl, ht, hmarks⟩ := List.map_eq_cons_iff.mp htypes
    obtain ⟨htkind, htlexeme⟩ := Prod.mk.inj ht
    have hcolon : colon.kind = .colon := congrArg Prod.fst hcolon
    cases ha : a.isOptional with
    | false =>
      rw [ha] at hmarks
      obtain rfl : marks = [] := List.map_eq_nil_iff.mp hmarks
      refine ⟨_, if_pos ⟨hkind, hcolon, htkind⟩, ?_⟩
      simp [Param.toParameter, declared, type, hp, hlexeme, htlexeme, TypeRef.typeOr,
        Annotation.type, Annotation.text, ha]
    | true =>
      rw [ha, if_pos rfl] at hmarks
      obtain ⟨mark, rfl, hmark⟩ := List.map_eq_singleton_iff.mp hmarks
      refine ⟨_, if_pos ⟨hkind, hcolon, htkind, congrArg Prod.fst hmark⟩, ?_⟩
      simp [Param.toParameter, declared, type, hp, hlexeme, htlexeme, TypeRef.typeOr,
        Annotation.type, Annotation.text, ha]

theorem isItemPart_of_shapes (p : Param) (hgroup : group.map Token.shape = p.shapes) :
    group ≠ [] ∧ ∀ t ∈ group, t.kind.isItemPart = true := by
  have hshapes : ∀ s ∈ p.shapes, s.1.isItemPart = true := by
    unfold shapes Annotation.shapes
    cases p.annotation with
    | none => simp [Kind.isItemPart, Kind.opensList, Kind.closesList, Kind.breaksList]
    | some a =>
      cases a.isOptional <;>
        simp [Kind.isItemPart, Kind.opensList, Kind.closesList, Kind.breaksList]
  refine ⟨?_, fun t ht => ?_⟩
  · rintro rfl
    cases hgroup
  · exact hshapes t.shape (hgroup ▸ List.mem_map_of_mem ht)

end Param

namespace Header

/-- The parameters are read as they are written. -/
theorem params_of_groups {params : List Param} {groups : List (List Token)}
    (h : List.Forall₂ (fun p g => g.map Token.shape = p.shapes) params groups) :
    (∀ g ∈ groups, g ≠ [] ∧ ∀ t ∈ g, t.kind.isItemPart = true) ∧
      (groups.filterMap AuroraLint.Param.ofTokens?).map AuroraLint.Param.toParameter =
        params.map Param.declared := by
  induction h with
  | nil => exact ⟨nofun, rfl⟩
  | @cons p g params groups hp _ ih =>
    obtain ⟨hgroups, hparams⟩ := ih
    obtain ⟨q, hq, hdeclared⟩ := p.exists_ofTokens hp
    refine ⟨List.forall_mem_cons.mpr ⟨p.isItemPart_of_shapes hp, hgroups⟩, ?_⟩
    rw [List.filterMap_cons_some hq, List.map_cons, List.map_cons, hparams, hdeclared]

/-- The annotation of the return type is read as it is written. -/
theorem exists_annotation (h : Header) (hgroup : group.map Token.shape = h.returnShapes)
    (hts : ts = front ++ (group ++ behind))
    (hbehind : kindAt behind 0 ≠ .arrow ∧ kindAt behind 0 ≠ .question) :
    ∃ returnType : Option TypeRef,
      annotationAt .arrow ts front.length = (returnType, front.length + group.length) ∧
      ∀ fallback, TypeRef.typeOr returnType fallback = h.returnType fallback := by
  have htoken : ∀ j, tokenAt ts (front.length + j) = tokenAt (group ++ behind) j :=
    fun j => by rw [hts, tokenAt_append_right]
  unfold returnShapes at hgroup
  unfold annotationAt returnType
  cases hr : h.returns with
  | none =>
    rw [hr] at hgroup
    obtain rfl : group = [] := List.map_eq_nil_iff.mp hgroup
    have hfirst : kindAt ts front.length ≠ .arrow := by
      rw [kindAt, show tokenAt ts front.length = _ from htoken 0]
      exact hbehind.1
    rw [if_neg hfirst]
    exact ⟨none, rfl, fun _ => rfl⟩
  | some a =>
    rw [hr] at hgroup
    obtain ⟨arrow, group, rfl, harrow, hgroup⟩ := List.map_eq_cons_iff.mp hgroup
    have hfirst : kindAt ts front.length = .arrow :=
      (congrArg Token.kind (htoken 0)).trans (congrArg Prod.fst harrow)
    have hts' : ts = (front ++ [arrow]) ++ (group ++ behind) := by
      rw [hts, List.append_assoc]
      rfl
    obtain ⟨t, ht, htext⟩ := a.exists_typeRef hgroup hts' hbehind.2
    rw [List.length_append, List.length_singleton] at ht
    rw [if_pos hfirst, ht, List.length_cons]
    refine ⟨some t, by rw [Nat.add_assoc, Nat.add_comm 1], fun fallback => ?_⟩
    simp [TypeRef.typeOr, htext, Annotation.type]

/-- What was read has the name, the parameters and the return type that were written. -/
structure ReadAs (h : Header) (header : FnHeader) : Prop where
  name_eq : header.name = h.name.word
  params_eq : header.params.map AuroraLint.Param.toParameter = h.params.map Param.declared
  returnType_eq : ∀ fallback, TypeRef.typeOr header.returnType fallback = h.returnType fallback

/-- **The tokens are read as a header** that agrees with what was written and reaches over all of
them. -/
theorem exists_named (h : Header) (front : List Token) {word : Token} {inner : List Token}
    (hinner : inner.map Token.shape = h.shapes) (hts : ts = front ++ word :: (inner ++ behind))
    (hbehind : kindAt behind 0 ≠ .arrow ∧ kindAt behind 0 ≠ .question) :
    ∃ header : FnHeader, header.NamedAt ts front.length word.kind ∧ h.ReadAs header ∧
      header.last = front.length + inner.length := by
  obtain ⟨name, inner, rfl, hname, hinner⟩ := List.map_eq_cons_iff.mp hinner
  obtain ⟨opener, inner, rfl, hopener, hinner⟩ := List.map_eq_cons_iff.mp hinner
  obtain ⟨args, inner, rfl, hargs, hinner⟩ := List.map_eq_append_iff.mp hinner
  obtain ⟨closer, returns, rfl, hcloser, hreturns⟩ := List.map_eq_cons_iff.mp hinner
  obtain ⟨hkind, hlexeme⟩ := Prod.mk.inj hname
  obtain ⟨groups, hjoined, hgroups⟩ := exists_joined hargs
  obtain ⟨hparts, hparams⟩ := params_of_groups hgroups
  have hall : ts = front ++ word :: name :: opener :: (args ++ closer :: (returns ++ behind)) := by
    rw [hts]
    simp
  have hsplit : ts = (front ++ word :: name :: opener :: (args ++ [closer])) ++
      (returns ++ behind) := by
    rw [hall]
    simp
  have hlist : ts = (front ++ [word, name]) ++
      opener :: (args ++ (closer :: (returns ++ behind))) := by
    rw [hall]
    simp
  obtain ⟨returnType, hannotation, htype⟩ := h.exists_annotation hreturns hsplit hbehind
  have hlast : (front ++ word :: name :: opener :: (args ++ [closer])).length + returns.length =
      (front.length + 3 + args.length + returns.length) + 1 := by
    simp only [List.length_append, List.length_cons, List.length_nil]
    omega
  have hafter : (front ++ word :: name :: opener :: (args ++ [closer])).length =
      front.length + 3 + args.length + 1 := by
    simp only [List.length_append, List.length_cons, List.length_nil]
    omega
  rw [hlast, hafter] at hannotation
  have hnamed := FnHeader.namedAt_list hall hkind (congrArg Prod.fst hopener)
    (hjoined.isListPart fun g hg => (hparts g hg).2) (congrArg Prod.fst hcloser) hannotation
  refine ⟨_, hnamed, ⟨hlexeme, ?_, htype⟩, ?_⟩
  · have hread := hjoined.params_list hparts (front ++ [word, name]) _ opener hlist
    rw [List.length_append, List.length_cons, List.length_singleton] at hread
    rw [← hparams, ← hread]
  · simp only [List.length_append, List.length_cons]
    omega

end Header

end Written

end AuroraLint
