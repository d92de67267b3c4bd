import AuroraLint.Proofs.Forms
import AuroraLint.Proofs.Located.Resolve
import AuroraLint.Proofs.Members

/-!
# Types and their names

A type is what its written name stands for, unless it is a class with a name that means something
else: a class of the name `int` is written as the number type is.

* `Ty.baseName?`          : the name of a class behind the `?` of a type.
* `Ty.Canonical`          : the types that their names stand for.
* `SymbolTable.Canonical` : a table with such types only, but for the constructors of a class that
  is named like a built-in type.

Main statements: `Ty.render_ofName` and `Ty.ofName_render_iff` — every name is read as a type of
that name, and a type is read back from its name exactly if it is canonical;
`SymbolTable.canonical_collect` — what a document declares has canonical types, up to such
constructors; `typeNames_correspond` — the same for the scopes, and all of it together.
-/

set_option autoImplicit false

namespace AuroraLint

namespace Ty

/-! ## Names that stand for types -/

/-- The name of a class, or any other name, behind the `?` of a type. -/
def baseName? : Ty → Option String
  | .named name => some name
  | .optional inner => inner.baseName?
  | _ => none

/-- The words that stand for built-in types. -/
def words : List String :=
  ["int", "double", "bool", "string", "void", "null"]

/-- A name that stands for something else than a class of that name. -/
def Taken (name : String) : Prop :=
  name ∈ words ∨ name.toList.getLast? = some '?'

instance (name : String) : Decidable (Taken name) :=
  inferInstanceAs (Decidable (_ ∨ _))

/-- Behind its `?`, the type is a built-in one, or a class whose name is not taken. -/
def Canonical (t : Ty) : Prop :=
  ∀ name ∈ t.baseName?, ¬ Taken name

instance (t : Ty) : Decidable t.Canonical :=
  inferInstanceAs (Decidable (∀ name ∈ t.baseName?, ¬ Taken name))

@[simp] theorem canonical_named {name : String} : (named name).Canonical ↔ ¬ Taken name := by
  simp [Canonical, baseName?]

@[simp] theorem canonical_optional {t : Ty} : (optional t).Canonical ↔ t.Canonical :=
  Iff.rfl

/-- A type without a name behind its `?` is built in. -/
theorem canonical_of_baseName? {t : Ty} (h : t.baseName? = none) : t.Canonical := by
  intro name hname
  rw [h] at hname
  cases hname

/-! ## From a name to a type and back -/

theorem ofBaseName_of_not_mem {name : String} (h : name ∉ words) :
    ofBaseName name = .named name := by
  unfold ofBaseName
  split
  case h_7 => rfl
  all_goals exact absurd (by decide) h

@[simp] theorem render_ofBaseName (name : String) : (ofBaseName name).render = name := by
  unfold ofBaseName
  split <;> rfl

/-- By induction on the characters from the last one on, as the `?` are taken off. -/
theorem render_ofReversed (cs : List Char) : (ofReversed cs).render = String.ofList cs.reverse := by
  induction cs with
  | nil => rfl
  | cons c cs ih =>
    rw [ofReversed]
    split
    · rename_i hmark
      rw [render, ih, hmark, List.reverse_cons, String.ofList_append]
    · exact render_ofBaseName _

/-- **The type that a name stands for is written as that name.** -/
theorem render_ofName (name : String) : (ofName name).render = name := by
  rw [ofName, render_ofReversed, List.reverse_reverse, String.ofList_toList]

theorem ofName_injective : Function.Injective ofName :=
  Function.LeftInverse.injective render_ofName

theorem ofName_append_mark (name : String) : ofName (name ++ "?") = .optional (ofName name) := by
  rw [ofName, String.toList_append, List.reverse_append]
  rfl

/-- A name without `?` at its end is looked up as it is. -/
theorem ofName_of_getLast? {name : String} (h : name.toList.getLast? ≠ some '?') :
    ofName name = ofBaseName name := by
  rw [← List.head?_reverse] at h
  rw [ofName]
  cases hcs : name.toList.reverse with
  | nil =>
    rw [String.toList_eq_nil_iff.mp (List.reverse_eq_nil_iff.mp hcs)]
    rfl
  | cons c cs =>
    have hmark : c ≠ '?' := by simpa [hcs] using h
    rw [ofReversed, if_neg hmark, ← hcs, List.reverse_reverse, String.ofList_toList]

theorem ofName_of_not_taken {name : String} (h : ¬ Taken name) : ofName name = .named name := by
  obtain ⟨hword, hlast⟩ := not_or.mp h
  rw [ofName_of_getLast? hlast, ofBaseName_of_not_mem hword]

theorem canonical_ofBaseName {name : String} (h : name.toList.getLast? ≠ some '?') :
    (ofBaseName name).Canonical := by
  by_cases hword : name ∈ words
  · have hbuiltin : ∀ w ∈ words, (ofBaseName w).baseName? = none := by decide
    exact canonical_of_baseName? (hbuiltin name hword)
  · rw [ofBaseName_of_not_mem hword, canonical_named]
    exact not_or.mpr ⟨hword, h⟩

theorem canonical_ofReversed (cs : List Char) : (ofReversed cs).Canonical := by
  induction cs with
  | nil => decide
  | cons c cs ih =>
    rw [ofReversed]
    split
    · exact canonical_optional.mpr ih
    · rename_i hmark
      refine canonical_ofBaseName ?_
      simpa using hmark

theorem canonical_ofName (name : String) : (ofName name).Canonical :=
  canonical_ofReversed _

/-- **A type is read back from its name exactly if it is canonical.** -/
theorem ofName_render_iff {t : Ty} : ofName t.render = t ↔ t.Canonical := by
  constructor
  · intro h
    rw [← h]
    exact canonical_ofName t.render
  · intro h
    induction t with
    | int | double | bool | string | void | null => decide
    | named name => exact ofName_of_not_taken (canonical_named.mp h)
    | optional inner ih => rw [render, ofName_append_mark, ih (canonical_optional.mp h)]

/-- A literal is of a built-in type, and so is every other expression. -/
theorem canonical_infer (cs : List Char) : (infer cs).Canonical := by
  refine canonical_of_baseName? ?_
  unfold infer inferTrimmed
  repeat' split
  all_goals rfl

/-- The words that can name a class as well: `null` is reserved. -/
def classWords : List String :=
  ["int", "double", "bool", "string", "void"]

end Ty

/-! ## Names in a document -/

/-- A name is of letters, digits and underscores. -/
theorem Lexeme.isNamePart_of_identifier {c : Char} {tail : List Char} {k : Kind} {closed : Bool}
    (h : Form c tail k closed) (hk : k = .identifier) : ∀ d ∈ c :: tail, isNamePart d = true := by
  cases h with
  | word hc htail => exact List.forall_mem_cons.mpr ⟨isNamePart_of_isNameStart hc, htail⟩
  | symbol hmem =>
    have hsymbols : ∀ p ∈ Kind.symbols, p.2 ≠ .identifier := by decide
    exact absurd hk (hsymbols _ hmem)
  | int | decimal | fraction | unknown | escaped | string => cases hk

namespace TokenStream

variable {file : String} {text : List Char} {ts : List Token} {i : Nat}

theorem isNamePart_lexeme (h : TokenStream file text ts) (hk : kindAt ts i = .identifier) :
    ∀ d ∈ (tokenAt ts i).lexeme.toList, isNamePart d = true := by
  obtain ⟨before, c, tail, lexeme, hsp, heq⟩ :=
    h.spelled_tokenAt (h.endsInEof.succ_lt_of_eq hk nofun)
  obtain ⟨after, _, hread⟩ := hsp.text_eq
  rw [kindAt, heq] at hk
  have hparts := Lexeme.isNamePart_of_identifier (Lexeme.form_of_read hread hsp.more_eq) hk
  rw [heq]
  simpa [Lexer.Scanned.spelling] using hparts

/-- Of the names that are taken, an identifier is one that can name a class. -/
theorem taken_lexeme_iff (h : TokenStream file text ts) (hk : kindAt ts i = .identifier) :
    Ty.Taken (tokenAt ts i).lexeme ↔ (tokenAt ts i).lexeme ∈ Ty.classWords := by
  constructor
  · rintro (hword | hmark)
    · -- `null` is a reserved word, and so no identifier
      have hnull : (tokenAt ts i).lexeme ≠ "null" := by
        intro heq
        have hreserved := h.keyword?_lexeme hk
        rw [heq] at hreserved
        cases hreserved
      simpa [Ty.words, Ty.classWords, hnull] using hword
    · -- no name has a `?` in it
      have hpart := h.isNamePart_lexeme hk '?' (List.mem_of_getLast? hmark)
      cases hpart
  · exact fun hmem => .inl (List.mem_append_left ["null"] hmem)

end TokenStream

/-! ## Types that are declared -/

theorem TypeRef.canonical_typeOr (t : Option TypeRef) {fallback : Ty} (h : fallback.Canonical) :
    (TypeRef.typeOr t fallback).Canonical := by
  cases t with
  | none => exact h
  | some t => exact Ty.canonical_ofName t.text

theorem Param.canonical_toParameter (p : Param) : p.toParameter.type.Canonical :=
  TypeRef.canonical_typeOr p.type (by decide)

theorem FnHeader.canonical_params (h : FnHeader) :
    ∀ p ∈ h.params.map Param.toParameter, p.type.Canonical := by
  intro p hp
  obtain ⟨written, _, rfl⟩ := List.mem_map.mp hp
  exact written.canonical_toParameter

theorem VarDecl.canonical_fieldType (ts : List Token) (d : VarDecl) :
    (d.fieldType ts).Canonical := by
  unfold VarDecl.fieldType
  split
  · exact Ty.canonical_ofName _
  · exact Ty.canonical_infer _
  · decide

/-! ## The symbol table -/

/-- The types of a class are canonical, but for the object that a constructor makes if the class is
named like a built-in type. -/
structure ClassInfo.Canonical (c : ClassInfo) : Prop where
  fields : ∀ (name : String) (type : Ty), c.fields[name]? = some type → type.Canonical
  params : ∀ (key : String) (s : Signature), c.methods[key]? = some s →
    ∀ p ∈ s.params, p.type.Canonical
  returns : ∀ (key : String) (s : Signature), c.methods[key]? = some s →
    (s.returnType.Canonical ↔ ¬ (s.origin = .constructor ∧ c.name ∈ Ty.classWords))

/-- The types of a symbol table are canonical, up to the constructors of such classes. -/
structure SymbolTable.Canonical (t : SymbolTable) : Prop where
  functions : ∀ name s, t.function? name = some s →
    (∀ p ∈ s.params, p.type.Canonical) ∧ s.returnType.Canonical
  classes : ∀ name c, t.class? name = some c → c.Canonical

section Collected

variable {file : String} {text : List Char} {ts : List Token}

/-- Every entry of a class is read from a member of its body. -/
theorem ClassHeader.ReadAt.exists_member (hts : EndsInEof ts) {i : Nat} {h : ClassHeader}
    (hr : h.ReadAt ts i) {m : Member} (hm : (h.declared (h.members ts)).Holds m) :
    ∃ k last, m.ReadAt h.name ts k last := by
  cases hb : h.body with
  | none =>
    rw [ClassHeader.members, hb] at hm
    cases m <;> simp [ClassHeader.declared, ClassInfo.Holds] at hm
  | some b =>
    rw [ClassHeader.members, hb] at hm
    obtain ⟨k, last, _, hread, _⟩ := (ClassHeader.holds_declared hts (hr.body_spec hb).2 m).mp hm
    exact ⟨k, last, hread⟩

/-- A constructor makes an object of its class, whatever that is named. -/
theorem ClassHeader.ReadAt.canonical (hstream : TokenStream file text ts) {i : Nat}
    {h : ClassHeader} (hr : h.ReadAt ts i) : (h.declared (h.members ts)).Canonical := by
  have hts := hstream.endsInEof
  have hname : (h.declared (h.members ts)).name = h.name := name_addMembers _ _
  have htaken : Ty.Taken h.name ↔ h.name ∈ Ty.classWords := by
    rw [hr.name_eq]
    exact hstream.taken_lexeme_iff hr.name_kind
  refine ⟨fun name type hfield => ?_, fun key s hmethod => ?_, fun key s hmethod => ?_⟩
  · obtain ⟨k, last, hread⟩ := hr.exists_member hts (m := .field name type) hfield
    cases hread with
    | field d hd => exact d.canonical_fieldType ts
  · obtain ⟨k, last, hread⟩ := hr.exists_member hts (m := .method key s) hmethod
    cases hread with
    | method header => exact header.canonical_params
    | constructor header => exact header.canonical_params
  · obtain ⟨k, last, hread⟩ := hr.exists_member hts (m := .method key s) hmethod
    rw [hname]
    cases hread with
    | method header =>
      exact iff_of_true (TypeRef.canonical_typeOr _ (by decide)) (fun hc => nomatch hc.1)
    | constructor header =>
      -- the class by its own name, which is not looked up
      rw [← htaken]
      simp [FnHeader.constructorSignature, FnHeader.signature]

theorem SymbolTable.canonical_function? {name : String} {s : Signature}
    (hs : (collect ts).1.function? name = some s) :
    (∀ p ∈ s.params, p.type.Canonical) ∧ s.returnType.Canonical := by
  rw [(holds_collect ts).functions, firstFunction?] at hs
  split at hs
  · rename_i h origin _
    obtain rfl := Option.some.inj hs
    have hfallback : (if origin = .external then Ty.double else .void).Canonical := by
      split <;> decide
    exact ⟨h.canonical_params, TypeRef.canonical_typeOr _ hfallback⟩
  · -- the function is built in, or there is none
    split at hs
    · obtain rfl := Option.some.inj hs
      decide
    · cases hs

/-- **The types that a document declares are canonical.** -/
theorem SymbolTable.canonical_collect (hstream : TokenStream file text ts) :
    (collect ts).1.Canonical := by
  refine ⟨fun name s hs => canonical_function? hs, fun name c hc => ?_⟩
  obtain ⟨i, h, _, hh, _, rfl⟩ := exists_of_class? hc
  exact ((classHeaderAt_eq_some_iff hstream.endsInEof).mp hh).canonical hstream

end Collected

/-! ## The scopes -/

namespace Resolve

variable {doc : Document}

/-- What the walk defines: a parameter, the name of a loop, or a variable that is declared. -/
inductive Introduced (doc : Document) : Variable → Prop
  | parameter (p : Param) : Introduced doc (parameterVariable p)
  | binding (t : Token) : Introduced doc (bindingVariable t)
  | declared (d : VarDecl) : Introduced doc (declaredVariable doc d)

theorem canonical_declaredType (doc : Document) (d : VarDecl) :
    (declaredType doc d).Canonical := by
  simp only [declaredType, Document.inferExtent]
  split
  · exact Ty.canonical_ofName _
  · exact Ty.canonical_infer _
  · decide

theorem Introduced.canonical {v : Variable} (h : Introduced doc v) : v.type.Canonical := by
  cases h with
  | parameter p => exact p.canonical_toParameter
  | binding t => exact Ty.canonical_of_baseName? rfl
  | declared d => exact canonical_declaredType doc d

section Step

variable {st : State} (h : st.scopes.All (Introduced doc)) (i : Nat)

include h

/-- The scope of a function gets its parameters, that of a loop the name of the loop. -/
theorem State.introduced_openScope : (st.openScope doc i).scopes.All (Introduced doc) := by
  unfold State.openScope
  split
  · exact (h.push .function).foldl_define parameterVariable fun p _ => .parameter p
  · unfold State.openBlock
    split
    · exact h.push .block
    · exact (h.push .block).define (.binding _)
    · exact h.push .block

theorem State.introduced_declare (decl : Option VarDecl) :
    (st.declare doc decl).scopes.All (Introduced doc) := by
  cases decl with
  | none => exact h
  | some d => exact h.define (.declared d)

/-- **One token of the walk.** Headers and loops only make it wait for a `{`. -/
theorem State.introduced_step : (st.step doc i).scopes.All (Introduced doc) := by
  unfold State.step
  split
  · exact introduced_openScope h i
  · exact h.pop
  · rwa [State.expectBody_eq]
  · rwa [State.expectBody_eq]
  · exact h
  · rwa [State.expectLoop_eq]
  · exact introduced_declare h _
  · exact introduced_declare h _
  · exact h

end Step

/-- Every variable of the scopes was introduced by a token of the walk. -/
theorem introduced_stateBefore (doc : Document) (i : Nat) :
    (stateBefore doc i).scopes.All (Introduced doc) := by
  induction i with
  | zero => exact ScopeStack.all_empty
  | succ i ih => exact State.introduced_step ih i

end Resolve

/-! ## Types and names -/

/-- **Types and their names correspond.** Every name is the name of the type it stands for, and so
no two names stand for one type. A type is what its name stands for exactly if, behind its `?`, it
is no class whose name is taken. All types that a document declares are of this kind, in its symbol
table and in the scopes at each of its tokens; only the constructors of a class that is named like a
built-in type make an object whose type is not. -/
theorem typeNames_correspond :
    (∀ name, (Ty.ofName name).render = name) ∧ Function.Injective Ty.ofName ∧
    (∀ t, Ty.ofName t.render = t ↔ t.Canonical) ∧
    ∀ uri text, (symbolsOf uri text).Canonical ∧
      ∀ i, (Resolve.stateBefore (Document.ofText uri text) i).scopes.All (·.type.Canonical) := by
  refine ⟨Ty.render_ofName, Ty.ofName_injective, fun t => Ty.ofName_render_iff, fun uri text => ?_⟩
  refine ⟨SymbolTable.canonical_collect (tokenStream_tokenize uri text), fun i => ?_⟩
  exact (Resolve.introduced_stateBefore _ i).mono fun v hv => hv.canonical

/-- An object of a class `int` is of a type that is written as the numbers are. -/
example : ((symbolsOf "m" "class int \x7b constructor() \x7b \x7d \x7d").class? "int").bind
    (fun c => c.constructor?.map fun s => (s.returnType, Ty.ofName s.returnType.render)) =
      some (.named "int", .int) := by
  decide +kernel

end AuroraLint
