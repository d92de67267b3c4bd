import AuroraLint.Proofs.Moved.Header
import AuroraLint.Proofs.Symbols

/-!
# Symbol tables at other byte offsets

Moved tokens declare the same names. What a table says of the types of fields is left out: they
may be read off string literals, and nothing looks at them.

* `Declaration.Moved` : the same declaration at its new offsets, up to types of fields.
* `SymbolTable.Moved` : a table that finds the same functions and methods at their new offsets.

Main statement: `TokensMoved.collect` — of moved tokens the table is moved, and so are the errors.
-/

set_option autoImplicit false

namespace AuroraLint

/-! ## Signatures -/

/-- The signature at other offsets. -/
def Signature.mapOffset (f : Nat → Nat) (s : Signature) : Signature :=
  { s with declaredAt := s.declaredAt.map (Span.mapOffset f) }

section Signatures

variable (f : Nat → Nat)

@[simp] theorem TypeRef.typeOr_mapOffset (t : Option TypeRef) (fallback : Ty) :
    TypeRef.typeOr (t.map (TypeRef.mapOffset f)) fallback = TypeRef.typeOr t fallback := by
  cases t <;> rfl

@[simp] theorem Param.toParameter_mapOffset (p : Param) :
    (p.mapOffset f).toParameter = p.toParameter := by
  simp [toParameter, mapOffset]

@[simp] theorem FnHeader.signature_mapOffset (h : FnHeader) (fallback : Ty) (origin : Origin) :
    (h.mapOffset f).signature fallback origin = (h.signature fallback origin).mapOffset f := by
  simp [signature, mapOffset, Signature.mapOffset]

@[simp] theorem FnHeader.constructorSignature_mapOffset (h : FnHeader) (className : String) :
    (h.mapOffset f).constructorSignature className =
      (h.constructorSignature className).mapOffset f := by
  rw [constructorSignature, signature_mapOffset]
  rfl

end Signatures

/-! ## Members and declarations -/

/-- The same member at its new offsets; the type of a field is not compared. -/
inductive Member.Moved (g : OffsetMap) : Member → Member → Prop
  | field (name : String) (type type' : Ty) : Member.Moved g (.field name type) (.field name type')
  | method (key : String) (s : Signature) :
      Member.Moved g (.method key s) (.method key (s.mapOffset g))

/-- The same declaration at its new offsets. -/
inductive Declaration.Moved (g : OffsetMap) : Declaration → Declaration → Prop
  | function (h : FnHeader) : Declaration.Moved g (.function h) (.function (h.mapOffset g))
  | external (h : FnHeader) : Declaration.Moved g (.external h) (.external (h.mapOffset g))
  | classDef (h : ClassHeader) {members members' : List Member}
      (hm : List.Forall₂ (Member.Moved g) members members') :
      Declaration.Moved g (.classDef h members) (.classDef (h.mapOffset g) members')

/-- Two finds, each with the index of its last token: none, or related ones that end alike. -/
inductive FoundAlike {α : Type} (r : α → α → Prop) : Option (α × Nat) → Option (α × Nat) → Prop
  | none : FoundAlike r none none
  | some {a b : α} (hab : r a b) (last : Nat) : FoundAlike r (some (a, last)) (some (b, last))

theorem FoundAlike.map {α β : Type} {r : α → α → Prop} {f f' : β → α} {last : β → Nat}
    (h : ∀ b, r (f b) (f' b)) (o : Option β) :
    FoundAlike r (o.map fun b => (f b, last b)) (o.map fun b => (f' b, last b)) := by
  cases o with
  | none => exact .none
  | some b => exact .some (h b) (last b)

namespace TokensMoved

variable {g : OffsetMap} {ts ts' : List Token}

theorem memberAt (h : TokensMoved g ts ts') (hts : EndsInEof ts) (className : String) (i : Nat) :
    FoundAlike (Member.Moved g) (memberAt className ts i) (memberAt className ts' i) := by
  unfold AuroraLint.memberAt
  rw [h.kindAt, h.varDecl hts, h.fnHeaderAt hts, h.constructorHeaderAt hts, Option.map_map,
    Option.map_map]
  cases AuroraLint.kindAt ts i with
  | kwLet | kwVar =>
    obtain ⟨field, c⟩ := Reading.varDecl ⟨ts, i⟩
    cases field with
    | none => exact .none
    | some d => exact .some (.field d.name _ _) _
  | kwFn =>
    refine FoundAlike.map (fun header => ?_) _
    rw [FnHeader.signature_mapOffset]
    exact .method _ _
  | kwConstructor =>
    refine FoundAlike.map (fun header => ?_) _
    rw [FnHeader.constructorSignature_mapOffset]
    exact .method _ _
  | _ => exact .none

theorem membersFrom (h : TokensMoved g ts ts') (hts : EndsInEof ts) (className : String)
    {body body' : List Token} (hb : TokensMoved g body body') (depth resume i : Nat) :
    List.Forall₂ (Member.Moved g) (membersFrom className ts depth resume i body)
      (membersFrom className ts' depth resume i body') := by
  induction hb generalizing depth resume i with
  | nil => exact .nil
  | @cons t _ _ _ ht _ ih =>
    unfold AuroraLint.membersFrom
    rw [ht.kind_eq]
    split
    · exact ih ..
    · split
      · exact ih ..
      · exact ih ..
      · split
        · exact ih ..
        · -- both lists have a member here, or neither has
          generalize (if t.kind = .kwPub then i + 1 else i) = start
          have hm := h.memberAt hts className start
          generalize AuroraLint.memberAt className ts start = found at hm
          generalize AuroraLint.memberAt className ts' start = found' at hm
          cases hm with
          | none => exact ih ..
          | some hm last => exact .cons hm (ih ..)

theorem members (h : TokensMoved g ts ts') (hts : EndsInEof ts) (c : ClassHeader) :
    List.Forall₂ (Member.Moved g) (c.members ts) ((c.mapOffset g).members ts') := by
  have hbody : (c.mapOffset g).body = c.body := rfl
  unfold ClassHeader.members
  rw [hbody]
  cases c.body with
  | none => exact .nil
  | some opener =>
    simp only [h.blockEnd]
    exact h.membersFrom hts c.name (List.forall₂_take _ (List.forall₂_drop _ h)) ..

theorem declarationAt (h : TokensMoved g ts ts') (hts : EndsInEof ts) (i : Nat) :
    FoundAlike (Declaration.Moved g) (declarationAt ts i) (declarationAt ts' i) := by
  unfold AuroraLint.declarationAt
  rw [h.kindAt, h.externHeaderAt hts, h.fnHeaderAt hts, h.classHeaderAt hts, Option.map_map,
    Option.map_map, Option.map_map]
  cases AuroraLint.kindAt ts i with
  | kwExtern => exact FoundAlike.map .external _
  | kwFn => exact FoundAlike.map .function _
  | kwClass =>
    have hlast : ∀ c : ClassHeader, (c.mapOffset g).lastToken ts' = c.lastToken ts := by
      intro c
      simp only [ClassHeader.lastToken, h.blockEnd]
      rfl
    simp only [Function.comp_def, hlast]
    exact FoundAlike.map (fun header => .classDef header (h.members hts header)) _
  | _ => exact .none

theorem declarationsFrom (h : TokensMoved g ts ts') (hts : EndsInEof ts) {rest rest' : List Token}
    (hr : TokensMoved g rest rest') (resume i : Nat) :
    List.Forall₂ (Declaration.Moved g) (declarationsFrom ts resume i rest)
      (declarationsFrom ts' resume i rest') := by
  induction hr generalizing resume i with
  | nil => exact .nil
  | cons _ _ ih =>
    unfold AuroraLint.declarationsFrom
    split
    · exact ih ..
    · have hd := h.declarationAt hts i
      generalize AuroraLint.declarationAt ts i = found at hd
      generalize AuroraLint.declarationAt ts' i = found' at hd
      cases hd with
      | none => exact ih ..
      | some hd last => exact .cons hd (ih ..)

end TokensMoved

/-! ## Tables -/

/-- The same class at its new offsets, up to the types of its fields. -/
structure ClassInfo.Moved (g : OffsetMap) (c c' : ClassInfo) : Prop where
  methods : ∀ name : String, c'.methods[name]? = c.methods[name]?.map (Signature.mapOffset g)
  declaredAt_eq : c'.declaredAt = c.declaredAt.mapOffset g

namespace ClassInfo.Moved

variable {g : OffsetMap} {c c' : ClassInfo}

theorem addMember (h : c.Moved g c') {m m' : Member} (hm : m.Moved g m') :
    (c.addMember m).Moved g (c'.addMember m') := by
  cases hm with
  | field name type type' => exact ⟨h.methods, h.declaredAt_eq⟩
  | method key s =>
    refine ⟨fun name => ?_, h.declaredAt_eq⟩
    simp only [ClassInfo.addMember, Std.TreeMap.getElem?_insert, h.methods name]
    split <;> rfl

theorem addMembers (h : c.Moved g c') {ms ms' : List Member}
    (hms : List.Forall₂ (Member.Moved g) ms ms') :
    (ms.foldl ClassInfo.addMember c).Moved g (ms'.foldl ClassInfo.addMember c') := by
  induction hms generalizing c c' with
  | nil => exact h
  | cons hm _ ih => exact ih (h.addMember hm)

theorem method? (h : c.Moved g c') (name : String) :
    c'.method? name = (c.method? name).map (Signature.mapOffset g) := by
  unfold ClassInfo.method?
  split
  · rfl
  · exact h.methods name

end ClassInfo.Moved

namespace SymbolTable

/-- A table that finds the same functions and classes at their new offsets. -/
structure Moved (g : OffsetMap) (t t' : SymbolTable) : Prop where
  functions : ∀ name, t'.function? name = (t.function? name).map (Signature.mapOffset g)
  classes : ∀ name, Option.Rel (ClassInfo.Moved g) (t.class? name) (t'.class? name)

/-- A method is looked for in the classes in the order of their names. -/
theorem method?_eq (t : SymbolTable) (name : String) :
    t.method? name = t.classes.keys.findSome? fun key => (t.class? key).bind (·.method? name) := by
  have hvalues : t.classes.values = t.classes.toList.map Prod.snd := by
    have hfold : t.classes.values = t.classes.foldr (fun _ c cs => c :: cs) [] := rfl
    rw [hfold, Std.TreeMap.foldr_eq_foldr_toList]
    induction t.classes.toList with
    | nil => rfl
    | cons _ _ ih => simp [ih]
  have hget : ∀ p ∈ t.classes.toList, t.class? p.1 = some p.2 := fun p hp =>
    Std.TreeMap.mem_toList_iff_getElem?_eq_some.mp hp
  rw [method?, hvalues, ← Std.TreeMap.map_fst_toList_eq_keys]
  generalize t.classes.toList = entries at hget
  induction entries with
  | nil => rfl
  | cons p ps ih =>
    rw [List.map_cons, List.map_cons, List.findSome?_cons, List.findSome?_cons,
      hget p List.mem_cons_self, ih fun q hq => hget q (List.mem_cons_of_mem _ hq)]
    rfl

namespace Moved

variable {g : OffsetMap} {t t' : SymbolTable}

theorem class?_cases (h : t.Moved g t') (name : String) :
    (t.class? name = none ∧ t'.class? name = none) ∨
      ∃ c c', t.class? name = some c ∧ t'.class? name = some c' ∧ c.Moved g c' := by
  have hrel := h.classes name
  generalize t.class? name = found at hrel
  generalize t'.class? name = found' at hrel
  cases hrel with
  | none => exact .inl ⟨rfl, rfl⟩
  | some hc => exact .inr ⟨_, _, rfl, rfl, hc⟩

theorem keys (h : t.Moved g t') : t'.classes.keys = t.classes.keys := by
  have hperm : t'.classes.keys.Perm t.classes.keys := by
    refine (List.perm_ext_iff_of_nodup Std.TreeMap.nodup_keys Std.TreeMap.nodup_keys).mpr ?_
    intro key
    rw [Std.TreeMap.mem_keys, Std.TreeMap.mem_keys, ← Std.TreeMap.isSome_getElem?_iff_mem,
      ← Std.TreeMap.isSome_getElem?_iff_mem]
    show (t'.class? key).isSome ↔ (t.class? key).isSome
    rcases h.class?_cases key with ⟨hc, hc'⟩ | ⟨c, c', hc, hc', _⟩ <;> simp [hc, hc']
  refine hperm.eq_of_pairwise ?_ Std.TreeMap.ordered_keys Std.TreeMap.ordered_keys
  intro a b _ _ hab hba
  exact absurd hba (by simp [Std.OrientedCmp.gt_of_lt hab])

theorem classMethod? (h : t.Moved g t') (className name : String) :
    (t'.class? className).bind (·.method? name) =
      ((t.class? className).bind (·.method? name)).map (Signature.mapOffset g) := by
  rcases h.class?_cases className with ⟨hc, hc'⟩ | ⟨c, c', hc, hc', hmoved⟩
  · simp [hc, hc']
  · simpa [hc, hc'] using hmoved.method? name

theorem method? (h : t.Moved g t') (name : String) :
    t'.method? name = (t.method? name).map (Signature.mapOffset g) := by
  rw [method?_eq, method?_eq, h.keys, List.map_findSome?]
  simp only [h.classMethod?]
  rfl

theorem builtins : builtins.Moved g builtins := by
  refine ⟨fun name => ?_, fun name => ?_⟩
  · rw [show SymbolTable.builtins.function? name = _ from
      function?_insert ⟨∅, ∅⟩ printd.name name printd]
    split
    · rfl
    · simp [function?]
  · have hempty : SymbolTable.builtins.class? name = none := by
      simp [class?, SymbolTable.builtins]
    rw [hempty]
    exact .none

theorem addFunction (h : t.Moved g t') (header : FnHeader) (s : Signature) :
    (t.addFunction header s).1.Moved g
        (t'.addFunction (header.mapOffset g) (s.mapOffset g)).1 ∧
      (t'.addFunction (header.mapOffset g) (s.mapOffset g)).2 =
        (t.addFunction header s).2.map (Diagnostic.mapOffset g) := by
  have hname : (header.mapOffset g).name = header.name := rfl
  have hearlier : (t'.function? header.name).bind (·.declaredAt) =
      ((t.function? header.name).bind (·.declaredAt)).map (Span.mapOffset g) := by
    rw [h.functions]
    cases t.function? header.name <;> rfl
  unfold SymbolTable.addFunction
  rw [hname, hearlier]
  cases (t.function? header.name).bind (·.declaredAt) with
  | some earlier => exact ⟨h, by simp [FnHeader.mapOffset]⟩
  | none =>
    refine ⟨⟨fun name => ?_, h.classes⟩, rfl⟩
    simp only [Option.map_none, function?_insert, h.functions]
    split <;> rfl

theorem addClass (h : t.Moved g t') (header : ClassHeader) {ms ms' : List Member}
    (hms : List.Forall₂ (Member.Moved g) ms ms') :
    (t.addClass header ms).1.Moved g (t'.addClass (header.mapOffset g) ms').1 ∧
      (t'.addClass (header.mapOffset g) ms').2 =
        (t.addClass header ms).2.map (Diagnostic.mapOffset g) := by
  have hname : (header.mapOffset g).name = header.name := rfl
  unfold SymbolTable.addClass
  rw [hname]
  rcases h.class?_cases header.name with ⟨hc, hc'⟩ | ⟨c, c', hc, hc', hmoved⟩
  · rw [hc, hc']
    refine ⟨⟨h.functions, fun name => ?_⟩, rfl⟩
    have hempty : ClassInfo.Moved g ⟨header.name, ∅, ∅, header.nameSpan⟩
        ⟨header.name, ∅, ∅, header.nameSpan.mapOffset g⟩ := ⟨fun _ => by simp, rfl⟩
    simp only [class?_insert]
    split
    · exact .some (hempty.addMembers hms)
    · exact h.classes name
  · rw [hc, hc']
    exact ⟨h, by simp [hmoved.declaredAt_eq, ClassHeader.mapOffset]⟩

/-- One more declaration. -/
theorem add (h : t.Moved g t') {d d' : Declaration} (hd : d.Moved g d') :
    (t.add d).1.Moved g (t'.add d').1 ∧
      (t'.add d').2 = (t.add d).2.map (Diagnostic.mapOffset g) := by
  cases hd with
  | function header | external header =>
    simp only [SymbolTable.add, FnHeader.signature_mapOffset]
    exact h.addFunction header _
  | classDef header hms => exact h.addClass header hms

/-- All declarations in order. -/
theorem addAll (h : t.Moved g t') {ds ds' : List Declaration}
    (hds : List.Forall₂ (Declaration.Moved g) ds ds') :
    (t.addAll ds).1.Moved g (t'.addAll ds').1 ∧
      (t'.addAll ds').2 = (t.addAll ds).2.map (Diagnostic.mapOffset g) := by
  induction hds generalizing t t' with
  | nil => exact ⟨h, rfl⟩
  | cons hd _ ih =>
    obtain ⟨ht, hfirst⟩ := h.add hd
    obtain ⟨ht', hothers⟩ := ih ht
    exact ⟨ht', by simp only [SymbolTable.addAll, hfirst, hothers, List.map_append]⟩

end Moved

end SymbolTable

/-- **Of moved tokens the symbol table is moved, and so are its errors.** -/
theorem TokensMoved.collect {g : OffsetMap} {ts ts' : List Token} (h : TokensMoved g ts ts')
    (hts : EndsInEof ts) :
    (SymbolTable.collect ts).1.Moved g (SymbolTable.collect ts').1 ∧
      (SymbolTable.collect ts').2 =
        (SymbolTable.collect ts).2.map (Diagnostic.mapOffset g) :=
  SymbolTable.Moved.builtins.addAll (h.declarationsFrom hts h 0 0)

end AuroraLint
