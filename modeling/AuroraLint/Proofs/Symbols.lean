import AuroraLint.Proofs.Located.Tables
import AuroraLint.Proofs.Taking

/-!
# The first declaration of a name stays

What the symbol table of a document holds, told without the walk that builds it.

* `collects`      : a token starts a declaration that no collected one before it reaches over.
* `collected`     : the declarations that start at such tokens, in order.
* `redefinitions` : an error for each declaration whose name was declared before.

Main statements: `declarations_eq_collected` — jumping over the tokens of each declaration finds
exactly the collected ones; `SymbolTable.collect_eq_first` — functions and classes are looked up
among their first declarations, built-in functions behind them, and every later declaration of a
name gives one error that cites the first.
-/

set_option autoImplicit false

namespace AuroraLint

/-! ## Collected declarations -/

/-- Token `i` starts a declaration that is collected: one can be read there, and every collected
declaration that starts before it also ends before it. -/
def collects (ts : List Token) (i : Nat) : Bool :=
  (declarationAt ts i).isSome &&
    (List.range i).attach.all fun ⟨j, _⟩ =>
      !collects ts j || (declarationAt ts j).all fun (_, last) => last < i
termination_by i
decreasing_by exact List.mem_range.mp ‹_›

/-- The collected declarations of a document, in the order of the tokens they start at. -/
def collected (ts : List Token) : List Declaration :=
  (List.range ts.length).filterMap fun i =>
    if collects ts i then (declarationAt ts i).map (·.1) else none

/-- Some collected declaration that starts before token `i` reaches to token `k` or beyond. -/
def ReachedOver (ts : List Token) (i k : Nat) : Prop :=
  ∃ j < i, collects ts j = true ∧ ∃ d last, declarationAt ts j = some (d, last) ∧ k ≤ last

theorem collects_eq_taken (ts : List Token) (i : Nat) :
    collects ts i = taken (declarationAt ts) i := by
  induction i using Nat.strongRecOn with
  | _ i ih =>
    rw [collects, taken]
    congr 2
    funext j
    simp only [ih j.1 (List.mem_range.mp j.2)]

theorem collects_iff {ts : List Token} {i : Nat} :
    collects ts i = true ↔ (declarationAt ts i).isSome = true ∧ ¬ ReachedOver ts i i := by
  have hover : ReachedOver ts i i ↔ TakenOver (declarationAt ts) i i := by
    simp only [ReachedOver, TakenOver, collects_eq_taken]
  rw [collects_eq_taken, taken_iff, hover]

theorem declarationsFrom_eq_takeFrom {ts : List Token} (resume i : Nat) (rest : List Token) :
    declarationsFrom ts resume i rest = takeFrom (declarationAt ts) resume i rest.length := by
  induction rest generalizing resume i with
  | nil => rfl
  | cons t rest ih =>
    simp only [declarationsFrom, takeFrom, List.length_cons, ih]
    cases declarationAt ts i <;> rfl

/-- **The declarations that the walk finds are the collected ones.** -/
theorem declarations_eq_collected (ts : List Token) : declarations ts = collected ts := by
  have hresume : ∀ k, 0 ≤ k → (k < 0 ↔ TakenOver (declarationAt ts) 0 k) :=
    fun k _ => ⟨fun h => absurd h (Nat.not_lt_zero k), fun ⟨j, hj, _⟩ => absurd hj (Nat.not_lt_zero j)⟩
  rw [declarations, declarationsFrom_eq_takeFrom, takeFrom_eq hresume, collected,
    List.range_eq_range']
  simp only [collects_eq_taken]
  rfl

/-! ## What declarations stand for -/

namespace Declaration

/-- The header of a function or external function, and which of the two it is. -/
def function? : Declaration → Option (FnHeader × Origin)
  | .function h => some (h, .function)
  | .external h => some (h, .external)
  | .classDef .. => none

/-- The header and the members of a class. -/
def class? : Declaration → Option (ClassHeader × List Member)
  | .classDef h members => some (h, members)
  | _ => none

/-- Both declare a function of the same name, or both a class. -/
def clashes : Declaration → Declaration → Bool
  | .classDef a _, .classDef b _ => a.name == b.name
  | .function a, .function b | .function a, .external b
  | .external a, .function b | .external a, .external b => a.name == b.name
  | _, _ => false

/-- What is said of a declaration whose name was declared on an earlier line. -/
def redefinedMessage (line : Nat) : Declaration → String
  | .function h | .external h => s!"Function '{h.name}' is already defined at line {line}"
  | .classDef h _ => s!"Class '{h.name}' is already defined at line {line}"

/-- The error of a declaration whose name `first` declared. -/
def redefinition (first d : Declaration) : Diagnostic :=
  (Diagnostic.error (d.redefinedMessage first.place.line) d.place).withRelated first.place
    "Previous definition here"

end Declaration

/-- The errors of declarations in order: one for each that has another of its name before it, with
a reference to the first of them. -/
def redefinitions (ds : List Declaration) : List Diagnostic :=
  (List.range ds.length).filterMap fun k =>
    ds[k]?.bind fun d => ((ds.take k).find? (·.clashes d)).map (·.redefinition d)

/-- What calls of a declared function have to agree with. A function without annotation returns
nothing, an external one a `double`. -/
def FnHeader.declared (h : FnHeader) (origin : Origin) : Signature where
  name := h.name
  params := h.params.map Param.toParameter
  returnType := (h.returnType.map fun t => Ty.ofName t.text).getD
    (if origin = .external then .double else .void)
  origin := origin
  declaredAt := some h.span

/-- A declared class with its members. -/
def ClassHeader.declared (h : ClassHeader) (members : List Member) : ClassInfo :=
  members.foldl ClassInfo.addMember ⟨h.name, ∅, ∅, h.nameSpan⟩

/-- The functions among some declarations, in order. -/
def functionsOf (ds : List Declaration) : List (FnHeader × Origin) :=
  ds.filterMap Declaration.function?

/-- The classes among some declarations, in order. -/
def classesOf (ds : List Declaration) : List (ClassHeader × List Member) :=
  ds.filterMap Declaration.class?

/-- The function of a name: its first declaration, else the built-in one. -/
def firstFunction? (ds : List Declaration) (name : String) : Option Signature :=
  match (functionsOf ds).find? (·.1.name == name) with
  | some (h, origin) => some (h.declared origin)
  | none => if name = SymbolTable.printd.name then some SymbolTable.printd else none

/-- The class of a name: its first declaration. -/
def firstClass? (ds : List Declaration) (name : String) : Option ClassInfo :=
  ((classesOf ds).find? (·.1.name == name)).map fun (h, members) => h.declared members

/-! ## Adding declarations in order -/

namespace SymbolTable

/-- The table holds the first declarations among `ds`. -/
structure Holds (ds : List Declaration) (t : SymbolTable) : Prop where
  functions : ∀ name, t.function? name = firstFunction? ds name
  classes : ∀ name, t.class? name = firstClass? ds name

theorem function?_insert (t : SymbolTable) (name other : String) (s : Signature) :
    function? { t with functions := t.functions.insert name s } other =
      if name = other then some s else t.function? other := by
  simp only [function?, Std.TreeMap.getElem?_insert, Std.LawfulEqCmp.compare_eq_iff_eq]

theorem class?_insert (t : SymbolTable) (name other : String) (c : ClassInfo) :
    class? { t with classes := t.classes.insert name c } other =
      if name = other then some c else t.class? other := by
  simp only [class?, Std.TreeMap.getElem?_insert, Std.LawfulEqCmp.compare_eq_iff_eq]

theorem holds_builtins : Holds [] builtins := by
  refine ⟨fun name => ?_, fun name => ?_⟩
  · have hempty : (⟨∅, ∅⟩ : SymbolTable).function? name = none := by simp [function?]
    rw [show builtins.function? name = _ from function?_insert ⟨∅, ∅⟩ printd.name name printd, hempty]
    simp only [firstFunction?, functionsOf, List.filterMap_nil, List.find?_nil, @eq_comm _ name]
  · simp [class?, builtins, firstClass?, classesOf]

section Add

variable {ds : List Declaration} {d : Declaration} {t : SymbolTable}

/-- A built-in function is declared nowhere. -/
theorem declaredAt_firstFunction? (ds : List Declaration) (name : String) :
    (firstFunction? ds name).bind (·.declaredAt) =
      ((functionsOf ds).find? (·.1.name == name)).map (·.1.span) := by
  unfold firstFunction?
  cases (functionsOf ds).find? (·.1.name == name) with
  | none =>
    simp only [Option.map_none]
    split <;> rfl
  | some p => rfl

/-- The first function of a name is the first declaration that clashes. -/
theorem find?_functionsOf {h : FnHeader} {origin : Origin} (hd : d.function? = some (h, origin)) :
    (functionsOf ds).find? (·.1.name == h.name) = (ds.find? (·.clashes d)).bind (·.function?) := by
  rw [functionsOf, List.find?_filterMap]
  congr 2
  funext a
  cases d with
  | classDef => cases hd
  | function | external =>
    obtain ⟨rfl, _⟩ := Prod.mk.inj (Option.some.inj hd)
    cases a <;> rfl

theorem find?_classesOf {h : ClassHeader} {members : List Member}
    (hd : d.class? = some (h, members)) :
    (classesOf ds).find? (·.1.name == h.name) = (ds.find? (·.clashes d)).bind (·.class?) := by
  rw [classesOf, List.find?_filterMap]
  congr 2
  funext a
  cases d with
  | function | external => cases hd
  | classDef =>
    obtain ⟨rfl, _⟩ := Prod.mk.inj (Option.some.inj hd)
    cases a <;> rfl

/-- A function that no declaration before it clashes with is found from then on; any other leaves
the first one of its name. -/
theorem firstFunction?_append {h : FnHeader} {origin : Origin}
    (hd : d.function? = some (h, origin)) (name : String) :
    firstFunction? (ds ++ [d]) name =
      if h.name = name ∧ (functionsOf ds).find? (·.1.name == h.name) = none then
        some (h.declared origin)
      else firstFunction? ds name := by
  have happend : functionsOf (ds ++ [d]) = functionsOf ds ++ [(h, origin)] := by
    simp [functionsOf, hd]
  rw [firstFunction?, happend, List.find?_append]
  by_cases hname : h.name = name
  · subst hname
    cases hf : (functionsOf ds).find? (·.1.name == h.name) with
    | none => simp
    | some p => simp [firstFunction?, hf]
  · simp [hname, firstFunction?]

theorem firstClass?_append {h : ClassHeader} {members : List Member}
    (hd : d.class? = some (h, members)) (name : String) :
    firstClass? (ds ++ [d]) name =
      if h.name = name ∧ (classesOf ds).find? (·.1.name == h.name) = none then
        some (h.declared members)
      else firstClass? ds name := by
  have happend : classesOf (ds ++ [d]) = classesOf ds ++ [(h, members)] := by
    simp [classesOf, hd]
  rw [firstClass?, happend, List.find?_append]
  by_cases hname : h.name = name
  · subst hname
    cases hf : (classesOf ds).find? (·.1.name == h.name) with
    | none => simp
    | some p => simp [firstClass?, hf]
  · simp [hname, firstClass?]

theorem redefinition_function {a : Declaration} {h : FnHeader} {origin : Origin}
    (hd : d.function? = some (h, origin)) (ha : a.clashes d = true) :
    ∃ p, a.function? = some p ∧ a.redefinition d =
      (Diagnostic.error s!"Function '{h.name}' is already defined at line {p.1.span.line}"
        h.span).withRelated p.1.span "Previous definition here" := by
  cases d with
  | classDef => cases hd
  | function | external =>
    obtain ⟨rfl, _⟩ := Prod.mk.inj (Option.some.inj hd)
    cases a with
    | classDef => cases ha
    | function | external => exact ⟨_, rfl, rfl⟩

theorem redefinition_class {a : Declaration} {h : ClassHeader} {members : List Member}
    (hd : d.class? = some (h, members)) (ha : a.clashes d = true) :
    ∃ p, a.class? = some p ∧ a.redefinition d =
      (Diagnostic.error s!"Class '{h.name}' is already defined at line {p.1.nameSpan.line}"
        h.nameSpan).withRelated p.1.nameSpan "Previous definition here" := by
  cases d with
  | function | external => cases hd
  | classDef =>
    obtain ⟨rfl, _⟩ := Prod.mk.inj (Option.some.inj hd)
    cases a with
    | function | external => cases ha
    | classDef => exact ⟨_, rfl, rfl⟩

/-- One function more. -/
theorem Holds.addFunction (ht : Holds ds t) {h : FnHeader} {origin : Origin}
    (hd : d.function? = some (h, origin)) :
    Holds (ds ++ [d]) (t.addFunction h (h.declared origin)).1 ∧
      (t.addFunction h (h.declared origin)).2 =
        ((ds.find? (·.clashes d)).map (·.redefinition d)).toList := by
  have hclass : d.class? = none := by
    cases d <;> first | rfl | cases hd
  have hclasses : ∀ name, t.class? name = firstClass? (ds ++ [d]) name := by
    intro name
    rw [ht.classes name]
    simp [firstClass?, classesOf, hclass]
  have hfirst := @find?_functionsOf ds d h origin hd
  have hearlier : (t.function? h.name).bind (·.declaredAt) =
      ((functionsOf ds).find? (·.1.name == h.name)).map (·.1.span) := by
    rw [ht.functions, declaredAt_firstFunction?]
  unfold SymbolTable.addFunction
  rw [hearlier]
  cases hclash : ds.find? (·.clashes d) with
  | none =>
    rw [hclash, Option.bind_none] at hfirst
    simp only [hfirst, Option.map_none]
    refine ⟨⟨fun name => ?_, hclasses⟩, rfl⟩
    rw [function?_insert, firstFunction?_append hd, ht.functions, hfirst]
    simp
  | some a =>
    have ha : a.clashes d = true := by simpa using List.find?_some hclash
    obtain ⟨p, hp, hred⟩ := redefinition_function hd ha
    rw [hclash, Option.bind_some, hp] at hfirst
    simp only [hfirst, Option.map_some]
    refine ⟨⟨fun name => ?_, hclasses⟩, by rw [hred]; rfl⟩
    rw [firstFunction?_append hd, ht.functions, hfirst]
    simp

theorem declaredAt_firstClass? (ds : List Declaration) (name : String) :
    (firstClass? ds name).map (·.declaredAt) =
      ((classesOf ds).find? (·.1.name == name)).map (·.1.nameSpan) := by
  rw [firstClass?, Option.map_map]
  congr 1
  funext p
  exact declaredAt_addMembers p.2 _

/-- One class more. -/
theorem Holds.addClass (ht : Holds ds t) {h : ClassHeader} {members : List Member}
    (hd : d.class? = some (h, members)) :
    Holds (ds ++ [d]) (t.addClass h members).1 ∧
      (t.addClass h members).2 =
        ((ds.find? (·.clashes d)).map (·.redefinition d)).toList := by
  have hfunction : d.function? = none := by
    cases d <;> first | rfl | cases hd
  have hfunctions : ∀ name, t.function? name = firstFunction? (ds ++ [d]) name := by
    intro name
    rw [ht.functions name]
    simp [firstFunction?, functionsOf, hfunction]
  have hfirst := @find?_classesOf ds d h members hd
  have hearlier := declaredAt_firstClass? ds h.name
  rw [← ht.classes] at hearlier
  unfold SymbolTable.addClass
  cases hclash : ds.find? (·.clashes d) with
  | none =>
    rw [hclash, Option.bind_none] at hfirst
    rw [hfirst, Option.map_none, Option.map_eq_none_iff] at hearlier
    simp only [hearlier]
    refine ⟨⟨hfunctions, fun name => ?_⟩, rfl⟩
    rw [class?_insert, firstClass?_append hd, ht.classes, hfirst]
    simp [ClassHeader.declared]
  | some a =>
    have ha : a.clashes d = true := by simpa using List.find?_some hclash
    obtain ⟨p, hp, hred⟩ := redefinition_class hd ha
    rw [hclash, Option.bind_some, hp] at hfirst
    rw [hfirst, Option.map_some] at hearlier
    obtain ⟨earlier, hclass, hspan⟩ := Option.map_eq_some_iff.mp hearlier
    simp only [hclass]
    refine ⟨⟨hfunctions, fun name => ?_⟩, by rw [Option.map_some, hred, ← hspan]; rfl⟩
    rw [firstClass?_append hd, ht.classes, hfirst]
    simp

/-- **One declaration more**: what was first stays first, and a clash gives one error. -/
theorem Holds.add (ht : Holds ds t) (d : Declaration) :
    Holds (ds ++ [d]) (t.add d).1 ∧
      (t.add d).2 = ((ds.find? (·.clashes d)).map (·.redefinition d)).toList := by
  cases d with
  | function h => exact ht.addFunction (show (Declaration.function h).function? = _ from rfl)
  | external h => exact ht.addFunction (show (Declaration.external h).function? = _ from rfl)
  | classDef h members => exact ht.addClass rfl

/-- All declarations in order, behind those that the table holds. -/
theorem Holds.addAll (ht : Holds ds t) (more : List Declaration) :
    Holds (ds ++ more) (t.addAll more).1 ∧
      (t.addAll more).2 = (List.range more.length).filterMap fun k =>
        more[k]?.bind fun d => ((ds ++ more.take k).find? (·.clashes d)).map (·.redefinition d) := by
  induction more generalizing ds t with
  | nil => exact ⟨by rw [List.append_nil]; exact ht, rfl⟩
  | cons d more ih =>
    obtain ⟨hadd, herr⟩ := ht.add d
    obtain ⟨hrest, herrs⟩ := ih hadd
    rw [List.append_assoc, List.singleton_append] at hrest
    refine ⟨hrest, ?_⟩
    show (t.add d).2 ++ ((t.add d).1.addAll more).2 = _
    rw [herr, herrs, List.length_cons, List.range_succ_eq_map, List.filterMap_cons,
      List.filterMap_map]
    simp only [List.getElem?_cons_zero, Option.bind_some, List.take_zero, List.append_nil,
      Function.comp_def, List.getElem?_cons_succ, List.take_succ_cons, List.append_assoc,
      List.singleton_append]
    cases (ds.find? (·.clashes d)).map (·.redefinition d) <;> rfl

end Add

/-- **The tables are exactly the first declarations.** A function is looked up among the collected
function and external headers, and only behind them among the built-in ones; a class among the
collected classes. Each later declaration of a name gives exactly one error, in order, at its own
place and with the line and span of the first. -/
theorem collect_eq_first (ts : List Token) :
    (∀ name, (collect ts).1.function? name =
      match (functionsOf (collected ts)).find? (·.1.name == name) with
      | some (h, origin) => some (h.declared origin)
      | none => if name = "printd" then some printd else none) ∧
    (∀ name, (collect ts).1.class? name =
      ((classesOf (collected ts)).find? (·.1.name == name)).map fun (h, members) =>
        h.declared members) ∧
    (collect ts).2 = redefinitions (collected ts) := by
  obtain ⟨hholds, herrors⟩ := holds_builtins.addAll (collected ts)
  rw [List.nil_append] at hholds
  rw [collect, declarations_eq_collected]
  refine ⟨hholds.functions, hholds.classes, ?_⟩
  rw [herrors]
  rfl

end SymbolTable

end AuroraLint
