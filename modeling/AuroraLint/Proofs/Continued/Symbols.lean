import AuroraLint.Proofs.Continued.Header
import AuroraLint.Symbols.Collect

/-!
# Symbols of a document that goes on

No declaration of a balanced document reaches over its end, so a declaration below it is collected,
as the last one.

* `SymbolTable.withFunction` : a table with one function more.

Main statements: `Continued.declarationAt` — the declarations of the document stay, and end in it;
`Continued.declarations` — one more stands behind them; `Continued.collect` — the table with it.
-/

set_option autoImplicit false

namespace AuroraLint

/-- Where every token belongs to a declaration already found, or starts none, there is none. -/
theorem declarationsFrom_eq_nil {ts : List Token} {resume i : Nat} {rest : List Token}
    (h : ∀ j, i ≤ j → j < i + rest.length → j < resume ∨ declarationAt ts j = none) :
    declarationsFrom ts resume i rest = [] := by
  induction rest generalizing i with
  | nil => rfl
  | cons t rest ih =>
    have hrest : declarationsFrom ts resume (i + 1) rest = [] :=
      ih fun j hle hlt => h j (by omega) (by rw [List.length_cons]; omega)
    rw [declarationsFrom]
    rcases h i (Nat.le_refl i) (by rw [List.length_cons]; omega) with hlt | hnone
    · rw [if_pos hlt, hrest]
    · rw [hnone, hrest, ite_self]

namespace SymbolTable

/-- The table with a function of the given name. -/
def withFunction (t : SymbolTable) (name : String) (s : Signature) : SymbolTable :=
  { t with functions := t.functions.insert name s }

theorem addAll_append (t : SymbolTable) (ds : List Declaration) (d : Declaration) :
    (t.addAll (ds ++ [d])).1 = ((t.addAll ds).1.add d).1 := by
  induction ds generalizing t with
  | nil => rfl
  | cons first ds ih => exact ih (t.add first).1

end SymbolTable

namespace Continued

variable {front ts ts' : List Token} {i : Nat}

/-! ## Members -/

theorem fieldType (h : Continued front ts ts') {d : VarDecl} {stop : Nat}
    (hd : d.ReadAt ts i stop) : d.fieldType ts' = d.fieldType ts := by
  unfold VarDecl.fieldType
  split
  · rfl
  · rename_i e _ hinit
    have hstop := (hd.init_bounds h.endsInEof hinit).2.2
    rw [h.length_eq] at hstop
    rw [h.extentTokens (Nat.le_of_lt_succ hstop)]
  · rfl

theorem memberAt (h : Continued front ts ts') (className : String) (hi : i < front.length) :
    memberAt className ts' i = memberAt className ts i := by
  unfold AuroraLint.memberAt
  rw [h.kindAt hi, h.varDecl hi, h.fnHeaderAt hi, h.constructorHeaderAt hi]
  cases AuroraLint.kindAt ts i with
  | kwLet | kwVar =>
    cases hread : Reading.varDecl ⟨ts, i⟩ with
    | mk found c =>
      cases found with
      | none => rfl
      | some d =>
        obtain ⟨stop, _, hd⟩ := (Reading.varDecl_eq_some_iff h.endsInEof).mp hread
        simp only [h.fieldType hd]
  | _ => rfl

theorem membersFrom (h : Continued front ts ts') (className : String) {depth resume : Nat}
    {body : List Token} (hbody : i + body.length < front.length) :
    membersFrom className ts' depth resume i body =
      membersFrom className ts depth resume i body := by
  induction body generalizing depth resume i with
  | nil => rfl
  | cons t body ih =>
    rw [List.length_cons] at hbody
    have hrest : ∀ depth resume, AuroraLint.membersFrom className ts' depth resume (i + 1) body =
        AuroraLint.membersFrom className ts depth resume (i + 1) body :=
      fun depth resume => ih (by omega)
    have hstart : AuroraLint.memberAt className ts' (if t.kind = .kwPub then i + 1 else i) =
        AuroraLint.memberAt className ts (if t.kind = .kwPub then i + 1 else i) :=
      h.memberAt className (by split <;> omega)
    simp only [AuroraLint.membersFrom, hrest]
    split
    · rfl
    · split
      · rfl
      · rfl
      · rw [hstart]

theorem members (h : Continued front ts ts') {c : ClassHeader} (hc : c.ReadAt ts i) :
    c.members ts' = c.members ts ∧ c.lastToken ts' = c.lastToken ts := by
  unfold ClassHeader.members ClassHeader.lastToken
  cases hbody : c.body with
  | none => exact ⟨rfl, rfl⟩
  | some opener =>
    obtain ⟨hend, hopener, hlt⟩ := h.blockEnd (hc.body_spec hbody).2
    have hwithin : opener + 1 + ((ts.drop (opener + 1)).take
        (AuroraLint.blockEnd ts opener - (opener + 1))).length < front.length := by
      rw [List.length_take]
      omega
    simp only [membersOf, hend, h.slice_eq (Nat.le_of_lt hlt), h.membersFrom c.name hwithin,
      and_self]

/-! ## Declarations -/

/-- A declaration of the document ends in it. -/
theorem last_lt (h : Continued front ts ts') {d : Declaration} {last : Nat}
    (hd : declarationAt ts i = some (d, last)) : last < front.length := by
  have hnamed : ∀ {word : Kind} {header : FnHeader}, header.NamedAt ts i word →
      header.last < front.length := by
    intro word header hheader
    have := (hheader.readAt.bounds h.endsInEof).2
    rw [h.length_eq] at this
    omega
  unfold AuroraLint.declarationAt at hd
  split at hd
  · obtain ⟨header, hheader, heq⟩ := Option.map_eq_some_iff.mp hd
    rw [← (Prod.mk.inj heq).2]
    exact hnamed ((externHeaderAt_eq_some_iff h.endsInEof).mp hheader)
  · obtain ⟨header, hheader, heq⟩ := Option.map_eq_some_iff.mp hd
    rw [← (Prod.mk.inj heq).2]
    exact hnamed ((fnHeaderAt_eq_some_iff h.endsInEof).mp hheader)
  · obtain ⟨header, hheader, heq⟩ := Option.map_eq_some_iff.mp hd
    have hread := (classHeaderAt_eq_some_iff h.endsInEof).mp hheader
    rw [← (Prod.mk.inj heq).2, ClassHeader.lastToken]
    split
    · rename_i opener hbody
      exact (h.blockEnd (hread.body_spec hbody).2).2.2
    · have hname := h.lt_length hread.name_kind nofun
      have := (listEnd_bounds h.endsInEof (p := i + 2) (by rw [h.length_eq]; omega)).2
      rw [← hread.last_eq, h.length_eq] at this
      omega
  · cases hd

theorem declarationAt (h : Continued front ts ts') (hi : i < front.length) :
    declarationAt ts' i = declarationAt ts i := by
  unfold AuroraLint.declarationAt
  rw [h.kindAt hi, h.externHeaderAt hi, h.fnHeaderAt hi, h.classHeaderAt hi]
  split
  · rfl
  · rfl
  · cases hc : AuroraLint.classHeaderAt ts i with
    | none => rfl
    | some c =>
      obtain ⟨hmembers, hlast⟩ := h.members ((classHeaderAt_eq_some_iff h.endsInEof).mp hc)
      simp only [Option.map_some, hmembers, hlast]
  · rfl

/-- The walk over the rest of the document, and over what follows. The invariant is that no
declaration found so far reaches over the end of the document. -/
theorem declarationsFrom (h : Continued front ts ts') {d : Declaration} {stop : Nat}
    (hd : AuroraLint.declarationAt ts' front.length = some (d, stop)) {rest tail : List Token}
    {eof word : Token}
    (htail : AuroraLint.declarationsFrom ts' (stop + 1) (front.length + 1) tail = [])
    {resume : Nat} (hi : i + rest.length = front.length) (hresume : resume ≤ front.length) :
    declarationsFrom ts' resume i (rest ++ word :: tail) =
      declarationsFrom ts resume i (rest ++ [eof]) ++ [d] := by
  induction rest generalizing resume i with
  | nil =>
    obtain rfl : i = front.length := hi
    have hnone : AuroraLint.declarationAt ts front.length = none := by
      rw [AuroraLint.declarationAt, h.kindAt_length.1]
    have hnot : ¬ front.length < resume := by omega
    simp only [List.nil_append, AuroraLint.declarationsFrom, hnot, if_false, hd, htail, hnone]
  | cons t rest ih =>
    rw [List.length_cons] at hi
    rw [List.cons_append, List.cons_append, AuroraLint.declarationsFrom,
      AuroraLint.declarationsFrom, h.declarationAt (by omega)]
    split
    · exact ih (by omega) hresume
    · cases hfound : AuroraLint.declarationAt ts i with
      | none => exact ih (by omega) hresume
      | some found =>
        obtain ⟨first, last⟩ := found
        have hlast := h.last_lt hfound
        have hrest := ih (i := i + 1) (by omega) hlast
        simp only [hrest, List.cons_append]

/-- **A declaration below the document is collected behind its declarations**, if no other starts
behind it. -/
theorem declarations (h : Continued front ts ts') {d : Declaration} {last : Nat}
    (hd : AuroraLint.declarationAt ts' front.length = some (d, last))
    (hlast : ts'.length = last + 2) : declarations ts' = declarations ts ++ [d] := by
  obtain ⟨eof, hts⟩ := h.ends
  obtain ⟨word, tail, hts', _⟩ := h.goesOn
  have htail : AuroraLint.declarationsFrom ts' (last + 1) (front.length + 1) tail = [] := by
    refine declarationsFrom_eq_nil fun j _ hj => ?_
    rw [hts'] at hlast
    simp only [List.length_append, List.length_cons] at hlast
    by_cases hj' : j < last + 1
    · exact .inl hj'
    · have hend : AuroraLint.kindAt ts' j = .eof :=
        h.endsInEof'.kindAt_eq_eof_iff.mpr (by rw [hts']; simp; omega)
      exact .inr (by rw [AuroraLint.declarationAt, hend])
  have hwalk := @declarationsFrom front ts ts' 0 h d last hd front tail eof word htail 0 (by simp)
    (Nat.zero_le _)
  rw [AuroraLint.declarations, AuroraLint.declarations]
  rwa [← hts, ← hts'] at hwalk

/-- **The symbols of the document and of a function below it**, whose name is no other's. -/
theorem collect (h : Continued front ts ts') {header : FnHeader}
    (hheader : AuroraLint.externHeaderAt ts' front.length = some header)
    (hlast : ts'.length = header.last + 2)
    (hfresh : (SymbolTable.collect ts).1.function? header.name = none) :
    (SymbolTable.collect ts').1 =
      (SymbolTable.collect ts).1.withFunction header.name (header.signature .double .external) := by
  have hd : AuroraLint.declarationAt ts' front.length = some (.external header, header.last) := by
    rw [AuroraLint.declarationAt, h.kindAt_length.2, hheader]
    rfl
  unfold SymbolTable.collect at hfresh ⊢
  rw [h.declarations hd hlast, SymbolTable.addAll_append]
  simp only [SymbolTable.add, SymbolTable.addFunction, hfresh, Option.bind_none]
  rfl

end Continued

end AuroraLint
