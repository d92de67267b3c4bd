import AuroraLint.Proofs.Checked.Header
import AuroraLint.Symbols.Collect

/-!
# Collecting symbols never fails

* `Checked.membersOf`    : the members of a class body, with every index and range checked.
* `Checked.declarations` : the functions and classes of a document, likewise.

Main statement: `collect_eq_ok` — going through the tokens of a document, and through those of the
bodies of its classes, stays within them.
-/

set_option autoImplicit false

namespace AuroraLint.Checked

/-! ## Members -/

/-- As `VarDecl.fieldType`, with the range of the initial value checked. -/
def fieldType (ts : List Token) (d : VarDecl) : Checked Ty :=
  match d.type, d.init with
  | some t, _ => pure (Ty.ofName t.text)
  | none, some e => do
    let part ← range ts e.start e.stop
    return Ty.infer (joinLexemes part)
  | none, none => pure .double

/-- The field whose declaration starts at token `i`, and the index of its last token. -/
def fieldAt (ts : List Token) (i : Nat) : Checked (Option (Member × Nat)) := do
  let (decl, c) ← readAt .varDecl ts i
  match decl with
  | some d => do
    let type ← fieldType ts d
    let last ← sub c.pos 1
    return some (.field d.name type, last)
  | none => return none

/-- As `AuroraLint.memberAt`. -/
def memberAt (className : String) (ts : List Token) (i : Nat) :
    Checked (Option (Member × Nat)) := do
  ended ts
  match kindAt ts i with
  | .kwLet | .kwVar => fieldAt ts i
  | .kwFn => do
    let header ← fnHeaderAt ts i
    return header.map fun h => (.method h.name (h.signature .double .method), h.last)
  | .kwConstructor => do
    let header ← constructorHeaderAt ts i
    return header.map fun h =>
      (.method ClassInfo.constructorName (h.constructorSignature className), h.last)
  | _ => return none

/-- As `AuroraLint.membersFrom`, for `n` tokens from index `i` on. -/
def membersFrom (className : String) (ts : List Token) (depth resume i : Nat) :
    Nat → Checked (List Member)
  | 0 => pure []
  | n + 1 =>
    if i < resume then membersFrom className ts depth resume (i + 1) n
    else do
      let t ← item ts i
      if t.kind = .leftBrace then membersFrom className ts (depth + 1) resume (i + 1) n
      else if t.kind = .rightBrace then membersFrom className ts (depth - 1) resume (i + 1) n
      else if 0 < depth then membersFrom className ts depth resume (i + 1) n
      else do
        let member ← memberAt className ts (if t.kind = .kwPub then i + 1 else i)
        match member with
        | some (m, last) => do
          let others ← membersFrom className ts depth (last + 1) (i + 1) n
          return m :: others
        | none => membersFrom className ts depth resume (i + 1) n

/-- As `AuroraLint.membersOf`. -/
def membersOf (className : String) (ts : List Token) (opener closer : Nat) :
    Checked (List Member) :=
  membersFrom className ts 0 (opener + 1) (opener + 1) (closer - (opener + 1))

section

variable {ts : List Token} {i : Nat}

theorem fieldAt_eq_ok (hts : EndsInEof ts) :
    fieldAt ts i = .ok (match AuroraLint.Reading.varDecl ⟨ts, i⟩ with
      | (some d, c) => some (.field d.name (d.fieldType ts), c.pos - 1)
      | (none, _) => none) := by
  rw [fieldAt, readAt_eq_ok hts (Reading.varDecl_eq_ok hts), ok_bind]
  cases hread : AuroraLint.Reading.varDecl ⟨ts, i⟩ with
  | mk decl c =>
    cases decl with
    | none => rfl
    | some d =>
      obtain ⟨stop, rfl, hr⟩ := (AuroraLint.Reading.varDecl_eq_some_iff hts).mp hread
      obtain ⟨hstop, hlen⟩ := hr.bounds hts
      have htype : fieldType ts d = .ok (d.fieldType ts) := by
        unfold fieldType VarDecl.fieldType
        cases d.type with
        | some t => rfl
        | none =>
          cases hinit : d.init with
          | none => rfl
          | some e =>
            obtain ⟨_, hlt, hend⟩ := hr.init_bounds hts hinit
            simp only [extent_eq_ok (Nat.le_of_lt hlt) (Nat.le_of_lt hend), ok_bind]
            rfl
      simp only [htype, ok_bind, sub_eq_ok (show 1 ≤ stop by omega)]
      rfl

theorem memberAt_eq_ok (className : String) (hts : EndsInEof ts) (hi : i < ts.length) :
    memberAt className ts i = .ok (AuroraLint.memberAt className ts i) := by
  rw [memberAt, AuroraLint.memberAt, ended_eq_ok hts, ok_bind]
  cases kindAt ts i with
  | kwLet | kwVar => exact fieldAt_eq_ok hts
  | kwFn =>
    rw [fnHeaderAt_eq_ok hts hi]
    rfl
  | kwConstructor =>
    rw [constructorHeaderAt_eq_ok hts hi]
    rfl
  | _ => rfl

theorem membersFrom_cons_of_ne {className : String} {depth resume : Nat} {t : Token}
    {body : List Token} (hresume : ¬ i < resume) (hopen : t.kind ≠ .leftBrace)
    (hclose : t.kind ≠ .rightBrace) :
    AuroraLint.membersFrom className ts depth resume i (t :: body) =
      if 0 < depth then AuroraLint.membersFrom className ts depth resume (i + 1) body
      else
        match AuroraLint.memberAt className ts (if t.kind = .kwPub then i + 1 else i) with
        | some (m, last) =>
          m :: AuroraLint.membersFrom className ts depth (last + 1) (i + 1) body
        | none => AuroraLint.membersFrom className ts depth resume (i + 1) body := by
  rw [AuroraLint.membersFrom, if_neg hresume]
  split
  · exact absurd ‹_› hopen
  · exact absurd ‹_› hclose
  · rfl

/-- A member may start one token behind the one looked at, so the walk ends before the last one. -/
theorem membersFrom_eq_ok (className : String) (hts : EndsInEof ts) (depth resume : Nat) {n : Nat}
    (h : i + n < ts.length) :
    membersFrom className ts depth resume i n =
      .ok (AuroraLint.membersFrom className ts depth resume i ((ts.drop i).take n)) := by
  induction n generalizing depth resume i with
  | zero => rfl
  | succ n ih =>
    rw [drop_eq_tokenAt_cons (by omega), List.take_succ_cons]
    unfold membersFrom
    by_cases hresume : i < resume
    · rw [AuroraLint.membersFrom, if_pos hresume, if_pos hresume]
      exact ih _ _ (by omega)
    · rw [if_neg hresume, token_eq_ok (by omega), ok_bind]
      by_cases hopen : (tokenAt ts i).kind = .leftBrace
      · simp only [AuroraLint.membersFrom, if_neg hresume, hopen, if_true]
        exact ih _ _ (by omega)
      · by_cases hclose : (tokenAt ts i).kind = .rightBrace
        · simp only [AuroraLint.membersFrom, if_neg hresume, hclose, if_true, reduceCtorEq, if_false]
          exact ih _ _ (by omega)
        · rw [if_neg hopen, if_neg hclose, membersFrom_cons_of_ne hresume hopen hclose]
          by_cases hdepth : 0 < depth
          · rw [if_pos hdepth, if_pos hdepth]
            exact ih _ _ (by omega)
          · rw [if_neg hdepth, if_neg hdepth, memberAt_eq_ok className hts (by split <;> omega),
              ok_bind]
            cases AuroraLint.memberAt className ts _ with
            | none => exact ih _ _ (by omega)
            | some found =>
              simp only [ih _ _ (show i + 1 + n < ts.length by omega), ok_bind]
              rfl

theorem membersOf_eq_ok (className : String) (hts : EndsInEof ts) {opener closer : Nat}
    (hopener : opener + 1 < ts.length) (hcloser : closer < ts.length) :
    membersOf className ts opener closer =
      .ok (AuroraLint.membersOf className ts opener closer) :=
  membersFrom_eq_ok className hts 0 _ (by omega)

end

/-! ## Declarations -/

/-- As `ClassHeader.members`. -/
def classMembers (ts : List Token) (h : ClassHeader) : Checked (List Member) :=
  match h.body with
  | some opener => membersOf h.name ts opener (blockEnd ts opener)
  | none => pure []

/-- As `AuroraLint.declarationAt`. -/
def declarationAt (ts : List Token) (i : Nat) : Checked (Option (Declaration × Nat)) := do
  let t ← item ts i
  match t.kind with
  | .kwExtern => do
    let header ← externHeaderAt ts i
    return header.map fun h => (.external h, h.last)
  | .kwFn => do
    let header ← fnHeaderAt ts i
    return header.map fun h => (.function h, h.last)
  | .kwClass => do
    let header ← classHeaderAt ts i
    match header with
    | some h => do
      let members ← classMembers ts h
      return some (.classDef h members, h.lastToken ts)
    | none => return none
  | _ => return none

/-- As `AuroraLint.declarationsFrom`, for `n` tokens from index `i` on. -/
def declarationsFrom (ts : List Token) (resume i : Nat) : Nat → Checked (List Declaration)
  | 0 => pure []
  | n + 1 =>
    if i < resume then declarationsFrom ts resume (i + 1) n
    else do
      let declaration ← declarationAt ts i
      match declaration with
      | some (d, last) => do
        let others ← declarationsFrom ts (last + 1) (i + 1) n
        return d :: others
      | none => declarationsFrom ts resume (i + 1) n

/-- As `SymbolTable.collect`. -/
def collect (ts : List Token) : Checked (SymbolTable × List Diagnostic) := do
  let declarations ← declarationsFrom ts 0 0 ts.length
  return SymbolTable.builtins.addAll declarations

section

variable {ts : List Token} {i : Nat}

theorem classMembers_eq_ok (hts : EndsInEof ts) {h : ClassHeader} (hr : h.ReadAt ts i) :
    classMembers ts h = .ok (h.members ts) := by
  unfold classMembers ClassHeader.members
  cases hbody : h.body with
  | none => rfl
  | some opener =>
    have hopener := hts.succ_lt_of_eq (hr.body_spec hbody).2 nofun
    exact membersOf_eq_ok h.name hts hopener (blockEnd_spec (by omega)).2

theorem declarationAt_eq_ok (hts : EndsInEof ts) (hi : i < ts.length) :
    declarationAt ts i = .ok (AuroraLint.declarationAt ts i) := by
  rw [declarationAt, AuroraLint.declarationAt, token_eq_ok hi, ok_bind, kindAt]
  cases (tokenAt ts i).kind with
  | kwExtern =>
    rw [externHeaderAt_eq_ok hts hi]
    rfl
  | kwFn =>
    rw [fnHeaderAt_eq_ok hts hi]
    rfl
  | kwClass =>
    simp only [classHeaderAt_eq_ok hts, ok_bind]
    cases hheader : AuroraLint.classHeaderAt ts i with
    | none => rfl
    | some h =>
      simp only [classMembers_eq_ok hts ((classHeaderAt_eq_some_iff hts).mp hheader), ok_bind]
      rfl
  | _ => rfl

theorem declarationsFrom_eq_ok (hts : EndsInEof ts) (resume : Nat) {n : Nat}
    (h : i + n = ts.length) :
    declarationsFrom ts resume i n =
      .ok (AuroraLint.declarationsFrom ts resume i (ts.drop i)) := by
  induction n generalizing resume i with
  | zero =>
    rw [List.drop_eq_nil_of_le (by omega)]
    rfl
  | succ n ih =>
    rw [drop_eq_tokenAt_cons (by omega)]
    unfold declarationsFrom AuroraLint.declarationsFrom
    by_cases hresume : i < resume
    · rw [if_pos hresume, if_pos hresume]
      exact ih _ (by omega)
    · rw [if_neg hresume, if_neg hresume, declarationAt_eq_ok hts (by omega), ok_bind]
      cases AuroraLint.declarationAt ts i with
      | none => exact ih _ (by omega)
      | some found =>
        simp only [ih _ (show i + 1 + n = ts.length by omega), ok_bind]
        rfl

theorem collect_eq_ok (hts : EndsInEof ts) : collect ts = .ok (SymbolTable.collect ts) := by
  rw [collect, declarationsFrom_eq_ok hts 0 (Nat.zero_add _), ok_bind]
  rfl

end

end AuroraLint.Checked
