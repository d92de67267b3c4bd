import AuroraLint.Proofs.Bodies
import AuroraLint.Proofs.Matching
import AuroraLint.Proofs.Verdicts

/-!
# Every bracket is accounted for once

The verdicts are not seen from outside; the errors are. By its span and its related places an error
tells which brackets it is about, and by its first words what happened to them.

* `Brackets.Fault`       : the three errors of the validator, told by the first words of the message.
* `Brackets.errorsAt`    : the errors that point at a token.
* `Brackets.ErrorAt`     : an error with the tokens that it points at.
* `Brackets.CloserFate`, `Brackets.OpenerFate` : what becomes of a bracket, as its errors show it.

Main statements: `Brackets.errorsAt_eq` — the errors that point at a token are those of the verdicts
that use it; `Brackets.exists_closerFate` and `Brackets.exists_openerFate` — every bracket has a
fate; `Brackets.brackets_accounted` — all brackets of a text, with their numbers and the order of
the errors.
-/

set_option autoImplicit false

namespace AuroraLint

namespace Brackets

/-! ## Errors by their words and places -/

/-- What an error of the validator is about. -/
inductive Fault where
  | mismatched
  | unexpected
  | unclosed
  deriving DecidableEq, Repr

/-- The first words of the message. -/
def Fault.words : Fault → String
  | .mismatched => "Mismatched"
  | .unexpected => "Unexpected closing"
  | .unclosed => "Unclosed"

/-- The fault of a bracket that is not matched. -/
def Verdict.fault? : Verdict → Option Fault
  | .matched .. => none
  | .mismatched .. => some .mismatched
  | .unexpected .. => some .unexpected
  | .unclosed _ => some .unclosed

end Brackets

namespace Diagnostic

/-- The message starts with the words of the fault. -/
def reports (d : Diagnostic) (fault : Brackets.Fault) : Bool :=
  fault.words.toList.isPrefixOf d.message.toList

/-- The span is that of the diagnostic or of one of its related places. -/
def PointsAt (d : Diagnostic) (s : Span) : Prop :=
  d.span = some s ∨ ∃ r ∈ d.related, r.span = s

instance (d : Diagnostic) (s : Span) : Decidable (d.PointsAt s) :=
  inferInstanceAs (Decidable (_ ∨ _))

end Diagnostic

namespace Brackets

/-- The errors that point at token `k`. -/
def errorsAt (ts : List Token) (k : Nat) : List Diagnostic :=
  (check ts).filter (·.PointsAt (tokenAt ts k).span)

/-- `d` is the error of a fault at token `k`, with the tokens `related` as its related places. -/
structure ErrorAt (ts : List Token) (fault : Fault) (k : Nat) (related : List Nat)
    (d : Diagnostic) : Prop where
  reports : d.reports fault = true
  span_eq : d.span = some (tokenAt ts k).span
  related_eq : d.related.map (·.span) = related.map fun i => (tokenAt ts i).span

/-- The words of an error tell the fault of its verdict. -/
theorem reports_eq {v : Verdict} {d : Diagnostic} (h : v.diagnostic? = some d) (fault : Fault) :
    d.reports fault = (v.fault? == some fault) := by
  cases v with
  | matched o j c => cases h
  | mismatched o j c found | unexpected j c found | unclosed o =>
    obtain rfl := Option.some.inj h
    cases fault <;>
      simp [Diagnostic.reports, Fault.words, Verdict.fault?, Diagnostic.error,
        Diagnostic.withRelated, String.append_assoc, toString, List.isPrefixOf]

/-- An error reports one fault at most. -/
theorem reports_inj {d : Diagnostic} {fault fault' : Fault} (h : d.reports fault = true)
    (h' : d.reports fault' = true) : fault = fault' := by
  rw [Diagnostic.reports, List.isPrefixOf_iff_prefix] at h h'
  have hwords : ∀ f f' : Fault, f.words.toList <+: f'.words.toList → f = f' := by
    intro f f' hprefix
    cases f <;> cases f' <;> simp_all [Fault.words]
  rcases List.prefix_or_prefix_of_prefix h h' with hprefix | hprefix
  · exact hwords _ _ hprefix
  · exact (hwords _ _ hprefix).symm

/-! ## Errors and the verdicts they come from -/

section Stream

variable {file : String} {text : List Char} {ts : List Token} {i j k : Nat} {v : Verdict}
  {d : Diagnostic}

/-- A verdict with an error has a fault and uses a bracket. -/
theorem Verdict.exists_places (hd : v.diagnostic? = some d) :
    ∃ fault k related, v.fault? = some fault ∧ v.places = k :: related := by
  cases v with
  | matched => cases hd
  | mismatched o j c found => exact ⟨.mismatched, j, [o.index], rfl, rfl⟩
  | unexpected j c found => exact ⟨.unexpected, j, [], rfl, rfl⟩
  | unclosed o => exact ⟨.unclosed, o.index, [], rfl, rfl⟩

/-- The error of a sound verdict is at the brackets that the verdict uses. -/
theorem Verdict.Sound.errorAt (hv : v.Sound ts) (hd : v.diagnostic? = some d) {fault : Fault}
    {related : List Nat} (hfault : v.fault? = some fault) (hplaces : v.places = k :: related) :
    ErrorAt ts fault k related d := by
  have hreports : d.reports fault = true := by
    rw [reports_eq hd, hfault]
    exact beq_self_eq_true _
  cases hv with
  | matched => cases hd
  | @mismatched o j shape ho _ _ _ =>
    obtain rfl := Option.some.inj hd
    obtain ⟨rfl, rfl⟩ := List.cons.inj hplaces
    refine ⟨hreports, rfl, ?_⟩
    show [o.token.span] = [(tokenAt ts o.index).span]
    rw [ho.1]
  | unexpected _ =>
    obtain rfl := Option.some.inj hd
    obtain ⟨rfl, rfl⟩ := List.cons.inj hplaces
    exact ⟨hreports, rfl, rfl⟩
  | @unclosed o ho =>
    obtain rfl := Option.some.inj hd
    obtain ⟨rfl, rfl⟩ := List.cons.inj hplaces
    refine ⟨hreports, ?_, rfl⟩
    show some o.token.span = some (tokenAt ts o.index).span
    rw [ho.1]

theorem span_eq_iff (hstream : TokenStream file text ts) (hi : i < ts.length) (hk : k < ts.length) :
    (tokenAt ts i).span = (tokenAt ts k).span ↔ i = k := by
  constructor
  · intro h
    exact hstream.index_eq_of_start_eq hi hk (by rw [h])
  · rintro rfl
    rfl

/-- An error points at the brackets that its verdict uses, and at no other token. -/
theorem pointsAt_iff (hstream : TokenStream file text ts) (hv : v.Sound ts)
    (hd : v.diagnostic? = some d) (hk : k < ts.length) :
    d.PointsAt (tokenAt ts k).span ↔ k ∈ v.places := by
  obtain ⟨fault, i, related, hfault, hplaces⟩ := Verdict.exists_places hd
  have herror := hv.errorAt hd hfault hplaces
  have hlt : ∀ i' ∈ i :: related, i' < ts.length := fun i' hi' => hv.lt_length (hplaces ▸ hi')
  have hrelated : (∃ r ∈ d.related, r.span = (tokenAt ts k).span) ↔
      (tokenAt ts k).span ∈ d.related.map (·.span) := List.mem_map.symm
  rw [Diagnostic.PointsAt, hrelated, herror.span_eq, herror.related_eq, hplaces, List.mem_map,
    Option.some.injEq, span_eq_iff hstream (hlt i List.mem_cons_self) hk, List.mem_cons, eq_comm]
  refine or_congr_right ⟨?_, fun hmem => ⟨k, hmem, rfl⟩⟩
  rintro ⟨i', hi', hspan⟩
  rwa [← (span_eq_iff hstream (hlt i' (List.mem_cons_of_mem _ hi')) hk).mp hspan]

/-- **The errors that point at a token** are those of the verdicts that use it. -/
theorem errorsAt_eq (hstream : TokenStream file text ts) (hk : k < ts.length) :
    errorsAt ts k = ((verdicts ts).filter (k ∈ ·.places)).filterMap Verdict.diagnostic? := by
  rw [errorsAt, check, List.filter_filterMap, List.filterMap_filter]
  refine List.filterMap_congr fun v hv => ?_
  cases hd : v.diagnostic? with
  | none => simp
  | some d =>
    have hpoints := pointsAt_iff hstream (sound_verdicts hv) hd hk
    by_cases hmem : k ∈ v.places <;> simp [hpoints, hmem, Option.filter]

/-! ## One bracket -/

/-- `v` is the one verdict that uses token `k`. -/
structure OnlyVerdict (ts : List Token) (k : Nat) (v : Verdict) : Prop where
  sound : v.Sound ts
  mem : v ∈ verdicts ts
  unique : ∀ v' ∈ verdicts ts, k ∈ v'.places → v' = v
  errorsAt_eq : errorsAt ts k = v.diagnostic?.toList

/-- A verdict that alone uses token `k` in one way is the one verdict that uses it, if the token
cannot be used in another way. -/
theorem exists_onlyVerdict (hstream : TokenStream file text ts) (hk : k < ts.length)
    {use : Verdict → Option Nat} (h : ∃ v, (verdicts ts).filter (use · == some k) = [v])
    (hsame : ∀ v, v.Sound ts → (use v = some k ↔ k ∈ v.places)) :
    ∃ v, use v = some k ∧ OnlyVerdict ts k v := by
  obtain ⟨v, hv⟩ := h
  have hmem : ∀ v', v' ∈ verdicts ts ∧ use v' = some k ↔ v' = v := by
    intro v'
    rw [← @List.mem_singleton _ v' v, ← hv, List.mem_filter, beq_iff_eq]
  obtain ⟨hv', huse⟩ := (hmem v).mpr rfl
  refine ⟨v, huse, sound_verdicts hv', hv', fun v' hmem' hk' => ?_, ?_⟩
  · exact (hmem v').mp ⟨hmem', (hsame v' (sound_verdicts hmem')).mpr hk'⟩
  · have hfilter : (verdicts ts).filter (k ∈ ·.places) = [v] := by
      rw [← hv]
      refine List.filter_congr fun v' hmem' => Bool.eq_iff_iff.mpr ?_
      rw [decide_eq_true_eq, beq_iff_eq, hsame v' (sound_verdicts hmem')]
    rw [errorsAt_eq hstream hk, hfilter]
    cases hd : v.diagnostic? <;> simp [hd]

/-- **A closer is used by one verdict**, the one that is on it. -/
theorem exists_onlyVerdict_of_closes (hstream : TokenStream file text ts) {shape : BracketShape}
    (hk : (kindAt ts k).closes? = some shape) :
    ∃ v, v.closer? = some k ∧ OnlyVerdict ts k v := by
  refine exists_onlyVerdict hstream (lt_length_of_closes hk) (exists_verdict_of_closes hk)
    fun v hv => ?_
  have hopener : v.opener? ≠ some k := by
    intro heq
    obtain ⟨shape', hshape'⟩ := hv.opens_of_opener? heq
    rw [Kind.closes?_of_opens? hshape'] at hk
    cases hk
  simp [Verdict.places, hopener]

/-- **An opener is used by one verdict**, the one that uses it up. -/
theorem exists_onlyVerdict_of_opens (hstream : TokenStream file text ts) {shape : BracketShape}
    (hk : (kindAt ts k).opens? = some shape) :
    ∃ v, v.opener? = some k ∧ OnlyVerdict ts k v := by
  refine exists_onlyVerdict hstream (lt_length_of_opens hk) (exists_verdict_of_opens hk)
    fun v hv => ?_
  have hcloser : v.closer? ≠ some k := by
    intro heq
    obtain ⟨shape', hshape'⟩ := hv.closes_of_closer? heq
    rw [Kind.closes?_of_opens? hk] at hshape'
    cases hshape'
  simp [Verdict.places, hcloser]

theorem Verdict.mem_places_of_pair? (h : v.pair? = some (i, j)) : i ∈ v.places ∧ j ∈ v.places := by
  cases v with
  | matched o j' c =>
    obtain ⟨rfl, rfl⟩ := Prod.mk.inj (Option.some.inj h)
    simp [Verdict.places, Verdict.opener?, Verdict.closer?]
  | mismatched | unexpected | unclosed => cases h

/-- A bracket has a partner if its verdict is a match. -/
theorem OnlyVerdict.partner_iff (h : OnlyVerdict ts k v) (hk : k = i ∨ k = j) :
    Partner ts i j ↔ v.pair? = some (i, j) := by
  rw [Partner, List.mem_filterMap]
  constructor
  · rintro ⟨v', hv', hpair⟩
    obtain ⟨hi, hj⟩ := Verdict.mem_places_of_pair? hpair
    have hplace : k ∈ v'.places := by
      rcases hk with rfl | rfl
      · exact hi
      · exact hj
    rw [← h.unique v' hv' hplace]
    exact hpair
  · intro hpair
    exact ⟨v, h.mem, hpair⟩

/-- What becomes of the closer of a shape at token `j`, told by the fault if there is one. -/
inductive CloserFate (ts : List Token) (shape : BracketShape) (j : Nat) : Option Fault → Prop
  /-- It is matched without a word, with one opener of its shape before it. -/
  | matched {i : Nat} (hlt : i < j) (hopens : (kindAt ts i).opens? = some shape)
      (hpartner : ∀ i', Partner ts i' j ↔ i' = i) (herrors : errorsAt ts j = []) :
      CloserFate ts shape j none
  /-- It has one error, which relates it to an opener of another shape before it. -/
  | mismatched {i : Nat} {other : BracketShape} {d : Diagnostic} (hlt : i < j)
      (hopens : (kindAt ts i).opens? = some other) (hne : other ≠ shape)
      (halone : ∀ i', ¬ Partner ts i' j) (herrors : errorsAt ts j = [d])
      (herror : ErrorAt ts .mismatched j [i] d) : CloserFate ts shape j (some .mismatched)
  /-- It has one error, which names no other bracket. -/
  | unexpected {d : Diagnostic} (halone : ∀ i', ¬ Partner ts i' j) (herrors : errorsAt ts j = [d])
      (herror : ErrorAt ts .unexpected j [] d) : CloserFate ts shape j (some .unexpected)

/-- What becomes of the opener of a shape at token `i`, told by the fault if there is one. -/
inductive OpenerFate (ts : List Token) (shape : BracketShape) (i : Nat) : Option Fault → Prop
  /-- It is matched without a word, with one closer of its shape behind it. -/
  | matched {j : Nat} (hlt : i < j) (hcloses : (kindAt ts j).closes? = some shape)
      (hpartner : ∀ j', Partner ts i j' ↔ j' = j) (herrors : errorsAt ts i = []) :
      OpenerFate ts shape i none
  /-- It is the related place of one error, on a closer of another shape behind it. -/
  | mismatched {j : Nat} {other : BracketShape} {d : Diagnostic} (hlt : i < j)
      (hcloses : (kindAt ts j).closes? = some other) (hne : other ≠ shape)
      (halone : ∀ j', ¬ Partner ts i j') (herrors : errorsAt ts i = [d])
      (herror : ErrorAt ts .mismatched j [i] d) : OpenerFate ts shape i (some .mismatched)
  /-- It has one error, which names no other bracket. -/
  | unclosed {d : Diagnostic} (halone : ∀ j', ¬ Partner ts i j') (herrors : errorsAt ts i = [d])
      (herror : ErrorAt ts .unclosed i [] d) : OpenerFate ts shape i (some .unclosed)

/-- **What becomes of a closer.** -/
theorem exists_closerFate (hstream : TokenStream file text ts) {shape : BracketShape}
    (hj : (kindAt ts j).closes? = some shape) : ∃ fate, CloserFate ts shape j fate := by
  obtain ⟨v, hcloser, honly⟩ := exists_onlyVerdict_of_closes hstream hj
  have hpartner : ∀ i', Partner ts i' j ↔ v.pair? = some (i', j) := fun i' =>
    honly.partner_iff (.inr rfl)
  have hv := honly.sound
  have herrors := honly.errorsAt_eq
  cases hv with
  | @matched o j' ho hlt hcloses =>
    obtain rfl := Option.some.inj hcloser
    obtain rfl := Option.some.inj (hcloses.symm.trans hj)
    refine ⟨none, .matched hlt ho.2 (fun i' => ?_) herrors⟩
    rw [hpartner]
    simp [Verdict.pair?, eq_comm]
  | @mismatched o j' found ho hlt hcloses hne =>
    obtain rfl := Option.some.inj hcloser
    obtain rfl := Option.some.inj (hcloses.symm.trans hj)
    have herror := honly.sound.errorAt rfl rfl rfl
    refine ⟨_, .mismatched hlt ho.2 hne (fun i' => ?_) herrors herror⟩
    simp [hpartner, Verdict.pair?]
  | @unexpected j' found _ =>
    obtain rfl := Option.some.inj hcloser
    have herror := honly.sound.errorAt rfl rfl rfl
    refine ⟨_, .unexpected (fun i' => ?_) herrors herror⟩
    simp [hpartner, Verdict.pair?]
  | unclosed => cases hcloser

/-- **What becomes of an opener.** -/
theorem exists_openerFate (hstream : TokenStream file text ts) {shape : BracketShape}
    (hi : (kindAt ts i).opens? = some shape) : ∃ fate, OpenerFate ts shape i fate := by
  obtain ⟨v, hopener, honly⟩ := exists_onlyVerdict_of_opens hstream hi
  have hpartner : ∀ j', Partner ts i j' ↔ v.pair? = some (i, j') := fun j' =>
    honly.partner_iff (.inl rfl)
  have hv := honly.sound
  have herrors := honly.errorsAt_eq
  cases hv with
  | @matched o j ho hlt hcloses =>
    obtain rfl := Option.some.inj hopener
    have hshape : o.shape = shape := Option.some.inj (ho.2.symm.trans hi)
    refine ⟨none, .matched hlt (hshape ▸ hcloses) (fun j' => ?_) herrors⟩
    rw [hpartner]
    simp [Verdict.pair?, eq_comm]
  | @mismatched o j found ho hlt hcloses hne =>
    obtain rfl := Option.some.inj hopener
    have hshape : o.shape = shape := Option.some.inj (ho.2.symm.trans hi)
    have herror := honly.sound.errorAt rfl rfl rfl
    refine ⟨_, .mismatched hlt hcloses (hshape ▸ hne.symm) (fun j' => ?_) herrors herror⟩
    simp [hpartner, Verdict.pair?]
  | unexpected => cases hopener
  | @unclosed o ho =>
    obtain rfl := Option.some.inj hopener
    have herror := honly.sound.errorAt rfl rfl rfl
    refine ⟨_, .unclosed (fun j' => ?_) herrors herror⟩
    simp [hpartner, Verdict.pair?]

end Stream

/-! ## The fate of a bracket is seen in its errors -/

/-- The errors tell the fate of a bracket. -/
def Told (errors : List Diagnostic) : Option Fault → Prop
  | none => errors = []
  | some fault => ∃ d, errors = [d] ∧ d.reports fault = true

theorem Told.unique {errors : List Diagnostic} {fate fate' : Option Fault} (h : Told errors fate)
    (h' : Told errors fate') : fate = fate' := by
  cases fate with
  | none =>
    cases fate' with
    | none => rfl
    | some fault =>
      obtain ⟨d, hd, _⟩ := h'
      cases hd.symm.trans h
  | some fault =>
    obtain ⟨d, rfl, hreports⟩ := h
    cases fate' with
    | none => cases h'
    | some fault' =>
      obtain ⟨d', hd', hreports'⟩ := h'
      obtain rfl := List.singleton_injective hd'
      rw [reports_inj hreports hreports']

section Fates

variable {ts : List Token} {shape : BracketShape} {k : Nat} {fate : Option Fault}

theorem CloserFate.told (h : CloserFate ts shape k fate) : Told (errorsAt ts k) fate := by
  cases h with
  | matched _ _ _ herrors => exact herrors
  | mismatched _ _ _ _ herrors herror | unexpected _ herrors herror =>
    exact ⟨_, herrors, herror.reports⟩

theorem OpenerFate.told (h : OpenerFate ts shape k fate) : Told (errorsAt ts k) fate := by
  cases h with
  | matched _ _ _ herrors => exact herrors
  | mismatched _ _ _ _ herrors herror | unclosed _ herrors herror =>
    exact ⟨_, herrors, herror.reports⟩

end Fates

/-! ## All brackets -/

theorem countP_reports (ts : List Token) (fault : Fault) :
    (check ts).countP (·.reports fault) = (verdicts ts).countP (·.fault? == some fault) := by
  rw [check, List.countP_filterMap]
  refine List.countP_congr fun v _ => ?_
  cases hd : v.diagnostic? with
  | none =>
    cases v with
    | matched => simp [Verdict.fault?]
    | mismatched | unexpected | unclosed => cases hd
  | some d => simp [reports_eq hd]

/-- A verdict uses a bracket by a match, by a mismatch or by one fault more: so the brackets that are
used are counted. -/
theorem length_used {use : Verdict → Option Nat} {fault : Fault}
    (h : ∀ v, (if (use v).isSome = true then 1 else 0) =
      (if v.pair?.isSome = true then 1 else 0) +
        (if (v.fault? == some .mismatched) = true then 1 else 0) +
        (if (v.fault? == some fault) = true then 1 else 0)) (vs : List Verdict) :
    (vs.filterMap use).length = (vs.filterMap Verdict.pair?).length +
      vs.countP (·.fault? == some .mismatched) + vs.countP (·.fault? == some fault) := by
  rw [List.length_filterMap_eq_countP, List.length_filterMap_eq_countP]
  induction vs with
  | nil => rfl
  | cons v vs ih =>
    have hv := h v
    simp only [List.countP_cons]
    omega

/-- Errors on brackets left open come last, in the order of the text. -/
theorem unclosed_errors_last {file : String} {text : List Char} {ts : List Token}
    (hstream : TokenStream file text ts) :
    ∃ front unclosed : List Diagnostic, check ts = front ++ unclosed ∧
      (∀ d ∈ front, d.reports .unclosed = false) ∧ (∀ d ∈ unclosed, d.reports .unclosed = true) ∧
      unclosed.Pairwise fun a b => ∃ s s', a.span = some s ∧ b.span = some s' ∧
        s.start.offset < s'.start.offset := by
  obtain ⟨front, os, hverdicts, hfront, hos⟩ :=
    (run_verdicts ts).unclosedLast List.drop_zero (.nil ts 0)
  refine ⟨front.filterMap Verdict.diagnostic?, (os.map .unclosed).filterMap Verdict.diagnostic?,
    ?_, fun d hd => ?_, fun d hd => ?_, ?_⟩
  · rw [check, hverdicts, List.filterMap_append]
  · obtain ⟨v, hv, hd⟩ := List.mem_filterMap.mp hd
    rw [reports_eq hd]
    have hcloser := hfront v hv
    cases v with
    | unclosed => cases hcloser
    | matched | mismatched | unexpected => rfl
  · obtain ⟨v, hv, hd⟩ := List.mem_filterMap.mp hd
    obtain ⟨o, _, rfl⟩ := List.mem_map.mp hv
    exact reports_eq hd _
  · have hsound : ∀ o ∈ os, o.Of ts := by
      intro o ho
      have hmem : Verdict.unclosed o ∈ verdicts ts := by
        rw [hverdicts]
        exact List.mem_append_right _ (List.mem_map_of_mem ho)
      cases sound_verdicts hmem with
      | unclosed ho => exact ho
    rw [List.filterMap_map, List.pairwise_filterMap]
    refine List.Pairwise.imp_of_mem ?_ hos
    intro o o' ho ho' hlt d hd d' hd'
    have herror := (Verdict.Sound.unclosed (hsound o ho)).errorAt hd rfl rfl
    have herror' := (Verdict.Sound.unclosed (hsound o' ho')).errorAt hd' rfl rfl
    have hstart := hstream.start_lt hlt (lt_length_of_opens (hsound o' ho').2)
    exact ⟨_, _, herror.span_eq, herror'.span_eq, hstart⟩

/-- **Every bracket is accounted for once.** In the tokens of a text:

* every closer has one fate: it is matched without a word with one earlier opener of its shape and
  with no other; or one error, a mismatch, is at the closer, and its related place is an earlier
  opener of another shape; or one error says that the closer is unexpected;
* every opener has one fate: it is matched without a word with one later closer of its shape and
  with no other; or one error, a mismatch at a later closer, has it as its related place; or one
  error says that it is not closed;
* so the openers are the matches, the mismatches and the unclosed, and the closers are the matches,
  the mismatches and the unexpected;
* the errors on brackets left open come last, in the order of the text. -/
theorem brackets_accounted (uri text : String) :
    let ts := (Lexer.tokenize uri text).1
    let matched := ((verdicts ts).filterMap Verdict.pair?).length
    let errors (fault : Fault) := (check ts).countP (·.reports fault)
    (∀ j shape, (kindAt ts j).closes? = some shape → ∃! fate, CloserFate ts shape j fate) ∧
    (∀ i shape, (kindAt ts i).opens? = some shape → ∃! fate, OpenerFate ts shape i fate) ∧
    ts.countP (·.kind.opens?.isSome) = matched + errors .mismatched + errors .unclosed ∧
    ts.countP (·.kind.closes?.isSome) = matched + errors .mismatched + errors .unexpected ∧
    ∃ front unclosed : List Diagnostic, check ts = front ++ unclosed ∧
      (∀ d ∈ front, d.reports .unclosed = false) ∧ (∀ d ∈ unclosed, d.reports .unclosed = true) ∧
      unclosed.Pairwise fun a b => ∃ s s', a.span = some s ∧ b.span = some s' ∧
        s.start.offset < s'.start.offset := by
  intro ts matched errors
  have hstream : TokenStream uri text.toList ts := tokenStream_tokenize uri text
  refine ⟨fun j shape hj => ?_, fun i shape hi => ?_, ?_, ?_, unclosed_errors_last hstream⟩
  · obtain ⟨fate, hfate⟩ := exists_closerFate hstream hj
    exact ⟨fate, hfate, fun fate' hfate' => hfate'.told.unique hfate.told⟩
  · obtain ⟨fate, hfate⟩ := exists_openerFate hstream hi
    exact ⟨fate, hfate, fun fate' hfate' => hfate'.told.unique hfate.told⟩
  · have hopeners := (run_verdicts ts).openers_perm.length_eq
    have hused := @length_used Verdict.opener? .unclosed (fun v => by cases v <;> rfl) (verdicts ts)
    rw [List.map_nil, List.nil_append, List.length_findIdxs, hused] at hopeners
    simp only [errors, countP_reports]
    exact hopeners.symm
  · have hclosers := congrArg List.length (run_verdicts ts).closers_eq
    have hused := @length_used Verdict.closer? .unexpected (fun v => by cases v <;> rfl) (verdicts ts)
    rw [List.length_findIdxs, hused] at hclosers
    simp only [errors, countP_reports]
    exact hclosers.symm

/-- A mismatch, which uses up the opener, then a closer too many, a match and an opener left. -/
example : (verdicts (Lexer.tokenize "b.aur" "(] ) \x7b\x7d [").1).map Verdict.fault? =
    [some .mismatched, some .unexpected, none, some .unclosed] := by decide +kernel

end Brackets

end AuroraLint
