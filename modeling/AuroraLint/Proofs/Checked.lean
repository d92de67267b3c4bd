import AuroraLint.Analysis
import AuroraLint.Proofs.Checked.Resolve
import AuroraLint.Proofs.Checked.Scanner
import AuroraLint.Proofs.Located

/-!
# The analysis fails on no countable text

The checks of returns and of style, and with them the whole analysis, with every operation checked.
Matching brackets has no operation that could fail.

* `Checked.checkFunction`, `Checked.tokenLines` : returns and lines of tokens.
* `Checked.analyze` : all passes; each gets its tokens from the checked scanner.
* `Diagnostic.Fits` : all places of a diagnostic are in words.

Main statements: `Checked.analyze_eq` — for every countable text the checked analysis succeeds, with
the report that the analysis gives; `Checked.analyze_never_faults` — of the texts whose bytes can be
counted, only the longest are not countable; `Checked.analyze_ranges_real_in_words` — all ranges of
the report are real ones, in words.
-/

set_option autoImplicit false

namespace AuroraLint

/-- The span of the diagnostic and those of its related places are in words. -/
def Diagnostic.Fits (d : Diagnostic) : Prop :=
  (∀ span ∈ d.span, span.Fits) ∧ ∀ r ∈ d.related, r.span.Fits

theorem Span.Real.fits {file : String} {text : List Char} {s : Span} (h : s.Real file text)
    (hcountable : Text.Countable text) : s.Fits :=
  ⟨hcountable.trueIn_fits h.start_true, hcountable.trueIn_fits h.stop_true⟩

/-- Where a diagnostic points to a countable text, it points to words. -/
theorem Diagnostic.Located.fits {file : String} {text : List Char} {d : Diagnostic}
    (h : d.Located file text) (hcountable : Text.Countable text) : d.Fits := by
  obtain ⟨span, hspan, hreal, hrelated⟩ := h
  refine ⟨fun span' hspan' => ?_, fun r hr => (hrelated r hr).1.fits hcountable⟩
  obtain rfl : span = span' := Option.some.inj (hspan.symm.trans hspan')
  exact hreal.fits hcountable

namespace Checked

open Text (Countable)

/-! ## Returns -/

/-- As `AuroraLint.endsLine`. -/
def endsLine (ts : List Token) (i : Nat) : Checked Bool :=
  match ts[i + 1]? with
  | some next =>
    if next.kind = .eof then pure true
    else do
      let t ← item ts i
      return next.line != t.line
  | none => pure true

/-- As `Returns.hasValue`. -/
def hasValue (doc : Document) (i : Nat) : Checked Bool := do
  let ends ← endsLine doc.tokens i
  if ends then return false
  else do
    let next ← item doc.tokens (i + 1)
    match next.kind with
    | .semicolon | .rightBrace => return false
    | _ => return true

/-- As `Returns.checkReturn`. -/
def checkReturn (doc : Document) (name : String) (returnType : Ty) (i : Nat) :
    Checked (Option Diagnostic) := do
  let value ← hasValue doc i
  let t ← item doc.tokens i
  match value, returnType == .void with
  | true, true => do
    let span ← toLineEnd doc.source t.span.start
    return some (.error s!"Cannot return a value from a void function '{name}'" span)
  | false, false =>
    let message := s!"Cannot use empty return in non-void function '{name}'. " ++
      s!"Expected return type: '{returnType.render}'"
    return some (.error message t.span)
  | _, _ => return none

/-- The tokens `return` among `n` tokens from index `i` on. -/
def returnsFrom (doc : Document) (i : Nat) : Nat → Checked (List Nat)
  | 0 => pure []
  | n + 1 => do
    let t ← item doc.tokens i
    let others ← returnsFrom doc (i + 1) n
    return if t.kind == .kwReturn then i :: others else others

/-- As `Returns.checkFunction`. -/
def checkFunction (doc : Document) (h : FnHeader) (body : Nat) : Checked (List Diagnostic) := do
  let returnType := TypeRef.typeOr h.returnType .void
  let returns ← returnsFrom doc (body + 1) (blockEnd doc.tokens body - (body + 1))
  let missing :=
    if returns.isEmpty && returnType != .void then
      let message := s!"Function '{h.name}' with return type '{returnType.render}' " ++
        "should have at least one return statement"
      [.warning message h.span]
    else []
  let wrong ← filterMap (checkReturn doc h.name returnType) returns
  return wrong ++ missing

/-- As `Returns.checkAt`. -/
def checkReturnsAt (doc : Document) (i : Nat) : Checked (List Diagnostic) := do
  let header ← fnHeaderAt doc.tokens i
  match header with
  | some h =>
    match h.body with
    | some body => checkFunction doc h body
    | none => return []
  | none => return []

section

variable {doc : Document} {i : Nat}

theorem endsLine_eq_ok {ts : List Token} (hi : i < ts.length) :
    endsLine ts i = .ok (AuroraLint.endsLine ts i) := by
  unfold endsLine AuroraLint.endsLine
  cases ts[i + 1]? with
  | none => rfl
  | some next =>
    by_cases hk : next.kind = .eof
    · simp [hk, pure_eq_ok]
    · simp [hk, token_eq_ok hi, ok_bind, pure_eq_ok]

/-- Behind a token that does not end its line stands another one. -/
theorem hasValue_eq_ok (hi : i < doc.tokens.length) :
    hasValue doc i = .ok (Returns.hasValue doc i) := by
  rw [hasValue, Returns.hasValue, endsLine_eq_ok hi, ok_bind]
  cases hends : AuroraLint.endsLine doc.tokens i with
  | true => rfl
  | false =>
    have hlt : i + 1 < doc.tokens.length := by
      apply Classical.byContradiction
      intro hge
      rw [AuroraLint.endsLine, List.getElem?_eq_none (by omega)] at hends
      cases hends
    rw [if_neg Bool.false_ne_true, token_eq_ok hlt, ok_bind, Bool.not_false, Bool.true_and,
      Document.kind, kindAt]
    cases (tokenAt doc.tokens (i + 1)).kind <;> rfl

theorem checkReturn_eq_ok (hs : doc.source.Addressable) (hi : i < doc.tokens.length)
    (name : String) (returnType : Ty) :
    checkReturn doc name returnType i = .ok (Returns.checkReturn doc name returnType i) := by
  rw [checkReturn, Returns.checkReturn, hasValue_eq_ok hi, ok_bind, token_eq_ok hi, ok_bind,
    toLineEnd_eq_ok hs.bytes_lt (hs.columns_lt _)]
  cases Returns.hasValue doc i <;> cases returnType == .void <;> rfl

theorem returnsFrom_eq_ok {n : Nat} (h : i + n ≤ doc.tokens.length) :
    returnsFrom doc i n =
      .ok ((List.range' i n).filter fun k => doc.kind k == .kwReturn) := by
  induction n generalizing i with
  | zero => rfl
  | succ n ih =>
    rw [returnsFrom, token_eq_ok (by omega), ok_bind, ih (by omega), ok_bind, List.range'_succ,
      List.filter_cons]
    rfl

theorem checkFunction_eq_ok (hs : doc.source.Addressable) {h : FnHeader} {body : Nat}
    (hbody : body + 1 < doc.tokens.length) :
    checkFunction doc h body = .ok (Returns.checkFunction doc h body) := by
  have hend := (blockEnd_spec (show body < doc.tokens.length by omega)).2
  have hreturns : returnsFrom doc (body + 1) (blockEnd doc.tokens body - (body + 1)) =
      .ok (Returns.returnsBetween doc body (blockEnd doc.tokens body)) :=
    returnsFrom_eq_ok (by omega)
  rw [checkFunction, hreturns, ok_bind, filterMap_eq_ok, ok_bind]
  · rfl
  · intro k hk
    refine checkReturn_eq_ok hs ?_ _ _
    have := List.mem_range'_1.mp (List.mem_filter.mp hk).1
    omega

theorem checkReturnsAt_eq_ok (hs : doc.source.Addressable) (hts : EndsInEof doc.tokens)
    (hi : i < doc.tokens.length) : checkReturnsAt doc i = .ok (Returns.checkAt doc i) := by
  rw [checkReturnsAt, Returns.checkAt, fnHeaderAt_eq_ok hts hi, ok_bind]
  cases hheader : AuroraLint.fnHeaderAt doc.tokens i with
  | none => rfl
  | some h =>
    have hr := ((fnHeaderAt_eq_some_iff hts).mp hheader).readAt
    simp only
    cases hbody : h.body with
    | none => rfl
    | some body => exact checkFunction_eq_ok hs (hts.succ_lt_of_eq (hr.body_spec hbody).2 (by decide))

end

/-! ## Lines of tokens -/

/-- The line of token `start` ends before token `i`. -/
def breaksLine (ts : List Token) (stop start i : Nat) : Checked Bool :=
  if i = stop then pure true
  else do
    let t ← item ts i
    let first ← item ts start
    return t.line != first.line

/-- The lines that end before the `n` tokens from index `i` on, where the one being read began at
`start` and the last one ends before `stop`. -/
def linesFrom (ts : List Token) (stop start i : Nat) : Nat → Checked (List Extent)
  | 0 => pure []
  | n + 1 => do
    let breaks ← breaksLine ts stop start i
    if breaks then do
      let others ← linesFrom ts stop i (i + 1) n
      return segment start i ++ others
    else linesFrom ts stop start (i + 1) n

/-- As `Style.tokenLines`. -/
def tokenLines (ts : List Token) : Checked (List Extent) :=
  let stop := (ts.findIdx? (·.kind == .eof)).getD ts.length
  linesFrom ts stop 0 1 stop

section

variable {ts : List Token}

theorem linesFrom_eq_ok (hts : EndsInEof ts) {stop start i k : Nat} (hstop : stop + 1 = ts.length)
    (hstart : start ≤ i) (hi : i + k = stop) :
    linesFrom ts stop start i (k + 1) =
      .ok (Style.linesFrom start (tokenAt ts start).line i (ts.drop i)) := by
  induction k generalizing start i with
  | zero =>
    have heof : (tokenAt ts i).kind = .eof := hts.kindAt_eq_eof_iff.mpr (by omega)
    rw [linesFrom, breaksLine, if_pos (by omega), pure_eq_ok, ok_bind, if_pos rfl,
      drop_eq_tokenAt_cons (by omega), Style.linesFrom, if_pos heof, linesFrom, pure_eq_ok, ok_bind,
      List.append_nil]
    rfl
  | succ k ih =>
    have hne : (tokenAt ts i).kind ≠ .eof := hts.kindAt_ne_eof (by omega)
    rw [linesFrom, breaksLine, if_neg (by omega), token_eq_ok (by omega), ok_bind,
      token_eq_ok (by omega), ok_bind, pure_eq_ok, ok_bind, drop_eq_tokenAt_cons (by omega),
      Style.linesFrom, if_neg hne]
    by_cases hline : (tokenAt ts i).line = (tokenAt ts start).line
    · rw [if_neg (by simpa using hline), if_neg (by simpa using hline)]
      exact ih (by omega) (by omega)
    · rw [if_pos (by simpa using hline), if_pos hline, ih (by omega) (by omega), ok_bind]
      rfl

theorem findIdx?_eof (hts : EndsInEof ts) :
    (ts.findIdx? (·.kind == .eof)).getD ts.length = ts.length - 1 := by
  obtain ⟨init, last, rfl, hlast, hinit⟩ := hts
  have hnone : init.findIdx? (·.kind == .eof) = none := by
    refine List.findIdx?_eq_none_iff.mpr fun t ht => ?_
    simpa using hinit t ht
  simp [List.findIdx?_append, hnone, hlast]

theorem tokenLines_eq_ok (hts : EndsInEof ts) :
    tokenLines ts = .ok (Style.tokenLines ts) := by
  have hlen := hts.length_pos
  have hlines : Style.tokenLines ts = Style.linesFrom 0 (tokenAt ts 0).line 0 (ts.drop 0) := by
    cases ts with
    | nil => simp at hlen
    | cons t rest => rfl
  rw [tokenLines, findIdx?_eof hts, hlines, drop_eq_tokenAt_cons hlen, Style.linesFrom]
  obtain ⟨k, hk⟩ : ∃ k, ts.length = k + 1 := ⟨ts.length - 1, by omega⟩
  cases k with
  | zero =>
    have heof : (tokenAt ts 0).kind = .eof := hts.kindAt_eq_eof_iff.mpr (by omega)
    rw [if_pos heof, hk]
    rfl
  | succ k =>
    have hne : (tokenAt ts 0).kind ≠ .eof := hts.kindAt_ne_eof (by omega)
    rw [if_neg hne, if_neg (by simp), hk]
    exact linesFrom_eq_ok hts hk.symm (Nat.zero_le 1) (by omega)

end

/-! ## Style -/

/-- The header that starts at token `i`: its last token, if it can be read, and what messages
call it. -/
def headerAt (ts : List Token) (i : Nat) : Checked (Option (Option Nat × String)) := do
  ended ts
  let t ← item ts i
  match t.kind with
  | .kwFn => do
    let header ← fnHeaderAt ts i
    return some (header.map (·.last), "Function")
  | .kwConstructor => do
    let header ← constructorHeaderAt ts i
    return some (header.map (·.last), "Constructor")
  | .kwClass => do
    let header ← classHeaderAt ts i
    return some (header.map (·.last), "Class")
  | _ => return none

/-- As `Style.checkMissingBrace`. -/
def checkMissingBrace (doc : Document) (line : Extent) : Checked (List Diagnostic) := do
  let header ← headerAt doc.tokens line.start
  match header with
  | some (headerLast, what) => do
    let last ← sub line.stop 1
    if headerLast = some last then do
      let t ← item doc.tokens line.start
      let span ← lineSpan doc.source t.line
      return [.error s!"{what} definition missing opening '\x7b' brace" span]
    else return []
  | none => return []

/-- As `Style.checkSnakeCase`. -/
def checkSnakeCase (doc : Document) (line : Extent) : Checked (List Diagnostic) := do
  let ts ← range doc.tokens line.start line.stop
  return ts.filterMap fun t =>
    if t.kind = .identifier ∧ Style.isSnakeCase t.lexeme then
      some (.unnecessary
        "Consider using camelCase instead of snake_case for better AuroraLang style" t.span)
    else none

/-- As `Style.checkSemicolon`. -/
def checkSemicolon (doc : Document) (line : Extent) : Checked (List Diagnostic) := do
  let first ← item doc.tokens line.start
  let index ← sub line.stop 1
  let last ← item doc.tokens index
  return if last.kind = .semicolon ∧ first.kind ≠ .kwExtern then
      [.unnecessary "Semicolons are optional in AuroraLang" last.span]
    else []

/-- As `Style.checkPub`. -/
def checkPub (doc : Document) (tracker : Style.ClassTracker) : List Extent → Checked (List Diagnostic)
  | [] => pure []
  | line :: lines => do
    let ts ← range doc.tokens line.start line.stop
    let first ← item ts 0
    let tracker := tracker.line ts
    let hint :=
      if tracker.inClass && first.kind == .kwPub && Style.isMemberStart (tokenAt ts 1) then
        [.unnecessary "Class members are public by default. The 'pub' modifier is unnecessary."
          first.span]
      else []
    let others ← checkPub doc tracker lines
    return hint ++ others

/-- As `Style.checkLine`. -/
def checkLine (doc : Document) (hints : Bool) (line : Extent) : Checked (List Diagnostic) := do
  let missing ← checkMissingBrace doc line
  if hints then do
    let snake ← checkSnakeCase doc line
    let semicolon ← checkSemicolon doc line
    return missing ++ (snake ++ semicolon)
  else return missing ++ []

/-- As `Style.check`. -/
def checkStyle (doc : Document) (hints : Bool) : Checked (List Diagnostic) := do
  let lines ← tokenLines doc.tokens
  let found ← flatMap (checkLine doc hints) lines
  if hints then do
    let pubs ← checkPub doc {} lines
    return found ++ pubs
  else return found ++ []

section

variable {doc : Document} {line : Extent}

theorem headerAt_eq_ok {ts : List Token} {i : Nat} (hts : EndsInEof ts) (hi : i < ts.length) :
    ∃ header, headerAt ts i = .ok header ∧
      (∀ last what, Style.headerAt ts i = some (last, what) ↔ header = some (some last, what)) := by
  rw [headerAt, Style.headerAt, ended_eq_ok hts, ok_bind, token_eq_ok hi, ok_bind, kindAt]
  cases (tokenAt ts i).kind with
  | kwFn =>
    refine ⟨_, by rw [fnHeaderAt_eq_ok hts hi]; rfl, ?_⟩
    cases AuroraLint.fnHeaderAt ts i <;> simp
  | kwConstructor =>
    refine ⟨_, by rw [constructorHeaderAt_eq_ok hts hi]; rfl, ?_⟩
    cases AuroraLint.constructorHeaderAt ts i <;> simp
  | kwClass =>
    refine ⟨_, by rw [classHeaderAt_eq_ok hts]; rfl, ?_⟩
    cases AuroraLint.classHeaderAt ts i <;> simp
  | _ => exact ⟨none, rfl, by simp⟩

theorem checkMissingBrace_eq_ok (hs : doc.source.Addressable) (hts : EndsInEof doc.tokens)
    (hlt : line.start < line.stop) (hstop : line.stop ≤ doc.tokens.length) :
    checkMissingBrace doc line = .ok (Style.checkMissingBrace doc line) := by
  have hstart : line.start < doc.tokens.length := by omega
  obtain ⟨header, hheader, hiff⟩ := headerAt_eq_ok hts hstart
  rw [checkMissingBrace, Style.checkMissingBrace, hheader, ok_bind]
  cases hfound : Style.headerAt doc.tokens line.start with
  | some found =>
    obtain ⟨last, what⟩ := found
    rw [(hiff last what).mp hfound]
    dsimp only
    rw [sub_eq_ok (by omega), ok_bind]
    by_cases hlast : last = line.stop - 1
    · rw [if_pos (by rw [hlast]), if_pos hlast, token_eq_ok hstart, ok_bind,
        lineSpan_eq_ok hs.bytes_lt (hs.columns_lt _), ok_bind]
      rfl
    · rw [if_neg (by simpa using hlast), if_neg hlast]
      rfl
  | none =>
    cases header with
    | none => rfl
    | some found =>
      obtain ⟨last, what⟩ := found
      cases last with
      | none =>
        dsimp only
        rw [sub_eq_ok (by omega), ok_bind, if_neg nofun]
        rfl
      | some last =>
        rw [(hiff last what).mpr rfl] at hfound
        cases hfound

theorem checkSnakeCase_eq_ok (hlt : line.start < line.stop) (hstop : line.stop ≤ doc.tokens.length) :
    checkSnakeCase doc line = .ok (Style.checkSnakeCase doc line) := by
  rw [checkSnakeCase, extent_eq_ok (Nat.le_of_lt hlt) hstop, ok_bind]
  rfl

theorem checkSemicolon_eq_ok (hlt : line.start < line.stop) (hstop : line.stop ≤ doc.tokens.length) :
    checkSemicolon doc line = .ok (Style.checkSemicolon doc line) := by
  rw [checkSemicolon, token_eq_ok (by omega), ok_bind, sub_eq_ok (by omega), ok_bind,
    token_eq_ok (by omega), ok_bind]
  rfl

theorem checkPub_eq_ok (tracker : Style.ClassTracker) {lines : List Extent}
    (hlines : ∀ e ∈ lines, e.start < e.stop ∧ e.stop < doc.tokens.length) :
    checkPub doc tracker lines = .ok (Style.checkPub doc tracker lines) := by
  induction lines generalizing tracker with
  | nil => rfl
  | cons line lines ih =>
    obtain ⟨hlt, hstop⟩ := hlines line (List.mem_cons_self ..)
    have hpos : 0 < (line.tokens doc.tokens).length := by
      simp only [Extent.tokens, List.length_take, List.length_drop]
      omega
    rw [checkPub, Style.checkPub, extent_eq_ok (Nat.le_of_lt hlt) (Nat.le_of_lt hstop), ok_bind,
      token_eq_ok hpos, ok_bind]
    dsimp only
    rw [ih _ fun e he => hlines e (List.mem_cons_of_mem _ he), ok_bind]
    rfl

theorem checkLine_eq_ok (hs : doc.source.Addressable) (hts : EndsInEof doc.tokens) (hints : Bool)
    (hlt : line.start < line.stop) (hstop : line.stop ≤ doc.tokens.length) :
    checkLine doc hints line = .ok (Style.checkLine doc hints line) := by
  rw [checkLine, checkMissingBrace_eq_ok hs hts hlt hstop, ok_bind, checkSnakeCase_eq_ok hlt hstop,
    checkSemicolon_eq_ok hlt hstop]
  cases hints <;> rfl

theorem checkStyle_eq_ok (hs : doc.source.Addressable) (hts : EndsInEof doc.tokens) (hints : Bool) :
    checkStyle doc hints = .ok (Style.check doc hints) := by
  have hlines := fun (e : Extent) (he : e ∈ Style.tokenLines doc.tokens) =>
    Style.mem_tokenLines hts he
  rw [checkStyle, tokenLines_eq_ok hts, ok_bind, flatMap_eq_ok fun e he =>
    checkLine_eq_ok hs hts hints (hlines e he).1 (Nat.le_of_lt (hlines e he).2), ok_bind,
    checkPub_eq_ok {} hlines]
  cases hints <;> rfl

end

/-! ## The whole analysis -/

/-- The passes behind the scanner, with its errors put before theirs. -/
def analyzeDocument (doc : Document) (lexical : List Diagnostic) (styleHints : Bool) :
    Checked Report := do
  let collected ← collect doc.tokens
  let resolved ← walk doc collected.1 {} 0 doc.tokens.length
  let returns ← flatMap (checkReturnsAt doc) (List.range doc.tokens.length)
  let style ← checkStyle doc styleHints
  return ⟨doc.source.name, lexical ++ Brackets.check doc.tokens ++ collected.2 ++ resolved ++
    returns ++ style⟩

/-- As `AuroraLint.analyze`, with every operation checked. -/
def analyze (uri text : String) (styleHints : Bool) : Checked Report := do
  let scanned ← tokenize uri text
  analyzeDocument ⟨⟨uri, text⟩, scanned.1⟩ scanned.2 styleHints

theorem analyzeDocument_eq_ok {doc : Document} (h : doc.Streamed) (hs : doc.source.Addressable)
    (lexical : List Diagnostic) (styleHints : Bool) :
    analyzeDocument doc lexical styleHints =
      let symbols := SymbolTable.collect doc.tokens
      .ok ⟨doc.source.name, lexical ++ Brackets.check doc.tokens ++ symbols.2 ++
        Resolve.check doc symbols.1 ++ Returns.check doc ++ Style.check doc styleHints⟩ := by
  have hts := h.endsInEof
  have hreturns : flatMap (checkReturnsAt doc) (List.range doc.tokens.length) =
      .ok (Returns.check doc) :=
    flatMap_eq_ok fun i hi => checkReturnsAt_eq_ok hs hts (List.mem_range.mp hi)
  rw [analyzeDocument, collect_eq_ok hts, ok_bind, check_eq_ok h, ok_bind, hreturns, ok_bind,
    checkStyle_eq_ok hs hts, ok_bind]
  rfl

/-- **Of a countable text there is the report of the library, of any other text there is none.** -/
theorem analyze_eq (uri text : String) (styleHints : Bool) :
    analyze uri text styleHints =
      if Countable text.toList then .ok (AuroraLint.analyze uri text styleHints)
      else .error .overflow := by
  rw [analyze, tokenize_eq]
  split
  · rename_i h
    exact analyzeDocument_eq_ok (Document.streamed_ofText uri text)
      (Source.addressable_of_countable h) _ _
  · rfl

/-- **The analysis fails on none but the longest texts.** If the bytes of a text can be counted, then
every index is in bounds, no difference falls below zero, every range is in order, every cut of the
text falls between two characters and every counter is a word, unless the text is a single line of
`wordSize - 1` characters of one byte or consists of as many line feeds; then a counter is not. -/
theorem analyze_never_faults (uri text : String) (styleHints : Bool)
    (h : Text.byteSize text.toList < wordSize) :
    (¬ Text.Longest text.toList →
      analyze uri text styleHints = .ok (AuroraLint.analyze uri text styleHints)) ∧
    (Text.Longest text.toList → analyze uri text styleHints = .error .overflow) := by
  have hlongest := Text.not_countable_iff h
  rw [analyze_eq]
  refine ⟨fun hshort => if_pos ?_, fun hlong => if_neg (hlongest.mpr hlong)⟩
  exact Decidable.of_not_not fun hcountable => hshort (hlongest.mp hcountable)

/-- A text in which nothing is finished: a list of parameters, a body and a string. -/
theorem analyze_never_faults_unfinished :
    let text := "fn f(a: , b) -> int \x7b\n  f(1, [)\n  return \"é"
    (Text.byteSize text.toList < wordSize ∧ ¬ Text.Longest text.toList) ∧
      analyze "m" text true = .ok (AuroraLint.analyze "m" text true) := by
  intro text
  have hbytes : Text.byteSize text.toList < wordSize := by decide +kernel
  have hlength : text.toList.length + 1 ≠ wordSize := by decide +kernel
  have hshort : ¬ Text.Longest text.toList := fun hlong => hlength hlong.length_succ
  exact ⟨⟨hbytes, hshort⟩, (analyze_never_faults "m" text true hbytes).1 hshort⟩

/-- On each of the longest texts a counter outgrows its word. -/
theorem analyze_longest_texts :
    let line := String.ofList Text.longestLine
    let feeds := String.ofList Text.mostLineFeeds
    (Text.byteSize line.toList < wordSize ∧ analyze "m" line true = .error .overflow) ∧
      Text.byteSize feeds.toList < wordSize ∧ analyze "m" feeds true = .error .overflow := by
  intro line feeds
  have hline : line.toList = Text.longestLine := String.toList_ofList
  have hfeeds : feeds.toList = Text.mostLineFeeds := String.toList_ofList
  refine ⟨⟨hline ▸ Text.byteSize_longestLine_lt, ?_⟩, hfeeds ▸ Text.byteSize_mostLineFeeds_lt, ?_⟩
  · exact (analyze_eq "m" line true).trans (if_neg (hline ▸ Text.not_countable_longestLine))
  · exact (analyze_eq "m" feeds true).trans (if_neg (hfeeds ▸ Text.not_countable_mostLineFeeds))

/-! ## Ranges in words -/

/-- **Every reported range is a real range of a countable text**, in words, and counting from 0 in the
record takes exactly 1 off every line and column. -/
theorem analyze_ranges_real_in_words (uri text : String) (hints : Bool)
    (h : Countable text.toList) :
    let report := AuroraLint.analyze uri text hints
    analyze uri text hints = .ok report ∧
      (∀ d ∈ report.diagnostics, d.Located uri text.toList ∧ d.Fits) ∧
      List.Forall₂ Record.Item.Exact report.toRecord.diagnostics report.diagnostics := by
  intro report
  obtain ⟨hlocated, hexact⟩ := AuroraLint.analyze_ranges_real uri text hints
  refine ⟨(analyze_eq uri text hints).trans (if_pos h), fun d hd => ?_, hexact⟩
  exact ⟨hlocated d hd, (hlocated d hd).fits h⟩

/-- A function declared twice, with a related place, above a string that its line cuts off. -/
theorem analyze_ranges_real_in_words_twice :
    let text := "fn f() \x7b\n\x7d\nfn f() \x7b\n\x7d\nlet s = \"é"
    let report := AuroraLint.analyze "m" text true
    Countable text.toList ∧ report.diagnostics.length = 2 ∧ analyze "m" text true = .ok report ∧
      (∀ d ∈ report.diagnostics, d.Located "m" text.toList ∧ d.Fits) ∧
      List.Forall₂ Record.Item.Exact report.toRecord.diagnostics report.diagnostics := by
  intro text report
  have hcountable : Countable text.toList := by decide +kernel
  have hlength : report.diagnostics.length = 2 := by decide +kernel
  exact ⟨hcountable, hlength, analyze_ranges_real_in_words "m" text true hcountable⟩

/-- A string without quotes and line feeds behind its first quote goes on to the end of the text. -/
theorem stringTail_replicate (prev : Char) (n : Nat) :
    Lexeme.stringTail prev (List.replicate n 'a') = (n, false) := by
  induction n generalizing prev with
  | zero => rfl
  | succ n ih =>
    rw [List.replicate_succ, Lexeme.stringTail, if_neg (by simp), if_neg (by decide), ih]

/-- A string that is cut off by the end of its text is reported up to there. -/
theorem exists_cut_off (uri : String) (n : Nat) (hints : Bool) :
    let text := '"' :: List.replicate n 'a'
    ∃ d ∈ (AuroraLint.analyze uri (String.ofList text) hints).diagnostics,
      ∃ span, d.span = some span ∧ span.stop = .ofFront text := by
  intro text
  have hread : Lexeme.read (lastOnLine ([] ++ [])) '"' (List.replicate n 'a' ++ []) =
      ⟨.stringLiteral, n, false⟩ := by
    rw [List.append_nil, List.append_nil, Lexeme.read, if_pos rfl, if_neg (by simp [lastOnLine]),
      stringTail_replicate]
  have hgap : trivia false ([] ++ '"' :: (List.replicate n 'a' ++ [])) = ([] : List Char).length := rfl
  have hscan := Lexer.scan_token uri hgap hread List.length_replicate.symm
  simp only [List.nil_append, List.append_nil] at hscan
  have hlexical : Diagnostic.error "unterminated string literal" ⟨uri, .ofFront [], .ofFront text⟩ ∈
      (Lexer.tokenize uri (String.ofList text)).2 := by
    refine List.mem_filterMap.mpr
      ⟨.spelling uri [] ⟨.stringLiteral, n, false⟩ text, ?_, rfl⟩
    rw [String.toList_ofList, Cursor.ofText_eq_between, hscan]
    exact List.mem_cons_self
  refine ⟨.error "unterminated string literal" ⟨uri, .ofFront [], .ofFront text⟩, ?_, _, rfl, rfl⟩
  simp only [AuroraLint.analyze, List.mem_append]
  exact .inl (.inl (.inl (.inl (.inl hlexical))))

/-- The longest string ends at a column that is no word. -/
theorem analyze_longest_string :
    let text := String.ofList ('"' :: List.replicate (wordSize - 2) 'a')
    Text.byteSize text.toList < wordSize ∧ analyze "m" text true = .error .overflow ∧
      ∃ d ∈ (AuroraLint.analyze "m" text true).diagnostics,
        ∃ span, d.span = some span ∧ span.stop.column = wordSize := by
  intro text
  have htext : text.toList = '"' :: List.replicate (wordSize - 2) 'a' := String.toList_ofList
  have hline : '\n' ∉ text.toList := by
    rw [htext]
    simp [List.mem_replicate]
  have hlength : text.toList.length = wordSize - 1 := by
    rw [htext, List.length_cons, List.length_replicate]
    rfl
  refine ⟨?_, ?_, ?_⟩
  · rw [htext, Text.byteSize_cons, Text.byteSize_replicate]
    decide
  · refine (analyze_eq "m" text true).trans (if_neg ?_)
    refine Text.not_countable_of_line hline ?_
    rw [hlength]
    decide
  · obtain ⟨d, hd, span, hspan, hstop⟩ := exists_cut_off "m" (wordSize - 2) true
    refine ⟨d, hd, span, hspan, ?_⟩
    rw [hstop, ← htext, Text.ofFront_of_line hline, hlength]
    rfl

end Checked

end AuroraLint
