import AuroraLint.CommandLine.Run
import AuroraLint.Proofs.Severity

/-!
# The exit status of a check

A check asks its host a few questions and computes the rest from the answer.

* `Options.OnlyChecks`  : nothing is listed and no code is emitted.
* `CommandLine.Answer`  : all that a check learns from its host.
* `CommandLine.consult` : asks the host; only the file and the wish for a compiler matter.
* `CommandLine.present` : what the options make of an answer.
* `Answer.fails`        : the answer has an error in it; no option has a say in this.
* `Printout`            : what a check prints in JSON.

`run_eq_present` splits a check into `consult` and `present`, and `code_present` reads the exit code
off the answer alone. Main statements: `run_presentation` — options of presentation change neither
the exit code nor, as JSON, the errors — and `code_run_compiler`, the exit code of a check with the
compiler, which is not told by how the compiler ended.
-/

set_option autoImplicit false

namespace AuroraLint

/-- Nothing is listed and no code is emitted. -/
structure Options.OnlyChecks (o : Options) : Prop where
  tokens : o.has .emitTokens = false
  symbols : o.has .emitSymbols = false
  llvm : o.has .emitLlvm = false

/-- The record with its errors only. -/
def Record.onlyErrors (r : Record) : Record :=
  { r with diagnostics := r.diagnostics.filter (·.severity = Severity.error.name) }

namespace CommandLine

/-! ## Question and answer -/

/-- What a check learns from its host. -/
inductive Answer where
  /-- There is nothing to check, or no settings to check it with. -/
  | refused (reason : String)
  /-- The source, whether its project wants hints, and the compiler with what became of it if it was
  run. -/
  | checked (source : Source) (styleHints : Bool)
      (compiled : Option (String × Except OsError Outcome))

section

variable {m : Type → Type} [Monad m]

/-- All that a check asks of its host, in order. -/
def consult (host : Host m) (file : String) (compiler : Bool) : m Answer := do
  match ← host.readText file with
  | .error e => return .refused s!"could not read '{file}': {e.message}"
  | .ok text =>
    match ← settings host file with
    | .error e => return .refused e.message
    | .ok config =>
      if compiler then
        let program ← host.compiler config
        let result ← host.run (.compile program [] file)
        return .checked ⟨file, text⟩ config.styleHints (some (program, result))
      else return .checked ⟨file, text⟩ config.styleHints none

end

/-- The diagnostics in what a compiler printed; none if it was not run. -/
def findings (source : Source) : Option (String × Except OsError Outcome) → List Diagnostic
  | some (_, .ok o) => compilerDiagnostics source o.diagnosticText
  | _ => []

/-- The complaint that a compiler could not be run. -/
def complaints : Option (String × Except OsError Outcome) → List String
  | some (program, .error e) => [s!"error: {spawnError program e}"]
  | _ => []

/-- The report on a source with the findings of its compiler. -/
def assess (source : Source) (hints : Bool) (compiled : Option (String × Except OsError Outcome)) :
    Report :=
  ⟨source.name,
    (analyze source.name source.text hints).diagnostics ++ findings source compiled⟩

/-- What the options make of an answer. -/
def present (o : Options) : Answer → Run
  | .refused reason => failure reason
  | .checked source styleHints compiled =>
    finish o ((complaints compiled).map messageLine)
      (assess source (styleHints && !o.has .noStyle) compiled)

theorem addCompilation_eq (file text program : String) (hints : Bool)
    (result : Except OsError Outcome) :
    addCompilation ⟨file, text⟩ program (analyze file text hints) result =
      (assess ⟨file, text⟩ hints (some (program, result)),
        (complaints (some (program, result))).map messageLine) := by
  cases result with
  | error e => simp [addCompilation, assess, findings, complaints, analyze_eq]
  | ok o => rfl

theorem assess_none (file text : String) (hints : Bool) :
    assess ⟨file, text⟩ hints none = analyze file text hints := by
  simp [assess, findings, analyze_eq]

section

variable {m : Type → Type} [Monad m] [LawfulMonad m]

/-- **A check consults its host and presents the answer**, and the options have no say in what is
asked beyond whether the compiler is run. -/
theorem run_eq_present (host : Host m) {args : List String} {file : String} {o : Options}
    (hparse : Options.parse args = .run file o) (ho : o.OnlyChecks) :
    run host args = present o <$> consult host file (o.has .compiler) := by
  simp only [run, hparse, consult, map_bind]
  congr 1
  funext read
  cases read with
  | error e => simp only [map_pure, present]
  | ok text =>
    simp only [runOn, ho.tokens, ho.symbols, ho.llvm, Bool.false_eq_true, if_false, map_bind]
    congr 1
    funext loaded
    cases loaded with
    | error e => simp only [map_pure, present]
    | ok config =>
      simp only [check]
      split
      · simp only [addCompilation_eq, map_bind, map_pure, present]
      · simp only [assess_none, map_pure, present, complaints, List.map_nil]

end

/-! ## The exit code -/

/-- The host refused, the compiler could not be run, or an error was found. -/
def Answer.fails : Answer → Bool
  | .refused _ => true
  | .checked source _ compiled =>
    !(complaints compiled).isEmpty || (assess source false compiled).hasErrors

theorem hasErrors_restrict (quiet : Bool) (r : Report) :
    (restrict quiet r).hasErrors = r.hasErrors := by
  cases quiet with
  | false => rfl
  | true => simp [restrict, Report.hasErrors, hasErrors]

/-- Hints are no errors, so leaving them out leaves a report with errors or without as it was. -/
theorem hasErrors_assess (source : Source) (hints : Bool)
    (compiled : Option (String × Except OsError Outcome)) :
    (assess source hints compiled).hasErrors = (assess source false compiled).hasErrors := by
  cases hints with
  | false => rfl
  | true =>
    have hfilter : ∀ ds : List Diagnostic,
        hasErrors (ds.filter fun d => !d.isHint) = hasErrors ds := by
      intro ds
      rw [hasErrors, hasErrors, List.any_filter]
      congr 1
      funext d
      cases hs : d.severity <;> simp [Diagnostic.isHint, Diagnostic.isError, hs]
    simp only [assess, Report.hasErrors, hasErrors_append, analyze_eq_filter, hfilter]

/-- **The exit code is read off the answer**, whatever the options. -/
theorem code_present (o : Options) (a : Answer) : (present o a).code = exitCode (!a.fails) := by
  cases a with
  | refused reason => rfl
  | checked source styleHints compiled =>
    simp only [present, finish, Answer.fails, hasErrors_restrict, hasErrors_assess,
      List.isEmpty_map, Bool.not_or, Bool.not_not]

/-! ## Reports in JSON -/

/-- The record of the errors of a report has the errors of its record. -/
theorem toRecord_restrict (r : Report) :
    (restrict true r).toRecord = r.toRecord.onlyErrors := by
  have hname : ∀ d : Diagnostic,
      d.isError = decide ((Record.Item.ofDiagnostic d).severity = Severity.error.name) := by
    intro d
    cases hs : d.severity <;>
      simp [Diagnostic.isError, Record.Item.ofDiagnostic, Severity.name, hs]
  simp only [restrict, if_true, Report.toRecord, Record.onlyErrors, List.filter_map, funext hname,
    Function.comp_def]

/-- What a check prints in JSON: complaints on the error output, the record if there is one on the
standard output, and the exit code. -/
structure Printout where
  complaints : List String
  record : Option Record
  code : Nat

/-- The run that prints a printout. -/
def Printout.run (p : Printout) : Run :=
  ⟨p.complaints.map messageLine ++ p.record.toList.map fun r => outputLine r.toJson.pretty, p.code⟩

/-- The same with the errors of the record only. -/
def Printout.onlyErrors (p : Printout) : Printout :=
  { p with record := p.record.map Record.onlyErrors }

/-- The printout of an answer. -/
def Answer.printout (noStyle : Bool) (a : Answer) : Printout :=
  match a with
  | .refused reason => ⟨[s!"error: {reason}"], none, exitCode (!a.fails)⟩
  | .checked source styleHints compiled =>
    ⟨CommandLine.complaints compiled,
      some (assess source (styleHints && !noStyle) compiled).toRecord, exitCode (!a.fails)⟩

theorem present_json {o : Options} (hjson : o.has .json = true) (a : Answer) :
    present o a =
      if o.has .quiet then (a.printout (o.has .noStyle)).onlyErrors.run
      else (a.printout (o.has .noStyle)).run := by
  have hcode := code_present o a
  cases a with
  | refused reason => split <;> rfl
  | checked source styleHints compiled =>
    simp only [present, finish] at hcode
    simp only [present, finish, hcode, showReport, hjson, if_true]
    cases o.has .quiet with
    | true => simp [toRecord_restrict, Answer.printout, Printout.onlyErrors, Printout.run]
    | false => simp [restrict, Answer.printout, Printout.run]

/-! ## Two runs -/

/-- **Presentation does not change the verdict.** Two checks of a file that agree on whether the
compiler is run have the same exit code; and when both print JSON and agree on style, the quiet one
prints the record of the other with its errors only. -/
theorem run_presentation {m : Type → Type} [Monad m] [LawfulMonad m] (host : Host m)
    {args args' : List String} {file : String} {o o' : Options}
    (hparse : Options.parse args = .run file o) (hparse' : Options.parse args' = .run file o')
    (ho : o.OnlyChecks) (ho' : o'.OnlyChecks) (hcompiler : o'.has .compiler = o.has .compiler) :
    Run.code <$> run host args' = Run.code <$> run host args ∧
      (o.has .json = true → o'.has .json = true → o'.has .noStyle = o.has .noStyle →
        o.has .quiet = false → o'.has .quiet = true →
        ∃ printed : m Printout, run host args = Printout.run <$> printed ∧
          run host args' = (fun p => p.onlyErrors.run) <$> printed) := by
  rw [run_eq_present host hparse ho, run_eq_present host hparse' ho', hcompiler]
  constructor
  · simp only [Functor.map_map, code_present]
  · intro hjson hjson' hstyle hquiet hquiet'
    have hloud : present o = fun a => (a.printout (o.has .noStyle)).run := by
      funext a
      rw [present_json hjson, hquiet]
      rfl
    have hmuted : present o' = fun a => (a.printout (o.has .noStyle)).onlyErrors.run := by
      funext a
      rw [present_json hjson', hquiet', hstyle]
      rfl
    refine ⟨Answer.printout (o.has .noStyle) <$> consult host file (o.has .compiler), ?_, ?_⟩
    · rw [hloud, Functor.map_map]
    · rw [hmuted, Functor.map_map]

/-- A host with one source file, and a compiler in the build directory that always does the same. -/
def loneHost (text : String) (outcome : Outcome) : Host Id where
  readText path := if path = "m.aur" then .ok text else .error .notFound
  isFile path := path == "/p/build/aurora"
  canonical _ := some "/p/m.aur"
  run _ := .ok outcome

/-- No settings are written down. -/
theorem settings_loneHost (text : String) (outcome : Outcome) :
    settings (loneHost text outcome) "m.aur" = .ok (.defaults "/p") := by
  have hparent : Path.parent? "/p/m.aur" = some "/p" := by decide +kernel
  have hpaths : (Path.ancestors "/p").map (Path.join · Config.fileName) =
      ["/p/Aurora.toml", "/Aurora.toml"] := by decide +kernel
  simp [settings, Host.loadConfig, Host.findConfig, Host.firstFile, loneHost, hparent, hpaths, bind,
    pure]

/-- A file with a hint and an error: `--quiet` keeps the exit code and the error. -/
theorem run_presentation_quiet :
    let text := "let a = 1;\nb = 2"
    let host := loneHost text ⟨"", "", .exit 0⟩
    (analyze "m.aur" text true).diagnostics.map (·.severity) = [.error, .hint] ∧
      (run host ["--json", "--quiet", "m.aur"]).code = (run host ["--json", "m.aur"]).code ∧
      ∃ printed : Printout, run host ["--json", "m.aur"] = printed.run ∧
        run host ["--json", "--quiet", "m.aur"] = printed.onlyErrors.run := by
  intro text host
  have hparse : Options.parse ["--json", "m.aur"] =
      .run "m.aur" ⟨some "m.aur", [.json], none⟩ := by decide +kernel
  have hparse' : Options.parse ["--json", "--quiet", "m.aur"] =
      .run "m.aur" ⟨some "m.aur", [.json, .quiet], none⟩ := by decide +kernel
  obtain ⟨hcode, hprinted⟩ :=
    run_presentation host hparse hparse' ⟨rfl, rfl, rfl⟩ ⟨rfl, rfl, rfl⟩ rfl
  exact ⟨by decide +kernel, hcode, hprinted rfl rfl rfl rfl rfl⟩

/-! ## Checks with the compiler -/

/-- The compiler could not be run or did not succeed. -/
def compilerFails : Except OsError Outcome → Bool
  | .error _ => true
  | .ok outcome => !outcome.success

/-- **The exit code of a check with the compiler.** It is 1 exactly when the compiler could not be
run or an error was found, by the analysis or in what the compiler printed. How the compiler ended
does not enter: a failure is told from a success unless the compiler was run, did not succeed and
nothing it printed is read as an error, in a file without errors. -/
theorem code_run_compiler (host : Host Id) {args : List String} {file text : String} {o : Options}
    {config : Config} {result : Except OsError Outcome}
    (hparse : Options.parse args = .run file o) (ho : o.OnlyChecks)
    (hcompiler : o.has .compiler = true) (htext : host.readText file = .ok text)
    (hconfig : settings host file = .ok config)
    (hresult : host.run (.compile (host.compiler config) [] file) = result) :
    let code := (run host args).code
    let found := hasErrors (analyze file text (config.styleHints && !o.has .noStyle)).diagnostics ||
      hasErrors (findings ⟨file, text⟩ (some (host.compiler config, result)))
    (code = 0 ∨ code = 1) ∧
      (code = 1 ↔ (∃ e, result = .error e) ∨ found = true) ∧
      ((compilerFails result = true → code = 1) ∧
          (code = 0 → compilerFails result = false ∧ found = false) ↔
        ¬∃ outcome, result = .ok outcome ∧ outcome.success = false ∧ found = false) := by
  intro code found
  let compiled := some (host.compiler config, result)
  let answer : Answer := .checked ⟨file, text⟩ config.styleHints compiled
  have hanswer : consult host file true = answer := by
    simp only [consult, htext, hconfig, hresult, if_true, bind, pure, answer, compiled]
  have hcode : code = exitCode (!answer.fails) := by
    simp only [code]
    rw [run_eq_present host hparse ho, hcompiler, hanswer]
    exact code_present o _
  have hfound : (assess ⟨file, text⟩ false compiled).hasErrors = found := by
    rw [← hasErrors_assess _ (config.styleHints && !o.has .noStyle)]
    simp only [assess, Report.hasErrors, hasErrors_append, found, compiled]
  simp only [answer, Answer.fails, hfound] at hcode
  cases result with
  | error e =>
    have hone : code = 1 := by simpa [compiled, complaints, exitCode] using hcode
    simp [hone]
  | ok outcome =>
    -- of the compiler's run only its findings are left; how it ended is not looked at
    have hread : code = exitCode (!found) := by simpa [compiled, complaints] using hcode
    cases hf : found <;> cases hs : outcome.success <;>
      simp [hread, hf, hs, exitCode, compilerFails]

/-- A compiler that prints nothing and fails is not noticed. -/
theorem code_run_silent_failure :
    let outcome : Outcome := ⟨"", "", .exit 9⟩
    outcome.success = false ∧
      (run (loneHost "let abc = 1\nlet d = 2\n" outcome) ["m.aur", "--compiler", "--json"]).code =
        0 := by
  decide +kernel

/-- A compiler that names an error and fails is noticed. -/
theorem code_run_compiler_named_error :
    let outcome : Outcome := ⟨"", "Error[E0001]: Unknown name\n  --> m.aur:1:5\n", .exit 1⟩
    let host := loneHost "let abc = 1\nlet d = 2\n" outcome
    compilerFails (.ok outcome) = true ∧ (run host ["m.aur", "--compiler", "--json"]).code = 1 := by
  intro outcome host
  have hparse : Options.parse ["m.aur", "--compiler", "--json"] =
      .run "m.aur" ⟨some "m.aur", [.compiler, .json], none⟩ := by decide +kernel
  obtain ⟨_, hone, _⟩ := code_run_compiler host hparse ⟨rfl, rfl, rfl⟩ rfl rfl
    (settings_loneHost _ outcome) rfl
  refine ⟨rfl, hone.mpr (.inr ?_)⟩
  decide +kernel

end CommandLine

end AuroraLint
