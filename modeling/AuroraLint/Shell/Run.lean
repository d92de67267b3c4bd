import AuroraLint.Shell.Builtin.System
import AuroraLint.Shell.Interpreter
import AuroraLint.Shell.Program
import AuroraLint.Shell.Redirect

/-!
# Running commands

* `Shell.Job`    : what a shell can be asked to do.
* `Shell.step`   : a job, where `run` is how the jobs inside it are done.
* `Shell.runJob` : a job, with so many jobs inside one another at most.

A job leaves its result in the shell that does it (`Session.status`). A command counts as tested
where its failure decides what comes next; any other failure ends a shell that is strict.

Part of the host of recorded runs (`Workspace.host`); no result is about it.
-/

set_option autoImplicit false

namespace AuroraLint.Shell

/-- What a shell can be asked to do. -/
inductive Job where
  | command (c : Command) (tested : Bool)
  /-- The commands of a source, to its end. -/
  | source (s : Source) (tested isFile : Bool)
  /-- A program with the variables that it gets, in the place of the shell. -/
  | image (i : Image) (environment : List (Bytes × Bytes))

/-- How jobs are done. -/
abbrev Runner := Job → Exec Unit

/-! ## Shells inside a shell -/

/-- The texts of what ended programs. -/
def signalTexts : List (Nat × String) :=
  [(1, "Hangup"), (3, "Quit"), (4, "Illegal instruction"), (5, "Trace/breakpoint trap"),
   (6, "Aborted"), (7, "Bus error"), (8, "Floating point exception"), (9, "Killed"),
   (10, "User defined signal 1"), (11, "Segmentation fault"), (12, "User defined signal 2"),
   (14, "Alarm clock"), (15, "Terminated")]

/-- Runs the command for the end of the shell. The result stays, unless that command ends the shell
itself. -/
def atEnd (run : Runner) : Exec Unit := do
  let s ← Exec.session
  match s.traps.lookup "EXIT".toList with
  | none => return ()
  | some text =>
    Exec.update fun s =>
      { s with traps := s.traps.filter (·.1 != "EXIT".toList), trapStatus := some s.status }
    match ← Exec.attempt (run (.source { rest := text } false false)) with
    | .ok _ => Exec.setStatus s.status
    | .error (.killed id n) => throw (.killed id n)
    | .error .exhausted => throw .exhausted
    | .error _ => return ()

/-- Runs an act to the end of the shell that does it. -/
def toEnd (run : Runner) (a : Exec Unit) : Exec Unit := do
  match ← Exec.attempt a with
  | .error (.killed id n) => throw (.killed id n)
  | .error .exhausted => throw .exhausted
  | _ => atEnd run

/-- How an act ended that is a program of its own. -/
def ending (a : Exec Unit) : Exec Ending := do
  match ← Exec.attempt a with
  | .error (.killed id n) =>
    if id = (← Exec.world).id then return .signal n else throw (.killed id n)
  | .error .exhausted => throw .exhausted
  | _ => return .exit ((← Exec.session).status % 256)

/-- Runs an act as a program of its own, which changes nothing of the shell; gives its number. -/
def fork (a : Exec Unit) : Exec (Ending × Nat) := do
  let id := (← Exec.world).nextId
  Exec.updateWorld fun w => { w with nextId := id + 1 }
  let result ← Exec.isolated do
    Exec.updateWorld fun w => { w with id }
    ending a
  return (result, id)

/-- The commands on signals that a shell inside another keeps: those that do nothing. -/
def innerTraps (s : Session) : Session :=
  { s with traps := s.traps.filter (·.2.isEmpty) }

/-- Runs a command in a shell inside this one. -/
def inner (run : Runner) (c : Command) (tested : Bool) : Exec Unit := do
  Exec.update innerTraps
  toEnd run (run (.command c tested))

/-- The result that stands for how a program ended. A program that was ended from outside is
mentioned. -/
def resultOf : Ending → Exec Nat
  | .exit code => return code
  | .signal n => do
    match signalTexts.lookup n with
    | some text => let _ ← Exec.act (Act.write 2 (text.toList ++ ['\n']))
    | none => pure ()
    return 128 + n

/-- Takes the output of a command. -/
def takeOutput (run : Runner) : TakeOutput
  | .empty => return []
  | c => do
    let i ← Exec.act (Act.newChannel (.sink []))
    let (result, _) ← fork do
      Exec.updateWorld (·.connect 1 i)
      inner run c false
    let code ← resultOf result
    Exec.update fun s => { s with innerStatus := code }
    Exec.act (Act.written i)

/-- Runs commands each of which reads what the one before it prints; the first reads from `input` if
it is given. Gives the result of the last. -/
def pipe (run : Runner) (tested : Bool) (input : Option Nat) : List Command → Exec (Ending × Nat)
  | [] => return (.exit 0, 0)
  | [c] =>
    fork do
      input.forM fun i => Exec.updateWorld (·.connect 0 i)
      inner run c tested
  | c :: cs => do
    let i ← Exec.act (Act.newChannel (.sink []))
    let _ ← fork do
      input.forM fun i => Exec.updateWorld (·.connect 0 i)
      Exec.updateWorld (·.connect 1 i)
      inner run c tested
    let text ← Exec.act (Act.written i)
    let next ← Exec.act (Act.newChannel (.supply text))
    pipe run tested (some next) cs

/-- Notes a program that was left running. -/
def leaveRunning (result : Ending) (id : Nat) : Exec Unit := do
  let code := match result with
    | .exit code => code
    | .signal n => 128 + n
  Exec.update fun s =>
    { s with lastBackground := some id, jobs := (id, code) :: s.jobs, status := 0 }

/-! ## Programs -/

/-- The result of a program that cannot be run. -/
def refusalCode : OsError → Nat
  | .notFound => 127
  | .notADirectory => 127
  | .nameTooLong => 127
  | .tooManyLevels => 127
  | _ => 126

/-- What is said about a program that cannot be run. -/
def refusalText : OsError → String
  | .notFound => "not found"
  | .notADirectory => "not found"
  | e => e.reason

/-- The program behind a path. A file that names no interpreter is run by a shell. -/
def imageOf (path called : Bytes) (args : List Bytes) : Exec (Except OsError Image) := do
  match (← Exec.world).image path called args with
  | .error .badFormat => return .ok ⟨"sh", "/bin/sh".toList, path :: args⟩
  | result => return result

/-- The path of a command that is a program; `none` after a complaint. A name with a slash is a
path. -/
def programPath (name : Bytes) : Exec (Option Bytes) := do
  if name.contains '/' then return some name
  match ← Builtin.lookUp name with
  | some path => return some path
  | none =>
    let w ← Exec.world
    let entries := Builtin.pathEntries ((← Exec.value? "PATH".toList).getD [])
    let blocked := entries.any fun d => (w.locate (Builtin.pathIn d name)).isOk
    let reason := if blocked then ": Permission denied" else ": not found"
    Exec.complain (name ++ reason.toList)
    return none

/-- Runs a command that is a program. -/
def program (run : Runner) (name : Bytes) (args : List Bytes) : Exec Unit := do
  match ← programPath name with
  | none => Exec.setStatus 127
  | some path =>
    match ← imageOf path name args with
    | .error e =>
      Exec.complain (name ++ (": " ++ refusalText e).toList)
      Exec.setStatus (refusalCode e)
    | .ok image =>
      let environment ← Exec.environment
      let (result, _) ← fork (run (.image image environment))
      Exec.setStatus (← resultOf result)

/-! ## Commands of the shell that run others -/

/-- The command `eval`. -/
def eval (run : Runner) (tested : Bool) (args : List Bytes) : Exec Nat := do
  run (.source { rest := List.intercalate [' '] args } tested false)
  return (← Exec.session).status

/-- The contents of a file of commands; `none` if there is no such file. -/
def commandFile (path : Bytes) : Exec Bytes := do
  let w ← Exec.world
  match w.openPath path { reads := true } with
  | .error e => Exec.fail ("cannot open ".toList ++ path ++ (": " ++ openReason false e).toList)
  | .ok (w', i) =>
    match w'.channels[i]? with
    | some (.file names _ _ _ _) => return (w'.contents names).filter (· != '\x00')
    | some (.supply rest) =>
      Exec.updateWorld fun _ => w'.setChannel i (.supply [])
      return rest.filter (· != '\x00')
    | _ => return []

/-- The command `.`, which runs the commands of a file in this shell. -/
def dot (run : Runner) (args : List Bytes) : Exec Nat := do
  let (_, args) ← Builtin.letters "" args
  match args with
  | [] => return 0
  | name :: _ =>
    let path ← if name.contains '/' then pure name
      else
        match ← Builtin.search name with
        | some path => pure path
        | none => Exec.failOn name "not found"
    let text ← commandFile path
    Exec.update fun s => { s with command := some path }
    match ← Exec.attempt (run (.source { rest := text } false true)) with
    | .ok _ => return (← Exec.session).status
    | .error .returned => return (← Exec.session).status
    | .error e => throw e

/-- The command `exec`: a program takes the place of the shell. -/
def exec (run : Runner) (args : List Bytes) : Exec Nat := do
  let (_, args) ← Builtin.letters "" args
  match args with
  | [] => return 0
  | name :: args =>
    let found ← if name.contains '/' then pure (some name) else Builtin.search name
    let image ← match found with
      | some path => imageOf path name args
      | none => pure (.error .notFound)
    match image with
    | .error e =>
      Exec.complain (name ++ (": " ++ refusalText e).toList)
      Exec.setStatus (refusalCode e)
      throw .exited
    | .ok image =>
      let environment ← Exec.environment
      match ← Exec.isolated (ending (run (.image image environment))) with
      | .exit code =>
        Exec.update fun s => { s with status := code, traps := [] }
        throw .exited
      | .signal n => throw (.killed (← Exec.world).id n)

/-- The command `exit`. -/
def exit (args : List Bytes) : Exec Nat := do
  match args with
  | [] => Exec.update fun s => { s with status := s.trapStatus.getD s.status }
  | arg :: _ => Exec.setStatus (← Exec.number arg)
  throw .exited

/-- The command `return`. -/
def returnCommand (tested : Bool) (args : List Bytes) : Exec Nat := do
  match args with
  | [] => pure ()
  | arg :: _ => Exec.setStatus (← Exec.number arg)
  if !tested && (← Exec.session).status != 0 && (← Exec.hasOption 'e') then throw .exited
  throw .returned

/-- The commands `break` and `continue`: how many loops they leave, at most those there are. -/
def loopCommand (escape : Nat → Escape) (args : List Bytes) : Exec Nat := do
  let n ← match args with
    | [] => pure 1
    | arg :: _ => do
      let n ← Exec.number arg
      if n = 0 then Exec.fail ("Illegal number: ".toList ++ arg)
      pure n
  let n := min n (← Exec.session).loops
  if n = 0 then return 0
  Exec.setStatus 0
  throw (escape n)

/-- The command `command` where it does not run another. -/
def commandCommand (args : List Bytes) : Exec Nat := do
  let (found, args) ← Builtin.letters "pvV" args
  match args, found.contains 'v' || found.contains 'V' with
  | name :: _, true => Builtin.describe (found.contains 'V') name
  | _, _ => return 0

/-- A command of the shell by its name; gives its result. -/
def builtin (run : Runner) (tested : Bool) (name : Bytes) (args : List Bytes) : Exec Nat :=
  match String.ofList name with
  | "." => dot run args
  | ":" => return 0
  | "[" => Builtin.test true args
  | "alias" => Builtin.aliasCommand args
  | "bg" => Exec.fail "No current job".toList
  | "break" => loopCommand .left args
  | "cd" => Builtin.cd args
  | "chdir" => Builtin.cd args
  | "command" => commandCommand args
  | "continue" => loopCommand .continued args
  | "echo" => Builtin.echo args
  | "eval" => eval run tested args
  | "exec" => exec run args
  | "exit" => exit args
  | "export" => Builtin.exportCommand args
  | "false" => return 1
  | "fg" => Exec.fail "No current job".toList
  | "getopts" => Builtin.getopts args
  | "hash" => Builtin.hash args
  | "kill" => Builtin.kill args
  | "local" => Builtin.localCommand args
  | "printf" => Builtin.printf args
  | "pwd" => Builtin.pwd args
  | "read" => Builtin.readCommand args
  | "readonly" => Builtin.readonlyCommand args
  | "return" => returnCommand tested args
  | "set" => Builtin.setCommand args
  | "shift" => Builtin.shift args
  | "test" => Builtin.test false args
  | "times" => Builtin.times
  | "trap" => Builtin.trap args
  | "type" => Builtin.typeCommand args
  | "ulimit" => do
    Exec.sayLine "unlimited".toList
    return 0
  | "umask" => Builtin.umask args
  | "unalias" => Builtin.unaliasCommand args
  | "unset" => Builtin.unsetCommand args
  | "wait" => Builtin.wait args
  | _ => return 0

/-- Runs a command of the shell. What it prints comes after its complaints. A fault in it ends the
shell if the command is special. -/
def runBuiltin (run : Runner) (tested special : Bool) (name : Bytes) (args : List Bytes) :
    Exec Unit := do
  let before := (← Exec.session).command
  Exec.update fun s => { s with command := some name, printed := [] }
  let result ← Exec.attempt do
    let code ← builtin run tested name args
    Exec.update fun s => { s with command := some name }
    if ← Exec.flush then Exec.setStatus code
    else
      Exec.complain (name ++ ": I/O error".toList)
      Exec.setStatus (if code % 2 = 0 then code + 1 else code)
  let _ ← Exec.flush
  Exec.update fun s => { s with command := before }
  match result with
  | .ok _ => return ()
  | .error .failed => if special then throw .failed
  | .error e => throw e

/-! ## Functions -/

/-- The most functions inside one another. -/
def maxCalls : Nat := 1000

/-- Runs a function with arguments. -/
def callFunction (run : Runner) (tested : Bool) (f : Function) (args : List Bytes) :
    Exec Unit := do
  let s ← Exec.session
  if maxCalls ≤ s.calls then
    Exec.fail "Maximum function recursion depth (1000) reached".toList
  Exec.update fun s =>
    { s with args, loops := 0, calls := s.calls + 1, optionIndex := 1, optionOffset := 0 }
  let body := Exec.attempt (run (.command f.body tested))
  let result ← Exec.thenAlways body (Exec.update fun t =>
    { t with
      args := s.args
      loops := s.loops
      calls := s.calls
      optionIndex := s.optionIndex
      optionOffset := s.optionOffset })
  match result with
  | .ok _ => return ()
  | .error .returned => return ()
  | .error e => throw e

/-! ## Simple commands -/

/-- What a simple command runs. -/
inductive Callee where
  | nothing
  | builtin (special : Bool)
  | function (f : Function)
  | program

/-- The words behind `command` if it runs another command: without options other than `-p`. -/
def behindCommand : List Bytes → Option (List Bytes)
  | [] => none
  | arg :: args =>
    match arg with
    | ['-', '-'] => if args.isEmpty then none else some args
    | '-' :: c :: cs => if (c :: cs).all (· == 'p') then behindCommand args else none
    | _ => some (arg :: args)

/-- The words of a command without each `command` before them, and whether there was one; at most
`fuel` of them are looked for. -/
def stripped : Nat → List Bytes → List Bytes × Bool
  | 0, args => (args, false)
  | fuel + 1, args =>
    match args with
    | name :: rest =>
      if name = "command".toList then
        match behindCommand rest with
        | some args => ((stripped fuel args).1, true)
        | none => (name :: rest, false)
      else (args, false)
    | [] => ([], false)

/-- The fields of words. Behind a command that sets variables, a word that sets one is not
divided. -/
def arguments (take : TakeOutput) (before : List Bytes) : List Word → Exec (List Bytes)
  | [] => return before
  | w :: ws => do
    let name := ((stripped (before.length + 1) before).1.head?).getD []
    match w.assignment?, Builtin.declares name with
    | some (target, value), true =>
      let text ← Expand.setting take value
      arguments take (before ++ [target ++ ['='] ++ text]) ws
    | _, _ => arguments take (before ++ (← Expand.fields take w)) ws

/-- What the name of a command stands for. -/
def callee (name : Bytes) (noFunctions : Bool) : Exec Callee := do
  if name.contains '/' then return .program
  let s ← Exec.session
  match if noFunctions then none else s.functions.lookup name with
  | some f => return .function f
  | none =>
    if Builtin.isKnown name then return .builtin (Builtin.isSpecial name && !noFunctions)
    return .program

/-- Shows a command before it runs, on the channel that complaints went to before it. -/
def trace (channel : Option Nat) (settings : List (Bytes × Bytes)) (args : List Bytes) :
    Exec Unit := do
  if ← Exec.hasOption 'x' then
    let mark := (← Exec.value? "PS4".toList).getD []
    let words := settings.map (fun (name, value) => name ++ ['='] ++ value) ++ args
    let text := mark ++ List.intercalate [' '] words ++ ['\n']
    match channel with
    | some i => let _ ← Exec.act (Act.writeChannel i text)
    | none => return ()

/-- Gives variables values, for the command only or for good. -/
def assign (take : TakeOutput) (forCommand exports : Bool) (settings : List (Bytes × Word)) :
    Exec (List (Bytes × Bytes)) :=
  settings.mapM fun (name, w) => do
    let value ← Expand.setting take w
    if forCommand then Exec.save name
    Exec.set name value (forCommand || exports)
    return (name, value)

/-- A simple command whose words are expanded and whose redirections are known: the redirections are
carried out, then variables are set, then it runs. -/
def perform (run : Runner) (tested : Bool) (what : Callee) (args : List Bytes)
    (settings : List (Bytes × Word)) (ts : List Target) : Exec Unit := do
  let special := match what with
    | .builtin special => special
    | _ => false
  let forCommand := match what with
    | .nothing => false
    | .builtin special => !special
    | _ => true
  let channel := (← Exec.world).descriptors.lookup 2
  match ← Exec.attempt (ts.forM (redirect (takeOutput run))) with
  | .error .failed => if special then throw .failed
  | .error e => throw e
  | .ok _ =>
    let exports := args.head? = some "exec".toList && 1 < args.length
    let values ← assign (takeOutput run) forCommand exports settings
    trace channel values args
    match what, args with
    | .builtin special, name :: args => runBuiltin run tested special name args
    | .function f, _ :: args => callFunction run tested f args
    | .program, name :: args => program run name args
    | _, _ => Exec.update fun s => { s with status := s.innerStatus }

/-- A simple command. The redirections of `exec` stay in place. -/
def simple (run : Runner) (tested : Bool) (line : Nat) (settings : List (Bytes × Word))
    (words : List Word) (rs : List Redirection) : Exec Unit := do
  Exec.update fun s => { s with line, innerStatus := 0 }
  let all ← arguments (takeOutput run) [] words
  let (args, noFunctions) := stripped (all.length + 1) all
  let what ← match args with
    | [] => pure Callee.nothing
    | name :: _ => callee name noFunctions
  let what := match what with
    | .builtin special => Callee.builtin (special && !noFunctions)
    | what => what
  let body := do
    let ts ← targets (takeOutput run) rs
    if args.head? = some "exec".toList then perform run tested what args settings ts
    else Exec.keepingDescriptors (perform run tested what args settings ts)
  match what with
  | .nothing => body
  | .builtin true => body
  | _ => Exec.restoring body

/-! ## Loops -/

/-- Whether a loop goes on. -/
inductive Course where
  | next
  | over
  deriving DecidableEq, Repr

/-- Runs a part of a loop, and says whether the loop goes on. -/
def course (a : Exec Unit) : Exec Course := do
  match ← Exec.attempt a with
  | .ok _ => return .next
  | .error (.left n) => if n ≤ 1 then return .over else throw (.left (n - 1))
  | .error (.continued n) => if n ≤ 1 then return .next else throw (.continued (n - 1))
  | .error e => throw e

/-- The most times that a loop is repeated. -/
def maxRepetitions : Nat := 1000000

/-- Repeats the body as long as the test says so, with the result so far. -/
def repeatWhile (test : Exec (Option Bool)) (body : Exec Course) : Nat → Nat → Exec Nat
  | 0, _ => throw .exhausted
  | fuel + 1, result => do
    match ← test with
    | none => repeatWhile test body fuel result
    | some false => return result
    | some true =>
      let c ← body
      let result := (← Exec.session).status
      if c = .over then return result
      repeatWhile test body fuel result

/-- A loop with a test. A test that goes on with the loop starts it again. -/
def loop (run : Runner) (tested whileFails : Bool) (test body : Command) : Exec Nat :=
  let decided : Exec (Option Bool) := fun s =>
    match Exec.attempt (run (.command test true)) s with
    | .ok (.ok _) s => .ok (some ((s.session.status == 0) != whileFails)) s
    | .ok (.error (.left n)) s => if n ≤ 1 then .ok (some false) s else .error (.left (n - 1)) s
    | .ok (.error (.continued n)) s =>
      if n ≤ 1 then .ok none s else .error (.continued (n - 1)) s
    | .ok (.error e) s => .error e s
    | .error e s => .error e s
  repeatWhile decided (course (run (.command body tested))) maxRepetitions 0

/-- A loop over words, with the result so far. -/
def eachWord (run : Runner) (tested : Bool) (name : Bytes) (body : Command) (result : Nat) :
    List Bytes → Exec Nat
  | [] => return result
  | word :: rest => do
    Exec.set name word
    let c ← course (run (.command body tested))
    let result := (← Exec.session).status
    if c = .over then return result
    eachWord run tested name body result rest

/-- Runs an act inside one more loop. -/
def insideLoop (a : Exec Nat) : Exec Unit := do
  Exec.update fun s => { s with loops := s.loops + 1 }
  let result ← Exec.thenAlways a (Exec.update fun s => { s with loops := s.loops - 1 })
  Exec.setStatus result

/-! ## Commands -/

/-- A pattern among some fits a text. -/
def fitsAny (take : TakeOutput) (text : Bytes) : List Word → Exec Bool
  | [] => return false
  | w :: ws => do
    if Pattern.fits (← Expand.pattern take w) text then return true
    fitsAny take text ws

/-- The first branch that has a pattern which fits a text. -/
def branch (take : TakeOutput) (text : Bytes) :
    List (List Word × Command) → Exec (Option Command)
  | [] => return none
  | (ws, body) :: rest => do
    if ← fitsAny take text ws then return some body
    branch take text rest

/-- A strict shell ends after a command that failed and was not tested. -/
def checkFailure (tested : Bool) : Exec Unit := do
  if !tested && (← Exec.session).status != 0 && (← Exec.hasOption 'e') then throw .exited

/-- Runs the commands of the signals that have come. -/
def answerSignals (run : Runner) : Exec Unit := do
  let s ← Exec.session
  if !s.signals.isEmpty then
    Exec.update fun s => { s with signals := [] }
    s.signals.forM fun name => do
      match s.traps.lookup name with
      | none => return ()
      | some text =>
        Exec.update fun t => { t with trapStatus := some s.status }
        run (.source { rest := text } false false)
        Exec.update fun t => { t with trapStatus := none, status := s.status }

/-- Runs a command. -/
def evaluate (run : Runner) (tested : Bool) (c : Command) : Exec Unit := do
  let take := takeOutput run
  match c with
  | .empty => return ()
  | .simple line settings words rs =>
    simple run tested line settings words rs
    answerSignals run
    checkFailure tested
  | .sequence first second =>
    run (.command first tested)
    run (.command second tested)
  | .both first second =>
    run (.command first true)
    if (← Exec.session).status = 0 then run (.command second tested)
  | .either first second =>
    run (.command first true)
    if (← Exec.session).status ≠ 0 then run (.command second tested)
  | .negation body =>
    run (.command body true)
    Exec.update fun s => { s with status := if s.status = 0 then 1 else 0 }
  | .pipeline stages background =>
    if background then
      let i ← Exec.act (Act.newChannel .null)
      let (result, id) ← pipe run false (some i) stages
      leaveRunning result id
    else
      let (result, _) ← pipe run tested none stages
      Exec.setStatus (← resultOf result)
    checkFailure tested
  | .redirected line body rs =>
    Exec.update fun s => { s with line }
    let ts ← targets take rs
    Exec.keepingDescriptors do
      match ← Exec.attempt (ts.forM (redirect take)) with
      | .ok _ => run (.command body tested)
      | .error .failed => return ()
      | .error e => throw e
  | .subshell line body rs =>
    Exec.update fun s => { s with line }
    let ts ← targets take rs
    let (result, _) ← fork do
      Exec.update innerTraps
      toEnd run do
        ts.forM (redirect take)
        run (.command body tested)
    Exec.setStatus (← resultOf result)
    checkFailure tested
  | .background line body rs =>
    Exec.update fun s => { s with line }
    let ts ← targets take rs
    let (result, id) ← fork do
      Exec.update innerTraps
      let i ← Exec.act (Act.newChannel .null)
      Exec.updateWorld (·.connect 0 i)
      toEnd run do
        ts.forM (redirect take)
        run (.command body false)
    leaveRunning result id
  | .conditional test yes no =>
    run (.command test true)
    if (← Exec.session).status = 0 then run (.command yes tested)
    else
      match no with
      | some no => run (.command no tested)
      | none => Exec.setStatus 0
  | .loop whileFails test body => insideLoop (loop run tested whileFails test body)
  | .each line name words body =>
    Exec.update fun s => { s with line }
    let parts ← words.mapM (Expand.fields take)
    insideLoop (eachWord run tested name body 0 parts.flatten)
  | .choice line subject branches =>
    Exec.update fun s => { s with line }
    let text ← Expand.single take subject
    match ← branch take text branches with
    | some .empty => Exec.setStatus 0
    | some body => run (.command body tested)
    | none => Exec.setStatus 0
  | .function line name body =>
    Exec.update fun s =>
      { s with
        functions := (name, ⟨line, body⟩) :: s.functions.filter (·.1 != name)
        status := 0 }

/-! ## Sources -/

/-- A command that does nothing. -/
def isEmptyCommand : Command → Bool
  | .empty => true
  | _ => false

/-- Runs the commands of a source, at most `fuel` lines, with the result so far. -/
def lines (run : Runner) (tested isFile : Bool) : Nat → Source → Nat → Exec Nat
  | 0, _, result => return result
  | fuel + 1, source, result => do
    let s ← Exec.session
    let source :=
      { source with aliases := s.aliases, nextDocument := s.nextDocument, documents := [] }
    let note := fun (rest : Source) =>
      Exec.update fun s =>
        { s with
          sourceLine := rest.line
          documents := rest.documents ++ s.documents
          nextDocument := rest.nextDocument }
    match source.next with
    | .finished rest =>
      note rest
      return result
    | .fault f rest =>
      note rest
      Exec.update fun s => { s with line := rest.line }
      Exec.fail ("Syntax error: " ++ f.message).toList
    | .commands c rest =>
      note rest
      if isFile && s.options.contains 'v' then
        let text := source.rest.take (source.rest.length - rest.rest.length)
        let _ ← Exec.act (Act.write 2 text)
      run (.command c tested)
      let after := (← Exec.session).status
      let result := if isEmptyCommand c then result else after
      lines run tested isFile fuel rest result

/-- Runs the commands of a source to its end. -/
def runSource (run : Runner) (s : Source) (tested isFile : Bool) : Exec Unit := do
  let before := (← Exec.session).sourceLine
  let body := lines run tested isFile (s.rest.length + 2) s 0
  let result ← Exec.thenAlways body (Exec.update fun t => { t with sourceLine := before })
  Exec.setStatus result

/-! ## Whole programs -/

/-- The variables that a shell starts with, besides those it gets. -/
def ownBindings (directory : Bytes) : List (Bytes × Variable) :=
  [("IFS".toList, { value := some blanks }),
   ("OPTIND".toList, { value := some ['1'] }),
   ("PS1".toList, { value := some ['#', ' '] }),
   ("PS2".toList, { value := some ['>', ' '] }),
   ("PS4".toList, { value := some ['+', ' '] }),
   ("PWD".toList, { value := some directory, exported := true })]

/-- What a shell remembers at its start. -/
def startSession (w : World) (called : Bytes) (environment : List (Bytes × Bytes)) : Session :=
  let own := ownBindings (Workspace.pathOf w.directory)
  let given := environment.filter fun (name, _) =>
    isName name && (own.lookup name).isNone
  { name := called
    id := w.id
    bindings := own ++ given.reverse.map fun (name, value) =>
      (name, { value := some value, exported := true }) }

/-- The options of a shell at the head of its arguments, at most `fuel`: what follows them, and
whether commands are given as a text. -/
def shellOptions : Nat → Bool → List Bytes → Exec (Bool × List Bytes)
  | 0, asText, args => return (asText, args)
  | fuel + 1, asText, args => do
    match args with
    | ['-'] :: rest => return (asText, rest)
    | ['-', '-'] :: rest => return (asText, rest)
    | ('-' :: c :: cs) :: rest =>
      let letters := (c :: cs).filter fun c => c != 'c' && c != 'l'
      let rest ← Builtin.switchLetters true rest letters
      shellOptions fuel (asText || (c :: cs).contains 'c') rest
    | ('+' :: letters) :: rest => shellOptions fuel asText (← Builtin.switchLetters false rest letters)
    | args => return (asText, args)

/-- A shell: its options come first, then a file of commands or a text, its name and arguments.
Without these, the commands are read from the input. -/
def shellMain (run : Runner) (args : List Bytes) : Exec Unit := do
  let (asText, args) ← shellOptions (args.length + 1) false args
  let _ ← Exec.flush
  match asText, args with
  | true, [] => Exec.fail "-c requires an argument".toList
  | true, text :: rest =>
    Exec.update fun s => { s with name := rest.head?.getD s.name, args := rest.tail }
    run (.source { rest := text.filter (· != '\x00') } false false)
  | false, file :: rest =>
    if ← Exec.hasOption 's' then
      Exec.update fun s => { s with args := file :: rest }
      fromInput
    else
      let text ← commandFile file
      Exec.update fun s => { s with name := file, args := rest }
      run (.source { rest := text } false true)
  | false, [] =>
    Builtin.setOption 's' true
    fromInput
where
  /-- Runs commands that are read from the input. -/
  fromInput : Exec Unit := do
    match ← Exec.act (Act.readAll 0) with
    | .ok text => run (.source { rest := text.filter (· != '\x00') } false true)
    | .error _ => return ()

/-- Runs programs one after another, and gives the greatest of their results. -/
def runEach (run : Runner) (called name : Bytes) (environment : List (Bytes × Bytes)) :
    List (List Bytes) → Exec Nat
  | [] => return 0
  | args :: rest => do
    let found ← if name.contains '/' then pure (some name) else Builtin.search name
    let image ← match found with
      | some path => imageOf path name args
      | none => pure (.error .notFound)
    match image with
    | .error e =>
      let text := called ++ [':', ' '] ++ name ++ (": " ++ e.reason ++ "\n").toList
      let _ ← Exec.act (Act.write 2 text)
      return refusalCode e
    | .ok image =>
      let (result, _) ← fork (run (.image image environment))
      let code := if result = .exit 0 then 0 else 123
      return max code (← runEach run called name environment rest)

/-- Runs a program of the system in the place of the shell. -/
def runImage (run : Runner) (image : Image) (environment : List (Bytes × Bytes)) : Exec Unit := do
  let w ← Exec.world
  Exec.update fun _ => startSession w image.called environment
  if ["sh", "dash", "bash"].contains image.program then toEnd run (shellMain run image.args)
  else
    match ← Exec.act (Program.run image.program ⟨image.called, image.args, environment⟩) with
    | .exit code => Exec.setStatus code
    | .each name argLists => Exec.setStatus (← runEach run image.called name environment argLists)
    | .become name args environment =>
      let found ← if name.contains '/' then pure (some name) else Builtin.search name
      let next ← match found with
        | some path => imageOf path name args
        | none => pure (.error .notFound)
      match next with
      | .ok next => run (.image next environment)
      | .error e =>
        let text := image.called ++ ": '".toList ++ name ++ ("': " ++ e.reason ++ "\n").toList
        let _ ← Exec.act (Act.write 2 text)
        Exec.setStatus (refusalCode e)

/-! ## Jobs -/

/-- Does a job, where `run` is how the jobs inside it are done. -/
def step (run : Runner) : Job → Exec Unit
  | .command c tested => do
    if !(← Exec.hasOption 'n') then evaluate run tested c
  | .source s tested isFile => runSource run s tested isFile
  | .image image environment => runImage run image environment

/-- Does a job, with at most so many jobs inside one another. -/
def runJob : Nat → Runner
  | 0, _ => throw .exhausted
  | depth + 1, job => step (runJob depth) job

end AuroraLint.Shell
