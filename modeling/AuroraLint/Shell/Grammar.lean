import AuroraLint.Shell.Lexer

/-!
# The grammar of scripts

* `Shell.Source.next` : the commands of the next line, as far as they go on over further lines.

A line is read as a whole before its first command runs, so a fault in it keeps all of it from
running. Commands that stand inside others are read by the same rules with less depth left.

Part of the host of recorded runs (`Workspace.host`); no result is about it.
-/

set_option autoImplicit false

namespace AuroraLint.Shell

namespace Grammar

/-- What can be asked for inside a command. -/
inductive Goal where
  /-- Commands up to something that ends them; there may have to be at least one. -/
  | list (mayBeEmpty : Bool)
  | command
  deriving DecidableEq, Repr

/-- How the commands inside a command are read. -/
abbrev Nested := Goal → Read Command

open Lexer (Expecting)

/-! ## Tokens -/

/-- The next token. -/
def next (nested : Nested) (e : Expecting) : Read Token :=
  Lexer.token (nested (.list true)) e

/-- Where a command starts. -/
def atStart : Expecting :=
  { keywords := true, aliases := true }

/-- Where a command starts, on this line or a later one. -/
def atStartOrLater : Expecting :=
  { keywords := true, aliases := true, skipsLines := true }

/-- A token is not what should stand here. -/
def unexpected {α : Type} (t : Token) (expected : Option Token) : Read α :=
  throw (.unexpected t expected)

/-- A keyword has to stand here. -/
def expect (nested : Nested) (e : Expecting) (k : Keyword) : Read Unit := do
  let t ← next nested e
  if !t.isKeyword k then unexpected t (some (.keyword k))

/-- A token that stands for a word. -/
def Token.word? : Token → Option Word
  | .word w _ => some w
  | .keyword k => some (Word.ofBytes k.spelling.toList)
  | _ => none

/-! ## Redirections -/

/-- The target of a redirection. A document is noted, to be read where the line ends. -/
def redirection (nested : Nested) (head : RedirectionHead) : Read Redirection := do
  match head.direction with
  | .document id =>
    match ← next nested { isMark := true } with
    | .word w quoted =>
      let p : PendingDocument :=
        { id, mark := w.letters, dropsTabs := head.dropsTabs, expands := !quoted }
      modify fun s => { s with pending := s.pending ++ [p] }
      return .mk head.descriptor head.direction []
    | t => unexpected t none
  | direction =>
    match ← next nested {} with
    | .word w _ => return .mk head.descriptor direction w
    | t => unexpected t none

/-- The redirections behind a compound command, at most `fuel`. A keyword can stand right behind the
command, but not behind a redirection. -/
def redirections (nested : Nested) (e : Expecting) : Nat → Read (List Redirection)
  | 0 => pure []
  | fuel + 1 => do
    match ← next nested e with
    | .redirection head =>
      let r ← redirection nested head
      return r :: (← redirections nested {} fuel)
    | t =>
      Read.putBackToken t
      return []

/-! ## Simple commands -/

/-- The commands that no function can be named like. -/
def specialNames : List String :=
  [".", ":", "break", "continue", "eval", "exec", "exit", "export", "local", "readonly", "return",
   "set", "shift", "times", "trap", "unset"]

/-- The parts of a simple command in reverse. -/
structure Simple where
  settings : List (Bytes × Word) := []
  words : List Word := []
  redirections : List Redirection := []

/-- The parts of a simple command, at most `fuel` more. Words that set variables come before all
others. One word before two parentheses names a function. -/
def simpleParts (nested : Nested) (line : Nat) : Nat → Simple → Read Command
  | 0, _ => throw .tooDeep
  | fuel + 1, c => do
    let done : Command :=
      .simple line c.settings.reverse c.words.reverse c.redirections.reverse
    match ← next nested { aliases := c.words.isEmpty } with
    | .word w _ =>
      match if c.words.isEmpty then w.assignment? else none with
      | some setting => simpleParts nested line fuel { c with settings := setting :: c.settings }
      | none => simpleParts nested line fuel { c with words := w :: c.words }
    | .redirection head =>
      let r ← redirection nested head
      simpleParts nested line fuel { c with redirections := r :: c.redirections }
    | .openParen =>
      match c.settings, c.words, c.redirections with
      | [], [w], [] =>
        match ← next nested {} with
        | .closeParen =>
          let name := (Word.plain? w).getD []
          if !isName name || specialNames.any (·.toList == name) then throw .badFunctionName
          let line := (← get).line
          return .function line name (← nested .command)
        | t => unexpected t (some .closeParen)
      | _, _, _ =>
        Read.putBackToken .openParen
        return done
    | t =>
      Read.putBackToken t
      return done

/-! ## Compound commands -/

/-- What follows `then` in a conditional, up to its end, with at most `fuel` more tests. -/
def conditional (nested : Nested) : Nat → Read Command
  | 0 => throw .tooDeep
  | fuel + 1 => do
    let test ← nested (.list false)
    expect nested {} .then
    let yes ← nested (.list false)
    match ← next nested {} with
    | .keyword .elif => return .conditional test yes (some (← conditional nested fuel))
    | .keyword .else =>
      let no ← nested (.list false)
      expect nested {} .fi
      return .conditional test yes (some no)
    | t =>
      if !t.isKeyword .fi then unexpected t (some (.keyword .fi))
      return .conditional test yes none

/-- A loop, behind its first keyword. -/
def loop (nested : Nested) (whileFails : Bool) : Read Command := do
  let test ← nested (.list false)
  expect nested {} .do
  let body ← nested (.list false)
  expect nested {} .done
  return .loop whileFails test body

/-- The words of a loop up to the end of their line, at most `fuel`. -/
def loopWords (nested : Nested) : Nat → Read (List Word)
  | 0 => throw .tooDeep
  | fuel + 1 => do
    match ← next nested {} with
    | .word w _ => return w :: (← loopWords nested fuel)
    | .newline | .semicolon => return []
    | t => unexpected t none

/-- A loop over words, behind its first keyword; without words, over all arguments. -/
def each (nested : Nested) (line : Nat) : Read Command := do
  let name ← match ← next nested {} with
    | .word w false =>
      match Word.plain? w with
      | some name => if isName name then pure name else throw .badLoopVariable
      | none => throw .badLoopVariable
    | _ => throw .badLoopVariable
  let words ← match ← next nested atStartOrLater with
    | .keyword .in => loopWords nested (← Read.bound)
    | .semicolon => pure [Word.allArguments]
    | t => do
      Read.putBackToken t
      pure [Word.allArguments]
  expect nested atStartOrLater .do
  let body ← nested (.list false)
  expect nested {} .done
  return .each line name words body

/-- Where a branch starts. -/
def atBranch : Expecting :=
  { keywords := true, skipsLines := true }

/-- The patterns of a branch, from a token on, at most `fuel`. -/
def patterns (nested : Nested) : Nat → Token → Read (List Word)
  | 0, _ => throw .tooDeep
  | fuel + 1, t => do
    let w := (Token.word? t).getD (← get).lastWord
    match ← next nested {} with
    | .bar => return w :: (← patterns nested fuel (← next nested {}))
    | .closeParen => return [w]
    | t => unexpected t (some .closeParen)

/-- The branches of a choice, at most `fuel`, up to its last keyword. -/
def branches (nested : Nested) : Nat → Read (List (List Word × Command))
  | 0 => throw .tooDeep
  | fuel + 1 => do
    let t ← next nested atBranch
    if t.isKeyword .esac then return []
    let t ← match t with
      | .openParen => next nested {}
      | t => pure t
    let ws ← patterns nested (← Read.bound) t
    let body ← nested (.list true)
    let t ← next nested atBranch
    match t with
    | .endBranch => return (ws, body) :: (← branches nested fuel)
    | t =>
      if !t.isKeyword .esac then unexpected t (some .endBranch)
      return [(ws, body)]

/-- A choice by patterns, behind its first keyword. -/
def choice (nested : Nested) (line : Nat) : Read Command := do
  match ← next nested {} with
  | .word subject _ =>
    expect nested atStartOrLater .in
    return .choice line subject (← branches nested (← Read.bound))
  | t => unexpected t (some (.word [] false))

/-- A compound command with the redirections behind it. -/
def withRedirections (nested : Nested) (line : Nat) (c : Command) : Read Command := do
  let rs ← redirections nested atStart (← Read.bound)
  match c with
  | .subshell line body _ => return .subshell line body rs
  | c => return if rs.isEmpty then c else .redirected line c rs

/-- A command. -/
def command (nested : Nested) (e : Expecting) : Read Command := do
  let line := (← get).line
  let compound := withRedirections nested line
  match ← next nested e with
  | .keyword .if => compound (← conditional nested (← Read.bound))
  | .keyword .while => compound (← loop nested false)
  | .keyword .until => compound (← loop nested true)
  | .keyword .for => compound (← each nested line)
  | .keyword .case => compound (← choice nested line)
  | .openParen =>
    let body ← nested (.list false)
    match ← next nested {} with
    | .closeParen => compound (.subshell line body [])
    | t => unexpected t (some .closeParen)
  | .keyword .openBrace =>
    let body ← nested (.list false)
    expect nested {} .closeBrace
    compound body
  | .word w quoted =>
    Read.putBackToken (.word w quoted)
    simpleParts nested (← get).line (← Read.bound) {}
  | .redirection head =>
    Read.putBackToken (.redirection head)
    simpleParts nested (← get).line (← Read.bound) {}
  | t => unexpected t none

/-! ## Lists of commands -/

/-- The commands that read what those before them print, at most `fuel`. -/
def stages (nested : Nested) : Nat → Read (List Command)
  | 0 => throw .tooDeep
  | fuel + 1 => do
    match ← next nested {} with
    | .bar =>
      let c ← command nested atStartOrLater
      return c :: (← stages nested fuel)
    | t =>
      Read.putBackToken t
      return []

/-- A command and those that read what it prints. -/
def pipeline (nested : Nested) (e : Expecting) : Read Command := do
  let joined := fun (first : Command) => do
    match ← stages nested (← Read.bound) with
    | [] => return first
    | rest => return Command.pipeline (first :: rest) false
  match ← next nested e with
  | .keyword .not => return .negation (← joined (← command nested atStart))
  | t =>
    Read.putBackToken t
    joined (← command nested {})

/-- What is joined to a command by `&&` and `||`, at most `fuel` commands. -/
def joinedTo (nested : Nested) : Nat → Command → Read Command
  | 0, _ => throw .tooDeep
  | fuel + 1, c => do
    match ← next nested {} with
    | .andThen => joinedTo nested fuel (.both c (← pipeline nested atStartOrLater))
    | .orElse => joinedTo nested fuel (.either c (← pipeline nested atStartOrLater))
    | t =>
      Read.putBackToken t
      return c

/-- A command that runs beside the shell. -/
def inBackground : Command → Command
  | .pipeline cs _ => .pipeline cs true
  | .redirected line c rs => .background line c rs
  | c => .background 0 c []

/-- A command behind others. -/
def follow : Option Command → Command → Option Command
  | none, c => some c
  | some before, c => some (.sequence before c)

/-- The commands that follow others, at most `fuel`. On a line of its own, a list ends with the line;
otherwise with a token that ends lists, which is put back. -/
def listFrom (nested : Nested) (onLine : Bool) :
    Nat → Bool → Option Command → Read (Option Command)
  | 0, _, _ => throw .tooDeep
  | fuel + 1, mayEnd, before => do
    let documents := Lexer.documents (nested (.list true))
    match ← next nested (if onLine then atStart else atStartOrLater) with
    | .newline =>
      documents
      return some (before.getD .empty)
    | .finish =>
      documents
      Read.putBackToken .finish
      return before
    | t =>
      Read.putBackToken t
      if mayEnd && t.endsList then return before
      let c ← joinedTo nested (← Read.bound) (← pipeline nested {})
      match ← next nested {} with
      | .finish =>
        documents
        Read.putBackToken .finish
        return follow before c
      | .newline =>
        Read.putBackToken .newline
        listFrom nested onLine fuel (!onLine) (follow before c)
      | .background => listFrom nested onLine fuel (!onLine) (follow before (inBackground c))
      | .semicolon => listFrom nested onLine fuel (!onLine) (follow before c)
      | t =>
        if onLine then unexpected t none
        Read.putBackToken t
        return follow before c

/-- Commands inside a command, nested `depth` deep at most. -/
def within : Nat → Nested
  | 0, _ => throw .tooDeep
  | depth + 1, .list mayBeEmpty => do
    return (← listFrom (within depth) false (← Read.bound) mayBeEmpty none).getD .empty
  | depth + 1, .command => command (within depth) atStartOrLater

/-- The commands of the next line; `none` at the end of the source. -/
def line : Read (Option Command) := do
  modify fun s => { s with pushed := none, pending := [] }
  let depth ← Read.bound
  listFrom (within depth) true depth false none

end Grammar

/-- What is found at the next line of a source. -/
inductive Source.Next where
  | commands (c : Command) (rest : Source)
  | finished (rest : Source)
  | fault (f : Fault) (rest : Source)

/-- The commands of the next line of a source, as far as they go on over further lines. -/
def Source.next (s : Source) : Source.Next :=
  match Grammar.line s with
  | .ok (some c) rest => .commands c rest
  | .ok none rest => .finished rest
  | .error f rest => .fault f rest

end AuroraLint.Shell
