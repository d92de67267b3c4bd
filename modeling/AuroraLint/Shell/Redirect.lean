import AuroraLint.Shell.Expansion

/-!
# Redirections

* `Shell.targets`  : what the words of redirections stand for.
* `Shell.redirect` : a redirection carried out.

Part of the host of recorded runs (`Workspace.host`); no result is about it.
-/

set_option autoImplicit false

namespace AuroraLint.Shell

/-- A redirection, and what its word stands for. -/
structure Target where
  descriptor : Nat
  direction : Direction
  text : Bytes
  deriving DecidableEq, Repr

/-- A word names a descriptor, or a dash for none. -/
def namesDescriptor (text : Bytes) : Bool :=
  text == ['-'] || (text.length == 1 && text.all Char.isDigit)

/-- What the words of redirections stand for. -/
def targets (take : TakeOutput) (rs : List Redirection) : Exec (List Target) :=
  rs.mapM fun (.mk descriptor direction w) => do
    match direction with
    | .document _ => return ⟨descriptor, direction, []⟩
    | .duplicate =>
      let text ← Expand.single take w
      if !namesDescriptor text then
        Exec.update fun s => { s with line := s.sourceLine }
        Exec.fail "Syntax error: Bad fd number".toList
      return ⟨descriptor, direction, text⟩
    | _ => return ⟨descriptor, direction, ← Expand.single take w⟩

/-- The reason why a file cannot be opened or made. -/
def openReason (creates : Bool) : OsError → String
  | .notFound => if creates then "Directory nonexistent" else "No such file"
  | .notADirectory => if creates then "Directory nonexistent" else "No such file"
  | e => e.reason

/-- A descriptor goes to what a path leads to. -/
def connectPath (descriptor : Nat) (path : Bytes) (a : Access) : Exec Unit := do
  match (← Exec.world).openPath path a with
  | .ok (w, i) => Exec.updateWorld fun _ => w.connect descriptor i
  | .error e =>
    let verb := if a.creates then "cannot create " else "cannot open "
    Exec.fail (verb.toList ++ path ++ (": " ++ openReason a.creates e).toList)

/-- A path leads to a file that must not be written over. -/
def isKept (path : Bytes) : Exec Bool := do
  match (← Exec.world).locate path with
  | .ok (_, .file _ _) => Exec.hasOption 'C'
  | .ok (_, .program _) => Exec.hasOption 'C'
  | _ => return false

/-- A redirection carried out. -/
def redirect (take : TakeOutput) (t : Target) : Exec Unit := do
  match t.direction with
  | .read => connectPath t.descriptor t.text { reads := true }
  | .readWrite => connectPath t.descriptor t.text { reads := true, writes := true, creates := true }
  | .append => connectPath t.descriptor t.text { appends := true, creates := true }
  | .overwrite =>
    connectPath t.descriptor t.text { writes := true, truncates := true, creates := true }
  | .write =>
    if ← isKept t.text then
      Exec.fail ("cannot create ".toList ++ t.text ++ ": File exists".toList)
    connectPath t.descriptor t.text { writes := true, truncates := true, creates := true }
  | .duplicate =>
    if t.text = ['-'] then Exec.updateWorld (·.close t.descriptor)
    else
      let source := Numeral.value 10 t.text
      if source ≠ t.descriptor then
        match (← Exec.world).descriptors.lookup source with
        | some i => Exec.updateWorld (·.connect t.descriptor i)
        | none => Exec.failOn t.text "Bad file descriptor"
  | .document id =>
    let w := ((← Exec.session).documents.lookup id).getD []
    let text ← Expand.document take w
    let i ← Exec.act (Act.newChannel (.supply text))
    Exec.updateWorld (·.connect t.descriptor i)

end AuroraLint.Shell
