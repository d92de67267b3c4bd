import AuroraLint.Shell.Numeral
import AuroraLint.Shell.Program.Printing

/-!
# Programs on files

`ls`, `mkdir`, `rmdir`, `rm`, `touch`, `cp`, `mv` and `chmod`.

Part of the host of recorded runs (`Workspace.host`); no result is about it.
-/

set_option autoImplicit false

namespace AuroraLint.Shell.Program

/-! ## Listing -/

/-- The mark behind a name that shows what it is. -/
def nodeMark (slashOnly : Bool) : Node → Bytes
  | .directory => ['/']
  | .file _ true => if slashOnly then [] else ['*']
  | .program _ => if slashOnly then [] else ['*']
  | _ => []

/-- The lines of `ls` for names in a directory. -/
def listing (w : World) (p : Parsed) (names : List (Bytes × Bytes)) : List Bytes :=
  let sorted := names.mergeSort fun a b => Bytes.precedes a.1 b.1
  let ordered := if p.has 'r' then sorted.reverse else sorted
  ordered.map fun (name, path) =>
    let marked := p.has 'F' || p.has 'p'
    match w.locate path with
    | .ok (_, node) => if marked then name ++ nodeMark (!p.has 'F') node else name
    | .error _ => name

/-- The names in a directory that are shown. -/
def shownNames (w : World) (p : Parsed) (path : Bytes) : List (Bytes × Bytes) :=
  let names := match w.locate path with
    | .ok (names, .directory) => w.files.children names
    | _ => []
  let names := names.filter fun name => p.has 'a' || p.has 'A' || name.head? != some '.'
  let names := if p.has 'a' then ['.'] :: ['.', '.'] :: names else names
  names.map fun name => (name, path ++ ['/'] ++ name)

/-- The program `ls`, one name a line. -/
def ls (c : Call) : Act Finish :=
  let known := [⟨'a', "all", false⟩, ⟨'A', "almost-all", false⟩, ⟨'d', "directory", false⟩,
    ⟨'r', "reverse", false⟩, ⟨'F', "classify", false⟩, ⟨'p', "", false⟩, ⟨'1', "", false⟩,
    ⟨'C', "", false⟩, ⟨'U', "", false⟩]
  match parse known false c.args with
  | .error text => misuse c text 2
  | .ok p => do
    let operands := if p.operands.isEmpty then [['.']] else p.operands
    let w ← get
    let found := operands.filter fun path => (w.locate path).isOk
    operands.forM fun path =>
      match w.locate path with
      | .ok _ => pure ()
      | .error e =>
        complain c ("cannot access ".toList ++ quoted path ++ ": ".toList ++ e.reason.toList)
    let isDirectory := fun (path : Bytes) =>
      match w.locate path with
      | .ok (_, .directory) => !p.has 'd'
      | _ => false
    let files := found.filter fun path => !isDirectory path
    let directories := (found.filter isDirectory).mergeSort Bytes.precedes
    let directories := if p.has 'r' then directories.reverse else directories
    let fileLines := listing w p (files.map fun path => (path, path))
    let headed := 1 < operands.length
    let blocks := directories.map fun path =>
      (if headed then [path ++ [':']] else []) ++ listing w p (shownNames w p path)
    let blocks := if fileLines.isEmpty then blocks else fileLines :: blocks
    printLines (List.intercalate [[]] blocks)
    return .exit (if found.length = operands.length then 0 else 2)

/-! ## Making -/

/-- The refusal to make a directory, or the world with it. -/
def makeDirectory (w : World) (path : Bytes) : Except OsError World :=
  match w.locate path with
  | .ok _ => .error .alreadyExists
  | .error .notFound =>
    match w.place (World.trimSlashes path).1 with
    | .ok names => .ok { w with files := w.files.put names .directory }
    | .error e => .error e
  | .error e => .error e

/-- A path and the paths above it, from the first on. -/
def prefixes (path : Bytes) : List Bytes :=
  (List.range (path.length + 1)).filterMap fun n =>
    let front := path.take n
    let ends := n = path.length || path[n]? = some '/'
    if ends && !front.isEmpty && front.getLast? != some '/' then some front else none

/-- Makes a directory and those above it that are not there; an error is the path that cannot be
made. -/
def makeAll (w : World) : List Bytes → Except (Bytes × OsError) World
  | [] => .ok w
  | path :: rest =>
    match w.locate path with
    | .ok (_, .directory) => makeAll w rest
    | .ok _ =>
      .error (path, if rest.isEmpty then .alreadyExists else .notADirectory)
    | .error _ =>
      match makeDirectory w path with
      | .ok w => makeAll w rest
      | .error e => .error (path, e)

/-- The program `mkdir`. -/
def mkdir (c : Call) : Act Finish :=
  let known := [⟨'p', "parents", false⟩, ⟨'m', "mode", true⟩, ⟨'v', "verbose", false⟩]
  withOptions c known false fun p => do
    if p.operands.isEmpty then return ← misuse c "missing operand".toList
    let results ← p.operands.mapM fun path => do
      let w ← get
      let made := if p.has 'p' then makeAll w (prefixes path)
        else
          match makeDirectory w path with
          | .ok w => .ok w
          | .error e => .error (path, e)
      match made with
      | .ok w =>
        set w
        if p.has 'v' then printLines ["mkdir: created directory ".toList ++ quoted path]
        return true
      | .error (path, e) =>
        complain c ("cannot create directory ".toList ++ quoted path ++ ": ".toList ++
          e.reason.toList)
        return false
    return success (results.all id)

/-- The program `touch`. -/
def touch (c : Call) : Act Finish :=
  let known := [⟨'c', "no-create", false⟩, ⟨'a', "", false⟩, ⟨'m', "", false⟩]
  withOptions c known false fun p => do
    if p.operands.isEmpty then return ← misuse c "missing file operand".toList
    let results ← p.operands.mapM fun path => do
      let w ← get
      match w.locate path with
      | .ok _ => return true
      | .error _ =>
        if p.has 'c' then return true
        match w.openPath path { writes := true, creates := true } with
        | .ok (w, _) =>
          set w
          return true
        | .error e =>
          complain c ("cannot touch ".toList ++ quoted path ++ ": ".toList ++ e.reason.toList)
          return false
    return success (results.all id)

/-! ## Removing -/

/-- The program `rmdir`. -/
def rmdir (c : Call) : Act Finish :=
  withOptions c [⟨'p', "parents", false⟩, ⟨'v', "verbose", false⟩] false fun p => do
    if p.operands.isEmpty then return ← misuse c "missing operand".toList
    let results ← p.operands.mapM fun path => do
      let w ← get
      let refusal := match w.locate path with
        | .error e => some e
        | .ok (names, .directory) =>
          if (w.files.children names).isEmpty then none else some .notEmpty
        | .ok _ => some .notADirectory
      match refusal, w.locate path with
      | none, .ok (names, _) =>
        set { w with files := w.files.remove names }
        return true
      | some e, _ =>
        complain c ("failed to remove ".toList ++ quoted path ++ ": ".toList ++ e.reason.toList)
        return false
      | _, _ => return false
    return success (results.all id)

/-- The program `rm`. -/
def rm (c : Call) : Act Finish :=
  let known := [⟨'r', "recursive", false⟩, ⟨'R', "", false⟩, ⟨'f', "force", false⟩,
    ⟨'i', "", false⟩, ⟨'d', "dir", false⟩, ⟨'v', "verbose", false⟩]
  withOptions c known false fun p => do
    if p.operands.isEmpty then
      if p.has 'f' then return .exit 0
      return ← misuse c "missing operand".toList
    let results ← p.operands.mapM fun path => do
      let w ← get
      let refuse := fun (e : OsError) => do
        complain c ("cannot remove ".toList ++ quoted path ++ ": ".toList ++ e.reason.toList)
        return false
      match w.locate path with
      | .error .notFound => if p.has 'f' then return true else refuse .notFound
      | .error e => refuse e
      | .ok (_, .directory) =>
        if !(p.has 'r' || p.has 'R') then refuse .isADirectory
        else
          match w.locate path with
          | .ok (names, _) =>
            set { w with files := w.files.remove names }
            return true
          | .error e => refuse e
      | .ok (names, _) =>
        set { w with files := w.files.remove names }
        if p.has 'v' then printLines ["removed ".toList ++ quoted path]
        return true
    return success (results.all id)

/-! ## Copying and moving -/

/-- The path that something goes to: into a directory, or to the path itself. -/
def destination (w : World) (source target : Bytes) : Bytes :=
  match w.locate target with
  | .ok (_, .directory) => (World.trimSlashes target).1 ++ ['/'] ++ baseName source []
  | _ => target

/-- The nodes at and below a path, with the parts behind it. -/
def below (w : World) (names : Parts) : List (Parts × Node) :=
  w.files.nodes.filterMap fun (path, node) =>
    if names.isPrefixOf path then some (path.drop names.length, node) else none

/-- What several sources need: a target that is a directory. -/
def checkTarget (w : World) (sources : List Bytes) (target : Bytes) : Option Bytes :=
  match sources, w.locate target with
  | _ :: _ :: _, .error e => some ("target ".toList ++ quoted target ++ ": ".toList ++ e.reason.toList)
  | _ :: _ :: _, .ok (_, .directory) => none
  | _ :: _ :: _, .ok _ => some ("target ".toList ++ quoted target ++ ": Not a directory".toList)
  | _, _ => none

/-- Copies one file or, if wanted, a directory; an error is the complaint. -/
def copy (w : World) (recursive : Bool) (source target : Bytes) : Except Bytes World :=
  let goal := destination w source target
  match w.locate source with
  | .error e => .error ("cannot stat ".toList ++ quoted source ++ ": ".toList ++ e.reason.toList)
  | .ok (names, .directory) =>
    if !recursive then
      .error ("-r not specified; omitting directory ".toList ++ quoted source)
    else
      match w.place (World.trimSlashes goal).1 with
      | .error e =>
        .error ("cannot create directory ".toList ++ quoted goal ++ ": ".toList ++ e.reason.toList)
      | .ok place =>
        let files := (below w names).foldl (fun (f : Workspace) (rest, node) =>
          f.put (place ++ rest) node) w.files
        .ok { w with files }
  | .ok (names, node) =>
    let contents := w.contents names
    match w.locate goal with
    | .ok (goalNames, .file _ executable) =>
      if goalNames = names then
        .error (quoted source ++ " and ".toList ++ quoted goal ++ " are the same file".toList)
      else .ok { w with files := w.files.put goalNames (.file contents executable) }
    | .ok _ => .ok w
    | .error _ =>
      let wrong := fun (e : OsError) =>
        .error ("cannot create regular file ".toList ++ quoted goal ++ ": ".toList ++
          e.reason.toList)
      if (World.trimSlashes goal).2 then wrong .notADirectory
      else
        match w.place goal with
        | .ok place => .ok { w with files := w.files.put place node }
        | .error e => wrong e

/-- Moves a file or directory; an error is the complaint. -/
def move (w : World) (source target : Bytes) : Except Bytes World :=
  let goal := destination w source target
  match w.locate source with
  | .error e => .error ("cannot stat ".toList ++ quoted source ++ ": ".toList ++ e.reason.toList)
  | .ok (names, _) =>
    let place : Except OsError Parts := match w.locate goal with
      | .ok (goalNames, _) => .ok goalNames
      | .error _ => w.place (World.trimSlashes goal).1
    match place with
    | .error e =>
      .error ("cannot move ".toList ++ quoted source ++ " to ".toList ++ quoted goal ++
        ": ".toList ++ e.reason.toList)
    | .ok place =>
      if place = names then
        .error (quoted source ++ " and ".toList ++ quoted goal ++ " are the same file".toList)
      else
        let moved := below w names
        let files := (moved.foldl (fun (f : Workspace) (rest, node) =>
          f.put (place ++ rest) node) (w.files.remove names))
        .ok { w with files }

/-- The programs `cp` and `mv`: each source goes to the last operand. -/
def transfer (c : Call) (known : List Known)
    (one : Parsed → World → Bytes → Bytes → Except Bytes World) : Act Finish :=
  withOptions c known false fun p => do
    match p.operands, p.operands.getLast? with
    | [], _ => misuse c "missing file operand".toList
    | [file], _ => misuse c ("missing destination file operand after ".toList ++ quoted file)
    | operands, target =>
      let target := target.getD []
      let sources := operands.dropLast
      match checkTarget (← get) sources target with
      | some text =>
        complain c text
        return .exit 1
      | none =>
        let results ← sources.mapM fun source => do
          match one p (← get) source target with
          | .ok w =>
            set w
            return true
          | .error text =>
            complain c text
            return false
        return success (results.all id)

/-- The program `cp`. -/
def cp (c : Call) : Act Finish :=
  let known := [⟨'r', "recursive", false⟩, ⟨'R', "", false⟩, ⟨'a', "archive", false⟩,
    ⟨'f', "force", false⟩, ⟨'p', "", false⟩, ⟨'n', "no-clobber", false⟩]
  transfer c known fun p w => copy w (p.has 'r' || p.has 'R' || p.has 'a')

/-- The program `mv`. -/
def mv (c : Call) : Act Finish :=
  transfer c [⟨'f', "force", false⟩, ⟨'n', "no-clobber", false⟩] fun _ => move

/-! ## Rights -/

/-- Whether a mode lets a file be run; `none` if it is no mode. The old state stays where the mode
says nothing about it. -/
def mayRun? (old : Bool) (mode : Bytes) : Option Bool :=
  if !mode.isEmpty && mode.all (Numeral.isDigit 8) then
    some ((Numeral.value 8 mode) / 64 % 2 = 1)
  else
    (Bytes.split (· == ',') mode).foldlM (fun old clause =>
      let who := clause.takeWhile fun c => "ugoa".contains c
      match clause.drop who.length with
      | o :: rights =>
        if !"+-=".contains o || !rights.all fun c => "rwxXst".contains c then none
        else if !who.isEmpty && !who.any fun c => c == 'u' || c == 'a' then some old
        else if rights.contains 'x' then some (o != '-')
        else if o = '=' then some false
        else some old
      | [] => none) old

/-- The program `chmod`. -/
def chmod (c : Call) : Act Finish := do
  let args := c.args.filter fun arg => arg != ['-', 'R'] && arg != ['-', 'f']
  match args with
  | [] => misuse c "missing operand".toList
  | [mode] => misuse c ("missing operand after ".toList ++ quoted mode)
  | mode :: files =>
    if (mayRun? false mode).isNone then
      return ← misuse c ("invalid mode: ".toList ++ quoted mode)
    let results ← files.mapM fun file => do
      let w ← get
      match w.locate file with
      | .error e =>
        complain c ("cannot access ".toList ++ quoted file ++ ": ".toList ++ e.reason.toList)
        return false
      | .ok (names, .file contents old) =>
        let files := w.files.put names (.file contents ((mayRun? old mode).getD old))
        set { w with files }
        return true
      | .ok _ => return true
    return success (results.all id)

end AuroraLint.Shell.Program
