import AuroraLint.Shell.Run

/-!
# Programs in a workspace

What can be run in a workspace: its scripts and the programs of the system.

* `Workspace.run`  : a program by its path or name, from its working directory.
* `Workspace.host` : the workspace as a host for the command line.

The command line works on any `Host`. `Workspace.host` is the one on which its recorded runs are
repeated: they ran on a real system, with compilers that were shell scripts, so the shell, its
programs and the tree of files are written out here, in this module, `Workspace` and `Shell`. The
results on the command line hold for every host, and none of them depends on these modules.
-/

set_option autoImplicit false

namespace AuroraLint.Workspace

open Shell (World Image Exec)

/-- The directories that programs are looked for in. -/
def programDirectories : List String :=
  ["/usr/local/sbin", "/usr/local/bin", "/usr/sbin", "/usr/bin", "/sbin", "/bin"]

/-- The variables that a program gets. -/
def environment : List (Bytes × Bytes) :=
  [("HOME".toList, "/root".toList), ("PATH".toList, (":".intercalate programDirectories).toList)]

/-- The path of a program that is given by name alone. It is looked for in the directories of
programs, and a directory in one of them cannot be run. -/
def search (w : Workspace) (name : Bytes) : Except OsError Bytes :=
  if name.isEmpty then .error .notFound
  else if maxNameBytes < name.length then .error .nameTooLong
  else
    let found := programDirectories.map fun d =>
      let path := d.toList ++ ['/'] ++ name
      (path, w.locate [] path)
    match found.find? fun (_, result) => result matches .ok (_, .program _) with
    | some (path, _) => .ok path
    | none =>
      if found.any fun (_, result) => result matches .ok _ then .error .permissionDenied
      else .error .notFound

/-- The world of a program in a directory: there is no input, and its output and complaints are
kept. -/
def worldIn (w : Workspace) (directory : Parts) : World :=
  { files := w
    channels := #[.null, .sink [], .sink []]
    directory
    descriptors := [(0, 0), (1, 1), (2, 2)] }

/-- The most jobs that a program has inside one another. -/
def maxDepth : Nat := 1000000

/-- Runs a program to its end. -/
def runImage (world : World) (image : Image) : Outcome :=
  let start : Shell.State := ⟨world, Shell.startSession world image.called environment⟩
  let text := fun (s : Shell.State) (i : Nat) => ((Shell.Act.written i).run s.world).1.toText
  match Shell.ending (Shell.runJob maxDepth (.image image environment)) start with
  | .ok ending s => ⟨text s 1, text s 2, ending⟩
  | .error _ s => ⟨text s 1, text s 2, .signal 9⟩

/-- Runs a program from its working directory. A name with a slash is a path. -/
def run (w : Workspace) (i : Invocation) : Except OsError Outcome :=
  if (i.program :: i.directory :: i.args).any (·.contains '\x00') then .error .embeddedNul
  else
    match w.find i.directory with
    | .error e => .error e
    | .ok (directory, .directory) =>
      let world := w.worldIn directory
      let name := Bytes.ofText i.program
      let path := if name.contains '/' then .ok name else w.search name
      match path with
      | .error e => .error e
      | .ok path => (world.image path name (i.args.map Bytes.ofText)).map (runImage world)
    | .ok _ => .error .notADirectory

/-- The workspace as a host. -/
def host (w : Workspace) : Host Id where
  readText := w.readText
  isFile := w.isFile
  canonical := w.canonical
  run := w.run

end AuroraLint.Workspace
