import AuroraLint.Workspace

/-!
# The world of a program

What a running program can see and change: files, its working directory and its descriptors.

* `Shell.Channel`        : what a descriptor goes to.
* `Shell.World`          : the files and channels of a system, seen by one of its programs.
* `Shell.World.openPath` : a channel to what a path leads to.
* `Shell.Act`            : an act of a program in its world.

Programs share files and channels; every program has descriptors and a directory of its own.

Part of the host of recorded runs (`Workspace.host`); no result is about it.
-/

set_option autoImplicit false

namespace AuroraLint.Shell

/-! ## Channels -/

/-- What a descriptor goes to. -/
inductive Channel where
  | null
  /-- Takes nothing. -/
  | full
  /-- Keeps what is written to it, the latest first. -/
  | sink (chunks : List Bytes)
  /-- Has this to be read. -/
  | supply (rest : Bytes)
  /-- A file, and how far it has been read or written. -/
  | file (path : Parts) (offset : Nat) (reads writes appends : Bool)
  | directory (path : Parts)
  deriving DecidableEq, Repr, Inhabited

/-- The descriptors of a program, and the channels that they go to. -/
abbrev Descriptors := List (Nat × Nat)

/-- The files and channels of a system, and the directory and descriptors of a program. -/
structure World where
  files : Workspace
  channels : Array Channel := #[]
  directory : Parts
  descriptors : Descriptors := []
  /-- The number of the program, and the next one that a program gets. -/
  id : Nat := 1
  nextId : Nat := 2

/-- An act of a program in its world. -/
abbrev Act := StateM World

/-- How a file is opened. -/
structure Access where
  reads : Bool := false
  writes : Bool := false
  appends : Bool := false
  /-- Nothing of what the file held is kept. -/
  truncates : Bool := false
  /-- A file that is not there is made. -/
  creates : Bool := false
  deriving DecidableEq, Repr

namespace World

/-! ## Descriptors -/

/-- The channel that a descriptor goes to. -/
def channel? (w : World) (descriptor : Nat) : Option Channel :=
  (w.descriptors.lookup descriptor).bind (w.channels[·]?)

/-- The world with a new channel, and its number. -/
def addChannel (w : World) (c : Channel) : World × Nat :=
  ({ w with channels := w.channels.push c }, w.channels.size)

/-- The world with another channel in the place of one. -/
def setChannel (w : World) (i : Nat) (c : Channel) : World :=
  { w with channels := w.channels.setIfInBounds i c }

/-- The world in which a descriptor goes to a channel. -/
def connect (w : World) (descriptor i : Nat) : World :=
  { w with
    descriptors := (descriptor, i) :: w.descriptors.filter (·.1 != descriptor) }

/-- The world in which a descriptor is closed. -/
def close (w : World) (descriptor : Nat) : World :=
  { w with descriptors := w.descriptors.filter (·.1 != descriptor) }

/-! ## Files -/

/-- What a path leads to. -/
def locate (w : World) (path : Bytes) : Except OsError (Parts × Node) :=
  w.files.locate w.directory path

/-- The contents of a file. -/
def contents (w : World) (path : Parts) : Bytes :=
  match w.files.node? path with
  | some (.file contents _) => contents
  | _ => []

/-- The file at a path has other contents. -/
def setContents (w : World) (path : Parts) (contents : Bytes) : World :=
  match w.files.node? path with
  | some (.file _ executable) =>
    { w with files := w.files.put path (.file contents executable) }
  | _ => { w with files := w.files.put path (.file contents false) }

/-- A path without the slashes at its end, and whether it had any. -/
def trimSlashes (path : Bytes) : Bytes × Bool :=
  let trimmed := (path.reverse.dropWhile (· == '/')).reverse
  (trimmed, trimmed.length != path.length)

/-- The directory that the last part of a path would stand in, and that part. -/
def splitLast (path : Bytes) : Bytes × Bytes :=
  let name := (path.reverse.takeWhile (· != '/')).reverse
  let directory := path.take (path.length - name.length)
  (if directory.isEmpty then ['.'] else directory, name)

/-- Where something that is not there can be made. -/
def place (w : World) (path : Bytes) : Except OsError Parts :=
  match w.locate (splitLast path).1 with
  | .error e => .error e
  | .ok (names, .directory) =>
    if Workspace.maxNameBytes < (splitLast path).2.length then .error .nameTooLong
    else .ok (names ++ [(splitLast path).2])
  | .ok _ => .error .notADirectory

/-- A channel to the file at a path. -/
def openFile (w : World) (names : Parts) (a : Access) : World × Nat :=
  let w := if a.truncates then w.setContents names [] else w
  w.addChannel (.file names 0 a.reads (a.writes || a.appends) a.appends)

/-- A channel to what a path leads to. -/
def openPath (w : World) (path : Bytes) (a : Access) : Except OsError (World × Nat) :=
  let writes := a.writes || a.appends
  match w.locate path with
  | .ok (names, .directory) =>
    if writes then .error .isADirectory else .ok (w.addChannel (.directory names))
  | .ok (names, .file _ _) => .ok (w.openFile names a)
  | .ok (names, .program _) =>
    if writes then .error .permissionDenied else .ok (w.openFile names a)
  | .ok (_, .device .null) => .ok (w.addChannel .null)
  | .ok (_, .device .full) => .ok (w.addChannel .full)
  | .ok (_, .device (.descriptor n)) =>
    match w.descriptors.lookup n with
    | some i => .ok (w, i)
    | none => .error .notFound
  | .error .notFound =>
    if !a.creates || path.isEmpty then .error .notFound
    else if (trimSlashes path).2 then
      match w.place (trimSlashes path).1 with
      | .ok _ => .error .isADirectory
      | .error e => .error e
    else
      match w.place path with
      | .ok names => .ok ((w.setContents names []).openFile names a)
      | .error e => .error e
  | .error e => .error e

end World

/-! ## Reading and writing -/

namespace Act

/-- Contents with bytes written at an offset. -/
def overwrite (contents : Bytes) (offset : Nat) (bytes : Bytes) : Bytes :=
  let front := contents.take offset
  front ++ List.replicate (offset - front.length) '\x00' ++ bytes ++
    contents.drop (offset + bytes.length)

/-- Writes to a channel; says whether it could. -/
def writeChannel (i : Nat) (bytes : Bytes) : Act Bool := do
  let w ← get
  match w.channels[i]? with
  | some .null => return true
  | some (.sink chunks) =>
    set (w.setChannel i (.sink (bytes :: chunks)))
    return true
  | some (.file path offset reads true appends) =>
    let old := w.contents path
    let start := if appends then old.length else offset
    let w := w.setContents path (overwrite old start bytes)
    set (w.setChannel i (.file path (start + bytes.length) reads true appends))
    return true
  | _ => return false

/-- Writes to a descriptor; says whether it could. Nothing can always be written. -/
def write (descriptor : Nat) (bytes : Bytes) : Act Bool := do
  if bytes.isEmpty then return true
  match (← get).descriptors.lookup descriptor with
  | some i => writeChannel i bytes
  | none => return false

/-- Why nothing can be read. -/
inductive ReadError where
  | closed
  | isDirectory
  deriving DecidableEq, Repr

/-- What is left to be read from a descriptor. -/
def peek (descriptor : Nat) : Act (Except ReadError Bytes) := do
  let w ← get
  match w.channel? descriptor with
  | some .null => return .ok []
  | some (.supply rest) => return .ok rest
  | some (.file path offset true _ _) => return .ok ((w.contents path).drop offset)
  | some (.directory _) => return .error .isDirectory
  | _ => return .error .closed

/-- Passes over bytes that have been read from a descriptor. -/
def skip (descriptor count : Nat) : Act Unit :=
  modify fun w =>
    match w.descriptors.lookup descriptor with
    | none => w
    | some i =>
      match w.channels[i]? with
      | some (.supply rest) => w.setChannel i (.supply (rest.drop count))
      | some (.file path offset reads writes appends) =>
        w.setChannel i (.file path (offset + count) reads writes appends)
      | _ => w

/-- All that is left to be read from a descriptor. -/
def readAll (descriptor : Nat) : Act (Except ReadError Bytes) := do
  match ← peek descriptor with
  | .ok bytes =>
    skip descriptor bytes.length
    return .ok bytes
  | .error e => return .error e

/-- A new channel. -/
def newChannel (c : Channel) : Act Nat :=
  modifyGet fun w =>
    let (w, i) := w.addChannel c
    (i, w)

/-- What has been written to a channel. -/
def written (i : Nat) : Act Bytes := do
  match (← get).channels[i]? with
  | some (.sink chunks) => return chunks.reverse.flatten
  | _ => return []

end Act

end AuroraLint.Shell
