import AuroraLint.Shell.Pattern
import AuroraLint.Workspace

/-!
# File names by pattern

* `Workspace.glob` : the paths that a pattern describes, in order.

A pattern is matched part by part along the tree. A name that starts with a dot is found only by a
part that does so too.

Part of the host of recorded runs (`Workspace.host`); no result is about it.
-/

set_option autoImplicit false

namespace AuroraLint.Workspace

open Shell (Pattern.isWild Pattern.fits Pattern.literal)

/-- What a path leads to exists. -/
def hasPath (w : Workspace) (directory : Parts) (path : Bytes) : Bool :=
  (w.locate directory path).isOk

/-- The names in the directory at a path, with the two that every directory has. -/
def entries (w : Workspace) (directory : Parts) (path : Bytes) : List Bytes :=
  match w.locate directory (if path.isEmpty then ['.'] else path) with
  | .ok (names, .directory) => ['.'] :: ['.', '.'] :: w.children names
  | _ => []

/-- A name can be found by a part of a pattern. -/
def finds (part name : Bytes) : Bool :=
  let shown := (Pattern.literal part).head? = some '.' || name.head? != some '.'
  shown && Pattern.fits part name

/-- The paths that the parts of a pattern describe behind a path that ends in a slash. -/
def globFrom (w : Workspace) (directory : Parts) (before : Bytes) : List Bytes → List Bytes
  | [] => []
  | part :: parts =>
    let names :=
      if Pattern.isWild part then (w.entries directory before).filter (finds part)
      else [Pattern.literal part]
    if parts.isEmpty then
      (names.map (before ++ ·)).filter fun path =>
        Pattern.isWild part || w.hasPath directory path
    else names.flatMap fun name => w.globFrom directory (before ++ name ++ ['/']) parts

/-- A pattern in which no backslash stands before a slash. -/
def plainSlashes : Bytes → Bytes
  | '\\' :: '/' :: rest => '/' :: plainSlashes rest
  | '\\' :: c :: rest => '\\' :: c :: plainSlashes rest
  | c :: rest => c :: plainSlashes rest
  | [] => []

/-- The paths that a pattern describes, in order; none if it describes only one text. -/
def glob (w : Workspace) (directory : Parts) (pattern : Bytes) : List Bytes :=
  let parts := Path.pieces (plainSlashes pattern)
  if parts.any Pattern.isWild then (w.globFrom directory [] parts).mergeSort Bytes.precedes
  else []

end AuroraLint.Workspace
