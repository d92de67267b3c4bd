/-!
# Paths

Paths are texts, their parts divided by `/`. Nothing here looks at a file system.

* `Path.parent?`       : the path without its last part.
* `Path.join`          : a path seen from a directory.
* `Path.withExtension` : a path with another extension of its file name.
* `Path.resolve`       : the parts of a path, without `.` and `..`, seen from a directory.
-/

set_option autoImplicit false

namespace AuroraLint.Path

/-! ## Parts -/

/-- The pieces of a text between slashes. -/
def pieces : List Char → List (List Char)
  | [] => [[]]
  | c :: cs =>
    if c = '/' then [] :: pieces cs
    else
      match pieces cs with
      | [] => [[c]]
      | piece :: rest => (c :: piece) :: rest

/-- The path starts at the root. -/
def isAbsolute (path : String) : Bool :=
  path.toList.head? == some '/'

/-- A part of a path, and the number of characters of the path up to its end. -/
structure Part where
  name : List Char
  stop : Nat
  deriving DecidableEq, Repr

/-- The parts among pieces of which the first starts at character `i`. Empty pieces and `.` are no
parts, except for a `.` that starts a relative path. -/
def partsFrom (keepDot : Bool) (i : Nat) : List (List Char) → List Part
  | [] => []
  | piece :: rest =>
    let stop := i + piece.length
    let others := partsFrom false (stop + 1) rest
    if piece = [] then others
    else if piece = ['.'] ∧ keepDot = false then others
    else ⟨piece, stop⟩ :: others

/-- The parts of a path. -/
def parts (path : String) : List Part :=
  partsFrom true 0 (pieces path.toList)

/-- The first characters of a path. -/
def front (path : String) (n : Nat) : String :=
  String.ofList (path.toList.take n)

/-- The path without its last part; `none` when it has no part. -/
def parent? (path : String) : Option String :=
  match (parts path).reverse with
  | [] => none
  | [_] => some (if isAbsolute path then "/" else "")
  | _ :: before :: _ => some (front path before.stop)

/-- The path `path` seen from the directory `base`. -/
def join (base path : String) : String :=
  if isAbsolute path then path
  else if base.isEmpty || base.toList.getLast? == some '/' then base ++ path
  else base ++ "/" ++ path

/-! ## File names -/

/-- The last part of a path, unless it is `.` or `..`. -/
def fileName? (path : String) : Option Part :=
  match (parts path).getLast? with
  | some p => if p.name = ['.'] ∨ p.name = ['.', '.'] then none else some p
  | none => none

/-- The number of characters of a file name after its last dot; `none` without a dot, and when the
only dot starts the name. -/
def extensionLength? (name : List Char) : Option Nat :=
  let after := (name.reverse.takeWhile (· != '.')).length
  if after + 1 < name.length then some after else none

/-- The path with the extension of its file name cut off and another put in its place; unchanged
when it has no file name. -/
def setExtension (path : String) (extension : String) : String :=
  match fileName? path with
  | none => path
  | some p =>
    let cut := match extensionLength? p.name with
      | some n => n + 1
      | none => 0
    front path (p.stop - cut) ++ "." ++ extension

/-- The path with another extension: the old one is first cut off the end of the path. -/
def withExtension (path : String) (extension : String) : String :=
  let old := match fileName? path with
    | some p => (extensionLength? p.name).getD 0
    | none => 0
  setExtension (front path (path.toList.length - old)) extension

/-! ## What a path denotes -/

/-- The parts reached from `base` through the pieces of a path, the last part first. -/
def resolveFrom (base : List (List Char)) : List (List Char) → List (List Char)
  | [] => base
  | piece :: rest =>
    if piece = [] ∨ piece = ['.'] then resolveFrom base rest
    else if piece = ['.', '.'] then resolveFrom base.tail rest
    else resolveFrom (piece :: base) rest

/-- The parts of an absolute path, from the root on. -/
def resolveAbsolute (path : String) : List (List Char) :=
  (resolveFrom [] (pieces path.toList)).reverse

/-- The parts that `path` denotes when `directory` is the working directory. -/
def resolve (directory path : String) : List (List Char) :=
  resolveAbsolute (join directory path)

end AuroraLint.Path
