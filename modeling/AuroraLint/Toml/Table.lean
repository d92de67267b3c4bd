import AuroraLint.Toml.Value

/-!
# Building TOML tables

What headers and keys add to a document, and what they may not add.

* `modify`         : a change of the table at the end of a path.
* `addKey`         : a key and its value under a table.
* `addTable`       : the table of a header `[path]`.
* `addTables`      : one more table of a header `[[path]]`.
* `inlineOfPairs?` : a table between braces.
-/

set_option autoImplicit false

namespace AuroraLint.Toml

/-- The form of a table that a path passes through and that did not exist. -/
def passedForm (byKey : Bool) : TableForm :=
  if byKey then .dotted else .implied

/-- Changes the table at the end of a path, from a table with the given form and members on. Tables
on the way are made where there are none. Of repeated tables the latest is meant. A path of keys
(`byKey`) goes through no table that a header has named, and none goes through other values. -/
def modify (byKey : Bool) (change : TableForm → Members → Option Members) (form : TableForm)
    (ms : Members) : List String → Option Members
  | [] => change form ms
  | key :: path =>
    match ms.get? key with
    | none =>
      (modify byKey change (passedForm byKey) [] path).map fun inner =>
        ms.set key (.table (passedForm byKey) inner)
    | some (.table innerForm inner) =>
      if byKey && innerForm == .explicit then none
      else
        (modify byKey change innerForm inner path).map fun inner =>
          ms.set key (.table innerForm inner)
    | some (.tables (latest :: earlier)) =>
      (modify byKey change .explicit latest path).map fun latest =>
        ms.set key (.tables (latest :: earlier))
    | some _ => none

/-- The same inside braces, where every table is between braces too. -/
def modifyInline (change : TableForm → Members → Option Members) (form : TableForm)
    (ms : Members) : List String → Option Members
  | [] => change form ms
  | key :: path =>
    match ms.get? key with
    | none =>
      (modifyInline change .dotted [] path).map fun inner => ms.set key (.inlineTable .dotted inner)
    | some (.inlineTable innerForm inner) =>
      if innerForm == .explicit then none
      else
        (modifyInline change innerForm inner path).map fun inner =>
          ms.set key (.inlineTable innerForm inner)
    | some _ => none

/-- Adds the value of a key that is not taken. A dotted key adds to tables that dotted keys made,
and a plain key to all others. -/
def insertNew (isDotted : Bool) (key : String) (value : Value) (form : TableForm)
    (ms : Members) : Option Members :=
  if (form == .dotted) != isDotted then none
  else
    match ms.get? key with
    | some _ => none
    | none => some (ms.set key value)

/-- Adds a value under a dotted key, the last part of which is `key`. -/
def addKey (form : TableForm) (ms : Members) (path : List String) (key : String) (value : Value) :
    Option Members :=
  modify true (insertNew (!path.isEmpty) key value) form ms path

/-- Adds the table `[path.key]`. A table can be named once, but after the tables inside it. -/
def addTable (root : Members) (path : List String) (key : String) : Option Members :=
  modify false
    (fun _ ms =>
      match ms.get? key with
      | none => some (ms.set key (.table .explicit []))
      | some (.table .implied inner) => some (ms.set key (.table .explicit inner))
      | some _ => none)
    .explicit root path

/-- Adds one more table `[[path.key]]`. -/
def addTables (root : Members) (path : List String) (key : String) : Option Members :=
  modify false
    (fun _ ms =>
      match ms.get? key with
      | none => some (ms.set key (.tables [[]]))
      | some (.tables earlier) => some (ms.set key (.tables ([] :: earlier)))
      | some _ => none)
    .explicit root path

/-- The members of a table between braces, from its keys and values in order. -/
def inlineOfPairs? (pairs : List (List String × String × Value)) : Option Members :=
  pairs.foldlM
    (fun ms (path, key, value) =>
      modifyInline (insertNew (!path.isEmpty) key value) .explicit ms path)
    []

end AuroraLint.Toml
