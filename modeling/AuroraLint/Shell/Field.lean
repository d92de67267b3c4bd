import AuroraLint.Text.Bytes

/-!
# Fields

An expanded word is a row of segments, some of which are divided into fields.

* `Shell.Atom`    : a character of an expanded word, or a quotation mark.
* `Shell.Segment` : atoms that are divided in one way.
* `Shell.fields`  : the fields of segments.
* `Shell.pattern` : the pattern that atoms spell.

Part of the host of recorded runs (`Workspace.host`); no result is about it.
-/

set_option autoImplicit false

namespace AuroraLint.Shell

/-- A character of an expanded word, or a quotation mark. -/
inductive Atom where
  | char (c : Char) (quoted : Bool)
  /-- A quotation mark, which makes a field even of nothing. -/
  | quotes
  deriving DecidableEq, Repr

/-- How a segment is divided. -/
inductive Division where
  | none
  /-- By the characters that divide fields. -/
  | fields
  /-- Between arguments only, which null characters stand between. -/
  | arguments
  deriving DecidableEq, Repr

/-- Atoms that are divided in one way. -/
structure Segment where
  division : Division
  atoms : List Atom
  deriving DecidableEq, Repr

/-- The character of an atom. -/
def Atom.char? : Atom → Option Char
  | .char c _ => some c
  | .quotes => none

/-- The bytes of atoms. -/
def bytesOf (atoms : List Atom) : Bytes :=
  atoms.filterMap Atom.char?

/-- The characters that divide fields if nothing else is said. -/
def blanks : Bytes := [' ', '\t', '\n']

/-! ## Dividing -/

/-- How far segments have been divided. -/
structure Divider where
  /-- The finished fields in reverse. -/
  done : List (List Atom) := []
  /-- The atoms of the current field in reverse. -/
  current : List Atom := []
  /-- How many fields may still be finished; the last one takes all the rest. -/
  remaining : Option Nat := none
  /-- How many atoms of the last field are left when those at its end are dropped. -/
  stop : Option Nat := none
  /-- The last divider was a blank. -/
  afterBlank : Bool := false
  /-- The last segment was divided between arguments only. -/
  betweenArguments : Bool := false
  deriving DecidableEq, Repr

namespace Divider

/-- One more atom of the current field. -/
def add (d : Divider) (a : Atom) : Divider :=
  { d with current := a :: d.current }

/-- An atom behind the last divider that counts: the last field takes it. -/
def keep (d : Divider) (divides isBlank : Bool) (a : Atom) : Divider :=
  if isBlank then { d.add a with stop := some (d.stop.getD d.current.length) }
  else
    { d.add a with
      stop := if divides && d.afterBlank then d.stop else none
      afterBlank := false }

/-- An atom that divides fields. -/
def divide (d : Divider) (isBlank plain : Bool) (a : Atom) : Divider :=
  let afterBlank := if plain then isBlank else d.afterBlank
  if d.current.isEmpty && afterBlank then { d with afterBlank := false }
  else if d.remaining = some 1 then
    { d.add a with remaining := some 0, stop := some d.current.length, afterBlank }
  else
    { d with
      done := d.current.reverse :: d.done
      current := []
      remaining := d.remaining.map (· - 1)
      afterBlank }

/-- One atom of a segment that is divided. Blanks around another divider belong to it. -/
def step (separators : Bytes) (plain : Bool) (d : Divider) (a : Atom) : Divider :=
  let c := a.char?.getD '\x00'
  let divides := a != .quotes && (separators.contains c || c == '\x00')
  let isBlank := divides && (blanks.contains c || c == '\x00')
  if d.remaining = some 0 then d.keep divides isBlank a
  else if d.afterBlank then
    if isBlank then { d with current := [] }
    else if divides then { d with current := [], afterBlank := false }
    else { d with current := [a], afterBlank := false }
  else if divides then d.divide isBlank plain a
  else { d.add a with afterBlank := false }

/-- One segment. -/
def segment (separators : Bytes) (d : Divider) (s : Segment) : Divider :=
  match s.division with
  | .none => { d with current := s.atoms.reverse ++ d.current }
  | .fields =>
    let plain := !d.betweenArguments
    s.atoms.foldl (step separators plain) { d with afterBlank := false, betweenArguments := false }
  | .arguments =>
    s.atoms.foldl (step [] false) { d with afterBlank := false, betweenArguments := true }

/-- The fields. -/
def finish (d : Divider) : List (List Atom) :=
  let current := d.current.reverse
  let current := match d.stop with
    | some n => current.take n
    | none => current
  if current.isEmpty && !d.betweenArguments then d.done.reverse
  else (current :: d.done).reverse

end Divider

/-- The fields of segments; at most `limit` of them, the last of which takes all the rest. -/
def fields (separators : Bytes) (limit : Option Nat) (segments : List Segment) :
    List (List Atom) :=
  (segments.foldl (Divider.segment separators) { remaining := limit }).finish

/-! ## Patterns -/

/-- The pattern that atoms spell. A quoted character stands for itself, which a backslash before it
shows; a backslash that is not quoted does so already. -/
def patternFrom (guarded : Bool) : List Atom → Bytes
  | [] => []
  | .quotes :: rest => patternFrom false rest
  | .char c quoted :: rest =>
    if quoted then
      if guarded then c :: patternFrom false rest else '\\' :: c :: patternFrom false rest
    else c :: patternFrom (c == '\\') rest

/-- The pattern that atoms spell. -/
def pattern (atoms : List Atom) : Bytes :=
  patternFrom false atoms

/-- Atoms hold a character that has a meaning in patterns. -/
def mayBeWild (atoms : List Atom) : Bool :=
  atoms.any fun
    | .char c _ => ['*', '?', '['].contains c
    | .quotes => false

end AuroraLint.Shell
