import AuroraLint.Compiler.Invocation
import Mathlib.Data.List.DropRight

/-!
# Paths in another working directory

The compiler runs in the directory of its file, but is given the paths as its caller has them. A
path that is not absolute means something else there, unless both directories are alike where the
path leaves them.

* `Path.climb`   : the number of directories that a path goes up from where it is seen.
* `Path.descent` : the names that it then goes down to.
* `Path.above`   : the directory some levels above another.

Main statements: `Path.resolve_of_relative` — a path leads up, and then down to names;
`Path.resolve_eq_iff` — it leads to the same place from two directories exactly if the directories
that it goes up to are the same; `Invocation.compile_paths` — so this decides which of the paths
that the compiler is given mean what its caller means by them.
-/

set_option autoImplicit false

namespace AuroraLint

namespace Path

/-! ## Pieces of joined paths -/

theorem pieces_ne_nil (cs : List Char) : pieces cs ≠ [] := by
  cases cs with
  | nil => simp [pieces]
  | cons c cs =>
    rw [pieces]
    split
    · simp
    · split <;> simp

theorem pieces_of_not_mem {cs : List Char} (h : '/' ∉ cs) : pieces cs = [cs] := by
  induction cs with
  | nil => rfl
  | cons c cs ih =>
    simp only [List.mem_cons, not_or] at h
    rw [pieces, if_neg (Ne.symm h.1), ih h.2]

theorem pieces_append_slash (xs ys : List Char) :
    pieces (xs ++ '/' :: ys) = pieces xs ++ pieces ys := by
  induction xs with
  | nil => simp [pieces]
  | cons x xs ih =>
    rw [List.cons_append, pieces, ih, pieces]
    split
    · rfl
    · cases hp : pieces xs with
      | nil => exact absurd hp (pieces_ne_nil xs)
      | cons piece rest => rfl

theorem resolveFrom_append (base xs ys : List (List Char)) :
    resolveFrom base (xs ++ ys) = resolveFrom (resolveFrom base xs) ys := by
  induction xs generalizing base with
  | nil => rfl
  | cons x xs ih =>
    rw [List.cons_append, resolveFrom, resolveFrom]
    split
    · exact ih base
    · split
      · exact ih base.tail
      · exact ih (x :: base)

/-- A slash at the end of a path leads nowhere. -/
theorem resolveFrom_pieces_slash (base : List (List Char)) (cs : List Char) :
    resolveFrom base (pieces (cs ++ ['/'])) = resolveFrom base (pieces cs) := by
  rw [pieces_append_slash, resolveFrom_append]
  rfl

/-- A relative path goes on from the directory that it is joined to. -/
theorem resolveFrom_join {path : String} (h : isAbsolute path = false) (base : List (List Char))
    (directory : String) : resolveFrom base (pieces (join directory path).toList) =
      resolveFrom (resolveFrom base (pieces directory.toList)) (pieces path.toList) := by
  rw [join, h, if_neg Bool.false_ne_true]
  by_cases hempty : directory = ""
  · simp [hempty, pieces, resolveFrom]
  · have hne : directory.isEmpty = false := by simpa using hempty
    by_cases hslash : directory.toList.getLast? = some '/'
    · obtain ⟨cs, hcs⟩ := List.getLast?_eq_some_iff.mp hslash
      rw [hne, hslash, if_pos (by simp), String.toList_append, hcs, List.append_assoc,
        List.singleton_append, pieces_append_slash, resolveFrom_append, resolveFrom_pieces_slash]
    · have hjoined : (directory ++ "/" ++ path).toList =
          directory.toList ++ '/' :: path.toList := by
        simp [String.toList_append]
      rw [hne, if_neg (by simpa using hslash), hjoined, pieces_append_slash, resolveFrom_append]

theorem resolveAbsolute_join {path : String} (h : isAbsolute path = false) (directory : String) :
    resolveAbsolute (join directory path) =
      (resolveFrom (resolveAbsolute directory).reverse (pieces path.toList)).reverse := by
  rw [resolveAbsolute, resolveFrom_join h, resolveAbsolute, List.reverse_reverse]

theorem isAbsolute_join {path : String} (h : isAbsolute path = false) (directory : String) :
    isAbsolute (join directory path) = isAbsolute directory := by
  rw [join, h, if_neg Bool.false_ne_true]
  cases hchars : directory.toList with
  | nil =>
    have hempty : directory = "" := String.toList_eq_nil_iff.mp hchars
    simpa [hempty, isAbsolute] using h
  | cons c cs => split <;> simp [isAbsolute, String.toList_append, hchars]

/-- A path seen from a directory below is what it is from above, with the directory in front. -/
theorem resolve_join (top directory path : String) :
    resolve (join top directory) path = resolve top (join directory path) := by
  cases h : isAbsolute path with
  | true =>
    have hjoin : ∀ base, join base path = path := fun base => by rw [join, h, if_pos rfl]
    rw [resolve, hjoin, hjoin, resolve, hjoin]
  | false =>
    rw [resolve, resolve, resolveAbsolute_join h]
    cases hd : isAbsolute directory with
    | true =>
      have hjoined : isAbsolute (join directory path) = true := (isAbsolute_join h _).trans hd
      rw [join, hd, if_pos rfl, join, hjoined, if_pos rfl, resolveAbsolute_join h]
    | false =>
      rw [resolveAbsolute_join hd, resolveAbsolute_join ((isAbsolute_join h _).trans hd),
        resolveFrom_join h, List.reverse_reverse]

/-! ## Where a path leads -/

/-- Where pieces lead from a place that is reached by going `up` directories up and then down to the
names `down`, the last name first: such names again, and how far up. -/
def routeFrom (down : List (List Char)) (up : Nat) :
    List (List Char) → List (List Char) × Nat
  | [] => (down, up)
  | piece :: rest =>
    if piece = [] ∨ piece = ['.'] then routeFrom down up rest
    else if piece = ['.', '.'] then routeFrom down.tail (if down = [] then up + 1 else up) rest
    else routeFrom (piece :: down) up rest

/-- The number of directories that a relative path goes up from where it is seen. -/
def climb (path : String) : Nat :=
  (routeFrom [] 0 (pieces path.toList)).2

/-- The names that a relative path goes down to from there. -/
def descent (path : String) : List (List Char) :=
  (routeFrom [] 0 (pieces path.toList)).1.reverse

/-- The directory some levels above another; the root is above itself. -/
def above (levels : Nat) (directory : String) : List (List Char) :=
  (resolveAbsolute directory).rdrop levels

theorem resolveFrom_route (base down : List (List Char)) (up : Nat) (names : List (List Char)) :
    resolveFrom (down ++ base.drop up) names =
      (routeFrom down up names).1 ++ base.drop (routeFrom down up names).2 := by
  induction names generalizing down up with
  | nil => rfl
  | cons piece rest ih =>
    rw [resolveFrom, routeFrom]
    split
    · exact ih down up
    · split
      · cases down with
        | nil => simpa using ih [] (up + 1)
        | cons name down => simpa using ih down up
      · exact ih (piece :: down) up

/-- **A relative path leads up some directories, and then down to names.** -/
theorem resolve_of_relative {path : String} (h : isAbsolute path = false) (directory : String) :
    resolve directory path = above (climb path) directory ++ descent path := by
  have hroute := resolveFrom_route (resolveAbsolute directory).reverse [] 0 (pieces path.toList)
  rw [List.nil_append, List.drop_zero] at hroute
  rw [resolve, resolveAbsolute_join h, hroute, List.reverse_append, above,
    List.rdrop_eq_reverse_drop_reverse]
  rfl

theorem resolve_of_absolute {path : String} (h : isAbsolute path = true) (directory : String) :
    resolve directory path = resolveAbsolute path := by
  rw [resolve, join, h, if_pos rfl]

/-- **A path leads to the same place from two directories** exactly if it is absolute, or goes up to
the same directory from both. -/
theorem resolve_eq_iff (path directory directory' : String) :
    resolve directory path = resolve directory' path ↔
      isAbsolute path = true ∨ above (climb path) directory = above (climb path) directory' := by
  cases h : isAbsolute path with
  | true => simp [resolve_of_absolute h]
  | false => simp [resolve_of_relative h]

end Path

/-! ## The paths that the compiler is given -/

namespace Invocation

/-- A bare name stands in the current directory. -/
theorem directoryOf_bare {file : String} (h : '/' ∉ file.toList) : directoryOf file = "." := by
  have habsolute : Path.isAbsolute file = false := by
    cases hchars : file.toList with
    | nil => simp [Path.isAbsolute, hchars]
    | cons c cs =>
      rw [hchars, List.mem_cons, not_or] at h
      simp [Path.isAbsolute, hchars, Ne.symm h.1]
  unfold directoryOf Path.parent? Path.parts
  rw [Path.pieces_of_not_mem h, habsolute]
  by_cases hempty : file.toList = []
  · simp [Path.partsFrom, hempty]
  · simp [Path.partsFrom, hempty]

/-- **What the compiler makes of the paths it is given.** The file comes last among the arguments,
behind the place for LLVM code if that is asked for. The compiler takes each path for the one that
its caller would reach from the directory of the file. That is what the caller means by it exactly
if the path is absolute, or goes up to the same directory from there and from the caller's own; so
it is for every path if the file has a bare name. -/
theorem compile_paths (cwd program file : String) (args : List String) :
    let call := compile program args file
    let child := Path.join cwd call.directory
    (call.args = args ++ [file] ∧
      ∀ out, emitLlvm program file out = compile program ["--emit-llvm", "-o", out] file) ∧
    (∀ path, Path.resolve child path = Path.resolve cwd (Path.join call.directory path) ∧
      (Path.resolve child path = Path.resolve cwd path ↔ Path.isAbsolute path = true ∨
        Path.above (Path.climb path) child = Path.above (Path.climb path) cwd)) ∧
    ('/' ∉ file.toList → ∀ path, Path.resolve child path = Path.resolve cwd path) := by
  intro call child
  refine ⟨⟨rfl, fun _ => rfl⟩, fun path =>
    ⟨Path.resolve_join cwd call.directory path, Path.resolve_eq_iff path child cwd⟩,
    fun hbare path => ?_⟩
  have hsame : Path.resolveAbsolute child = Path.resolveAbsolute cwd := by
    have hdir : child = Path.join cwd "." := by rw [← directoryOf_bare hbare]; rfl
    rw [hdir, Path.resolveAbsolute_join (by decide)]
    simp [Path.pieces, Path.resolveFrom]
  exact (Path.resolve_eq_iff path child cwd).mpr (.inr (by rw [Path.above, Path.above, hsame]))

/-- A bare name, and a place for LLVM code above the working directory. -/
theorem compile_paths_bare :
    let call := compile "aurora" ["--emit-llvm", "-o", "../out.ll"] "main.aur"
    '/' ∉ "main.aur".toList ∧ Path.resolve (Path.join "/home/demo" call.directory) "../out.ll" =
      Path.resolve "/home/demo" "../out.ll" := by
  intro call
  have hbare : '/' ∉ "main.aur".toList := by decide +kernel
  exact ⟨hbare, (compile_paths "/home/demo" "aurora" "main.aur" _).2.2 hbare "../out.ll"⟩

/-- Given a file in a directory below, the compiler looks for that directory in itself, and would
write LLVM code there. -/
theorem compile_misses_file :
    ¬ ∀ cwd program file out : String,
      let call := emitLlvm program file out
      let child := Path.join cwd call.directory
      Path.resolve child file = Path.resolve cwd file ∧
        Path.resolve child out = Path.resolve cwd out := by
  intro h
  have hfile := (h "/home" "aurora" "demo/m.aur" "demo/m.ll").1
  revert hfile
  decide +kernel

end Invocation

end AuroraLint
