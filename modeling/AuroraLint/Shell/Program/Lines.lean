import AuroraLint.Shell.Numeral
import AuroraLint.Shell.Program.Basic

/-!
# Programs on lines

`cat`, `head`, `tail`, `wc`, `sort`, `uniq`, `tac`, `rev`, `cut`, `tr` and `tee`.

Part of the host of recorded runs (`Workspace.host`); no result is about it.
-/

set_option autoImplicit false

namespace AuroraLint.Shell.Program

/-! ## Showing -/

/-- A number at the right end of a column. -/
def column (width : Nat) (n : Nat) : Bytes :=
  let digits := Bytes.ofNat n
  List.replicate (width - digits.length) ' ' ++ digits

/-- A byte so that it can be seen: control characters behind `^`, bytes from 128 on behind `M-`. -/
def visible (keepsTab : Bool) (c : Char) : Bytes :=
  let low := fun (n : Nat) =>
    if n < 32 then ['^', Char.ofNat (n + 64)]
    else if n = 127 then ['^', '?']
    else [Char.ofNat n]
  if c = '\t' && keepsTab then [c]
  else if c.toNat < 128 then low c.toNat
  else 'M' :: '-' :: low (c.toNat - 128)

/-- How `cat` shows lines. -/
structure CatStyle where
  numbers : Bool
  numbersFilled : Bool
  squeezes : Bool
  ends : Bool
  tabs : Bool
  controls : Bool
  deriving DecidableEq, Repr

/-- A byte as `cat` shows it. -/
def catByte (s : CatStyle) (c : Char) : Bytes :=
  if c = '\t' then if s.tabs then ['^', 'I'] else [c]
  else if s.controls then visible true c
  else [c]

/-- Lines as `cat` shows them, from a number on; `afterEmpty` says that the line before was empty,
and the last line may lack its end. -/
def catLines (s : CatStyle) (number : Nat) (afterEmpty : Bool) : List Bytes → Bytes
  | [] => []
  | [last] =>
    if last.isEmpty then []
    else
      let mark := if s.numbers then column 6 number ++ ['\t'] else []
      mark ++ last.flatMap (catByte s)
  | line :: rest =>
    if s.squeezes && line.isEmpty && afterEmpty then catLines s number true rest
    else
      let numbered := s.numbers && !(s.numbersFilled && line.isEmpty)
      let mark := if numbered then column 6 number ++ ['\t'] else []
      let finish := if s.ends then ['$', '\n'] else ['\n']
      mark ++ line.flatMap (catByte s) ++ finish ++
        catLines s (if numbered then number + 1 else number) line.isEmpty rest

/-- The program `cat`. -/
def cat (c : Call) : Act Finish :=
  let known := [⟨'A', "show-all", false⟩, ⟨'b', "number-nonblank", false⟩, ⟨'e', "", false⟩,
    ⟨'E', "show-ends", false⟩, ⟨'n', "number", false⟩, ⟨'s', "squeeze-blank", false⟩,
    ⟨'t', "", false⟩, ⟨'T', "show-tabs", false⟩, ⟨'u', "", false⟩,
    ⟨'v', "show-nonprinting", false⟩]
  withOptions c known false fun p => do
    let (text, ok) ← allInput c p.operands
    let style : CatStyle :=
      { numbers := p.has 'n' || p.has 'b'
        numbersFilled := p.has 'b'
        squeezes := p.has 's'
        ends := p.has 'A' || p.has 'e' || p.has 'E'
        tabs := p.has 'A' || p.has 't' || p.has 'T'
        controls := p.has 'A' || p.has 'e' || p.has 't' || p.has 'v' }
    print (if p.options.all (·.letter == 'u') then text
      else catLines style 1 false (Bytes.split (· == '\n') text))
    return success ok

/-! ## Parts of files -/

/-- The lines of a text with their ends. -/
def fullLines (text : Bytes) : List Bytes :=
  let pieces := Bytes.split (· == '\n') text
  let ended := pieces.dropLast.map (· ++ ['\n'])
  match pieces.getLast? with
  | some [] => ended
  | some last => ended ++ [last]
  | none => ended

/-- Options with a number in the place of a letter, as in `-5`, become that letter. -/
def numberOption (letter : Char) (args : List Bytes) : List Bytes :=
  match args with
  | ('-' :: d :: ds) :: rest =>
    if d.isDigit && ds.all Char.isDigit then ['-', letter] :: (d :: ds) :: rest else args
  | args => args

/-- How much of a file is wanted: a number of lines or bytes, with the sign before it. -/
structure Amount where
  bytes : Bool
  sign : Option Char
  count : Nat
  deriving DecidableEq, Repr

/-- The amount that options ask for; an error is the text that is no number. -/
def amount (p : Parsed) : Except (Bool × Bytes) Amount :=
  let (bytes, text) := match p.argument? 'c' with
    | some text => (true, text)
    | none => (false, (p.argument? 'n').getD ['1', '0'])
  let sign := text.head?.filter fun c => c == '-' || c == '+'
  let digits := if sign.isSome then text.tail else text
  if digits.isEmpty || !digits.all Char.isDigit then .error (bytes, text)
  else .ok ⟨bytes, sign, Numeral.value 10 digits⟩

/-- The pieces of a text in the unit of an amount. -/
def Amount.pieces (a : Amount) (text : Bytes) : List Bytes :=
  if a.bytes then text.map fun c => [c] else fullLines text

/-- The front of a text. With a minus sign, the amount is left out at the end. -/
def Amount.front (a : Amount) (text : Bytes) : Bytes :=
  let pieces := a.pieces text
  (pieces.take (if a.sign = some '-' then pieces.length - a.count else a.count)).flatten

/-- The end of a text. With a plus sign, it starts at the amount. -/
def Amount.back (a : Amount) (text : Bytes) : Bytes :=
  let pieces := a.pieces text
  (pieces.drop (if a.sign = some '+' then a.count - 1 else pieces.length - a.count)).flatten

/-- Shows a part of each file, with its name before it if there are several. -/
def showParts (c : Call) (headed : Bool) (part : Bytes → Bytes) (first : Bool) :
    List Bytes → Act Bool
  | [] => return true
  | file :: rest => do
    let w ← get
    let reading := if file = ['-'] then none else some (w.locate file)
    match reading with
    | some (.error e) =>
      complain c ("cannot open ".toList ++ quoted file ++ " for reading: ".toList ++
        e.reason.toList)
      let _ ← showParts c headed part first rest
      return false
    | result =>
      let name := if file = ['-'] then "standard input".toList else file
      if headed then
        print ((if first then [] else ['\n']) ++ "==> ".toList ++ name ++ " <==\n".toList)
      match result with
      | some (.ok (_, .directory)) =>
        complain c ("error reading ".toList ++ quoted file ++ ": Is a directory".toList)
        let _ ← showParts c headed part false rest
        return false
      | _ =>
        print (part ((← input c file).getD []))
        showParts c headed part false rest

/-- The programs `head` and `tail`. -/
def partOf (c : Call) (part : Amount → Bytes → Bytes) : Act Finish :=
  let known := [⟨'n', "lines", true⟩, ⟨'c', "bytes", true⟩, ⟨'q', "quiet", false⟩,
    ⟨'v', "verbose", false⟩]
  withOptions { c with args := numberOption 'n' c.args } known false fun p => do
    match amount p with
    | .error (bytes, text) =>
      let what := if bytes then "invalid number of bytes: " else "invalid number of lines: "
      complain c (what.toList ++ quoted text)
      return .exit 1
    | .ok a =>
      let files := if p.operands.isEmpty then [['-']] else p.operands
      let headed := p.has 'v' || (1 < files.length && !p.has 'q')
      return success (← showParts c headed (part a) true files)

/-! ## Counting -/

/-- The numbers of lines, words and bytes of a text, and the length of its longest line. -/
structure Counts where
  lines : Nat := 0
  words : Nat := 0
  bytes : Nat := 0
  longest : Nat := 0
  deriving DecidableEq, Repr

/-- A blank between words. -/
def isBlank (c : Char) : Bool :=
  Numeral.isBlank c

/-- The counts of a text. -/
def Counts.of (text : Bytes) : Counts :=
  { lines := text.count '\n'
    words := ((Bytes.split isBlank text).filter (!·.isEmpty)).length
    bytes := text.length
    longest := ((Bytes.split (· == '\n') text).map List.length).foldl max 0 }

/-- The counts of two texts together. -/
def Counts.add (a b : Counts) : Counts :=
  ⟨a.lines + b.lines, a.words + b.words, a.bytes + b.bytes, max a.longest b.longest⟩

/-- What can be counted has a size that is known before. -/
def hasSize (file : Bytes) : Act (Option Bool) := do
  let w ← get
  if file = ['-'] then
    match w.channel? 0 with
    | some (.file ..) => return some true
    | _ => return some false
  else
    match w.locate file with
    | .ok (_, .file _ _) => return some true
    | .ok (_, .program _) => return some true
    | .ok _ => return some false
    | .error _ => return none

/-- The program `wc`. -/
def wc (c : Call) : Act Finish :=
  let known := [⟨'c', "bytes", false⟩, ⟨'m', "chars", false⟩, ⟨'l', "lines", false⟩,
    ⟨'w', "words", false⟩, ⟨'L', "max-line-length", false⟩]
  withOptions c known false fun p => do
    let files := if p.operands.isEmpty then [['-']] else p.operands
    let wanted := fun (k : Counts) =>
      let all := p.options.isEmpty
      (if all || p.has 'l' then [k.lines] else []) ++ (if all || p.has 'w' then [k.words] else []) ++
      (if p.has 'm' then [k.bytes] else []) ++ (if all || p.has 'c' then [k.bytes] else []) ++
      if p.has 'L' then [k.longest] else []
    let sized ← files.mapM hasSize
    let results ← files.mapM fun file => do
      let isDirectory := match (← get).locate file with
        | .ok (_, .directory) => file != ['-']
        | _ => false
      let text ← input c file
      return (file, if isDirectory then some [] else text, isDirectory)
    let counts := results.filterMap fun (_, text, _) => text.map Counts.of
    let total := counts.foldl Counts.add {}
    let width :=
      if files.length = 1 && (wanted {}).length = 1 then 1
      else if sized.any (· == some false) then 7
      else (Bytes.ofNat total.bytes).length
    let row := fun (k : Counts) (name : Bytes) =>
      let numbers := List.intercalate [' '] ((wanted k).map (column width))
      numbers ++ if name.isEmpty then [] else ' ' :: name
    let rows := results.filterMap fun (file, text, _) =>
      text.map fun t => row (Counts.of t) (if p.operands.isEmpty then [] else file)
    let rows := if 1 < files.length then rows ++ [row total "total".toList] else rows
    printLines rows
    return success (results.all fun (_, text, isDirectory) => text.isSome && !isDirectory)

/-! ## Order -/

/-- The number at the head of a line, as far as it goes: its sign, whole part and fraction, scaled by
`10 ^ 18`. -/
def leadingNumber (line : Bytes) : Int :=
  let text := line.dropWhile fun c => c == ' ' || c == '\t'
  let negative := text.head? = some '-'
  let text := if negative then text.tail else text
  let whole := text.takeWhile Char.isDigit
  let behind := text.drop whole.length
  let fraction := if behind.head? = some '.' then behind.tail.takeWhile Char.isDigit else []
  let scaled := (fraction ++ List.replicate 18 '0').take 18
  let size : Int := Numeral.value 10 (whole ++ scaled)
  if negative then -size else size

/-- The fields of a line from one on: with the blanks before them, unless a character divides them. -/
def fieldsFrom (divider : Option Char) (n : Nat) (line : Bytes) : Bytes :=
  match divider with
  | some d => List.intercalate [d] ((Bytes.split (· == d) line).drop (n - 1))
  | none =>
    let isGap := fun (c : Char) => c == ' ' || c == '\t'
    let rec skip : Nat → Bytes → Bytes
      | 0, text => text
      | n + 1, text => skip n ((text.dropWhile isGap).dropWhile fun c => !isGap c)
    skip (n - 1) line

/-- Lines without those that the one before is the same as. -/
def distinct (same : Bytes → Bytes → Bool) : List Bytes → List Bytes
  | [] => []
  | [line] => [line]
  | a :: b :: rest => if same a b then distinct same (a :: rest) else a :: distinct same (b :: rest)

/-- The program `sort`. -/
def sort (c : Call) : Act Finish :=
  let known := [⟨'r', "reverse", false⟩, ⟨'n', "numeric-sort", false⟩, ⟨'u', "unique", false⟩,
    ⟨'f', "ignore-case", false⟩, ⟨'b', "ignore-leading-blanks", false⟩, ⟨'s', "stable", false⟩,
    ⟨'k', "key", true⟩, ⟨'t', "field-separator", true⟩, ⟨'o', "output", true⟩]
  match parse known false c.args with
  | .error text => misuse c text 2
  | .ok p => do
    let files := if p.operands.isEmpty then [['-']] else p.operands
    let missing ← files.filterMapM fun file => do
      if file = ['-'] then return none
      match (← get).locate file with
      | .error e => return some (file, e)
      | .ok _ => return none
    match missing with
    | (file, e) :: _ =>
      complain c ("cannot read: ".toList ++ shown file ++ ": ".toList ++ e.reason.toList)
      return .exit 2
    | [] =>
      let (text, ok) ← allInput c files
      let lines := Bytes.lines text
      let start := ((p.argument? 'k').map fun k =>
        Numeral.value 10 (k.takeWhile Char.isDigit)).getD 1
      let letters := ((p.argument? 'k').getD []).filter Char.isAlpha
      let has := fun l => p.has l || letters.contains l
      let key := fun (line : Bytes) =>
        let field := fieldsFrom ((p.argument? 't').bind List.head?) start line
        let field := if has 'b' then field.dropWhile (· == ' ') else field
        if has 'f' then field.map Char.toUpper else field
      let before := fun (a b : Bytes) =>
        if has 'n' then leadingNumber (key a) < leadingNumber (key b)
        else key a != key b && Bytes.precedes (key a) (key b)
      let same := fun (a b : Bytes) => !before a b && !before b a
      let least := fun (a b : Bytes) =>
        if same a b then (p.has 's' || p.has 'u') || (Bytes.precedes a b != has 'r')
        else before a b != has 'r'
      let sorted := lines.mergeSort fun a b =>
        if a == b then true else least a b
      let result := if p.has 'u' then distinct same sorted else sorted
      match p.argument? 'o' with
      | none => printLines result
      | some file =>
        let w ← get
        match w.openPath file { writes := true, truncates := true, creates := true } with
        | .error e => complainAbout c file e
        | .ok (w', i) =>
          set w'
          let _ ← Act.writeChannel i (result.flatMap (· ++ ['\n']))
      return .exit (if ok then 0 else 2)

/-- Lines with the number of times that each comes in a row. -/
def rows (same : Bytes → Bytes → Bool) : List Bytes → List (Nat × Bytes)
  | [] => []
  | line :: rest =>
    match rows same rest with
    | (n, next) :: more => if same line next then (n + 1, line) :: more
      else (1, line) :: (n, next) :: more
    | [] => [(1, line)]

/-- The program `uniq`. -/
def uniq (c : Call) : Act Finish :=
  let known := [⟨'c', "count", false⟩, ⟨'d', "repeated", false⟩, ⟨'u', "unique", false⟩,
    ⟨'i', "ignore-case", false⟩]
  withOptions c known false fun p => do
    let (text, ok) ← allInput c (p.operands.take 1)
    let same := fun (a b : Bytes) =>
      if p.has 'i' then a.map Char.toLower == b.map Char.toLower else a == b
    let kept := (rows same (Bytes.lines text)).filter fun (n, _) =>
      (!p.has 'd' || 1 < n) && (!p.has 'u' || n == 1)
    printLines (kept.map fun (n, line) =>
      if p.has 'c' then column 7 n ++ [' '] ++ line else line)
    return success ok

/-- The program `tac`. -/
def tac (c : Call) : Act Finish :=
  withOptions c [] false fun p => do
    let files := if p.operands.isEmpty then [['-']] else p.operands
    let results ← files.mapM fun file => do
      let w ← get
      match if file = ['-'] then none else some (w.locate file) with
      | some (.error e) =>
        complain c ("failed to open ".toList ++ quoted file ++ " for reading: ".toList ++
          e.reason.toList)
        return false
      | _ =>
        let text ← input c file
        print ((text.map fun t => (fullLines t).reverse.flatten).getD [])
        return text.isSome
    return success (results.all id)

/-- The program `rev`. -/
def rev (c : Call) : Act Finish := do
  let files := if c.args.isEmpty then [['-']] else c.args
  let results ← files.mapM fun file => do
    let w ← get
    match if file = ['-'] then none else some (w.locate file) with
    | some (.error e) =>
      complain c ("cannot open ".toList ++ file ++ ": ".toList ++ e.reason.toList)
      return false
    | _ =>
      let text ← input c file
      let turned := (Bytes.split (· == '\n') (text.getD [])).map List.reverse
      print (List.intercalate ['\n'] turned)
      return text.isSome
  return success (results.all id)

/-! ## Characters -/

/-- The ranges of a list such as `1,3-5,7-`: first and last. -/
def ranges? (text : Bytes) : Option (List (Nat × Option Nat)) :=
  (Bytes.split (· == ',') text).mapM fun piece =>
    let first := piece.takeWhile (· != '-')
    let last := piece.drop (first.length + 1)
    if piece.isEmpty || piece = ['-'] || !(first ++ last).all Char.isDigit then none
    else if first.length = piece.length then
      some (Numeral.value 10 first, some (Numeral.value 10 first))
    else
      some (if first.isEmpty then 1 else Numeral.value 10 first,
        if last.isEmpty then none else some (Numeral.value 10 last))

/-- A number from one on is in one of some ranges. -/
def inRanges (rs : List (Nat × Option Nat)) (n : Nat) : Bool :=
  rs.any fun (first, last) => first ≤ n && last.all (n ≤ ·)

/-- The members of a list whose places are in ranges. -/
def chosen {α : Type} (rs : List (Nat × Option Nat)) (xs : List α) : List α :=
  (xs.zipIdx.filter fun (_, i) => inRanges rs (i + 1)).map (·.1)

/-- The program `cut`. -/
def cut (c : Call) : Act Finish :=
  let known := [⟨'b', "bytes", true⟩, ⟨'c', "characters", true⟩, ⟨'f', "fields", true⟩,
    ⟨'d', "delimiter", true⟩, ⟨'s', "only-delimited", false⟩]
  withOptions c known false fun p => do
    let lists := p.options.filter fun o => ['b', 'c', 'f'].contains o.letter
    match lists with
    | [] => misuse c "you must specify a list of bytes, characters, or fields".toList
    | _ :: _ :: _ => misuse c "only one list may be specified".toList
    | [o] =>
      let divider := (p.argument? 'd').getD ['\t']
      if divider.length != 1 then
        return ← misuse c "the delimiter must be a single character".toList
      match ranges? o.argument with
      | none => misuse c "invalid byte, character or field list".toList
      | some rs =>
        let (text, ok) ← allInput c p.operands
        let result := (Bytes.lines text).filterMap fun line =>
          if o.letter != 'f' then some (chosen rs line)
          else if !divider.all line.contains then if p.has 's' then none else some line
          else some (List.intercalate divider
            (chosen rs (Bytes.split (fun x => [x] == divider) line)))
        printLines result
        return success ok

/-- The bytes of a set such as `a-z\n`. -/
def expandSet : Bytes → Bytes
  | '\\' :: cs =>
    let (out, n) := match cs with
      | 'n' :: _ => (['\n'], 1)
      | 't' :: _ => (['\t'], 1)
      | 'r' :: _ => (['\r'], 1)
      | '\\' :: _ => (['\\'], 1)
      | c :: _ =>
        if Numeral.isDigit 8 c then
          let digits := (cs.take 3).takeWhile (Numeral.isDigit 8)
          ([Bytes.ofByte (Numeral.value 8 digits).toUInt8], digits.length)
        else ([c], 1)
      | [] => (['\\'], 0)
    out ++ expandSet (cs.drop n)
  | a :: '-' :: b :: cs =>
    ((List.range (b.toNat + 1 - a.toNat)).map fun i => Char.ofNat (a.toNat + i)) ++ expandSet cs
  | c :: cs => c :: expandSet cs
  | [] => []
termination_by cs => cs.length
decreasing_by
  all_goals simp_wf
  all_goals omega

/-- The classes of bytes in a set, such as `[:upper:]`, written out. -/
def withoutClasses (set : Bytes) : Bytes :=
  let range := fun (a b : Char) =>
    (List.range (b.toNat + 1 - a.toNat)).map fun i => Char.ofNat (a.toNat + i)
  match String.ofList set with
  | "[:upper:]" => range 'A' 'Z'
  | "[:lower:]" => range 'a' 'z'
  | "[:digit:]" => range '0' '9'
  | "[:alpha:]" => range 'A' 'Z' ++ range 'a' 'z'
  | "[:alnum:]" => range '0' '9' ++ range 'A' 'Z' ++ range 'a' 'z'
  | "[:space:]" => ['\t', '\n', '\x0b', '\x0c', '\r', ' ']
  | "[:blank:]" => ['\t', ' ']
  | "[:punct:]" =>
    (range '!' '~').filter fun c => !c.isAlphanum
  | _ => expandSet set

/-- Bytes of a set that come several times in a row are kept once. -/
def squeeze (set : Bytes) : Bytes → Bytes
  | a :: b :: rest =>
    if a = b && set.contains a then squeeze set (b :: rest) else a :: squeeze set (b :: rest)
  | rest => rest

/-- The program `tr`. -/
def tr (c : Call) : Act Finish :=
  let known := [⟨'c', "complement", false⟩, ⟨'C', "", false⟩, ⟨'d', "delete", false⟩,
    ⟨'s', "squeeze-repeats", false⟩, ⟨'t', "truncate-set1", false⟩]
  withOptions c known true fun p => do
    let complement := p.has 'c' || p.has 'C'
    let all := (List.range 256).map Char.ofNat
    let first := fun (set : Bytes) =>
      let set := withoutClasses set
      if complement then all.filter fun b => !set.contains b else set
    let input := match ← Act.readAll 0 with
      | .ok text => text
      | .error _ => []
    match p.operands, p.has 'd', p.has 's' with
    | [], _, _ => misuse c "missing operand".toList
    | [set], true, false =>
      print (input.filter fun b => !(first set).contains b)
      return .exit 0
    | [set], false, true =>
      print (squeeze (first set) input)
      return .exit 0
    | [set], _, _ =>
      complain c ("missing operand after ".toList ++ quoted set)
      let _ ← Act.write 2 "Two strings must be given when translating.\n".toList
      hint c
      return .exit 1
    | [one, two], true, _ =>
      print (squeeze (withoutClasses two) (input.filter fun b => !(first one).contains b))
      return .exit 0
    | [one, two], false, squeezes =>
      let from_ := first one
      let target := withoutClasses two
      let last := target.getLast?.getD ' '
      let change := fun (b : Char) =>
        let i := from_.findIdx (· == b)
        if i < from_.length then target[i]?.getD last else b
      let result := input.map change
      print (if squeezes then squeeze target result else result)
      return .exit 0
    | _ :: _ :: extra :: _, _, _ => misuse c ("extra operand ".toList ++ quoted extra)

/-- The program `tee`. -/
def tee (c : Call) : Act Finish :=
  withOptions c [⟨'a', "append", false⟩, ⟨'i', "ignore-interrupts", false⟩] false fun p => do
    let text := match ← Act.readAll 0 with
      | .ok text => text
      | .error _ => []
    let access : Access := if p.has 'a' then { appends := true, creates := true }
      else { writes := true, truncates := true, creates := true }
    let opened ← p.operands.mapM fun file => do
      match (← get).openPath file access with
      | .error e =>
        complainAbout c file e
        return none
      | .ok (w, i) =>
        set w
        return some i
    print text
    opened.forM fun i? => i?.forM fun i => do let _ ← Act.writeChannel i text
    return success (opened.all (·.isSome))

end AuroraLint.Shell.Program
