import SqlMetrics.Files
import SqlMetrics.Shell.Arithmetic
import SqlMetrics.Shell.Utility

/-!
# Filters of the shell

The commands that turn an input into an output, line by line or as a whole.  They work on bytes.
Where a text is searched for, it stands for itself.
-/

namespace SqlMetrics.Shell

namespace Utility

/-- The bytes that a set of characters names. -/
def expandSet : Nat → Bytes → Bytes
  | 0, _ => []
  | _, [] => []
  | fuel + 1, a :: 45 :: b :: rest =>
    if a ≤ b then
      (List.range (b.toNat - a.toNat + 1)).map (fun i => UInt8.ofNat (a.toNat + i)) ++
        expandSet fuel rest
    else expandSet fuel rest
  | fuel + 1, 92 :: c :: rest =>
    if isOctal c then
      let (b, rest) := octal 3 (c :: rest)
      b :: expandSet fuel rest
    else (letterEscape? c).getD c :: expandSet fuel rest
  | fuel + 1, 91 :: 58 :: rest =>
    let name := Text.decodeLossy (rest.takeWhile (· != 58))
    let range (a b : Nat) : Bytes := (List.range (b - a + 1)).map fun i => UInt8.ofNat (a + i)
    let set : Bytes :=
      match name with
      | "upper" => range 65 90
      | "lower" => range 97 122
      | "digit" => range 48 57
      | "alpha" => range 65 90 ++ range 97 122
      | "alnum" => range 48 57 ++ range 65 90 ++ range 97 122
      | "space" => range 9 13 ++ [32]
      | _ => []
    set ++ expandSet fuel ((rest.dropWhile (· != 58)).drop 2)
  | fuel + 1, b :: rest => b :: expandSet fuel rest

/-- Replaces or deletes bytes of its input. -/
def translate (args : List Bytes) (input : Bytes) : Produced :=
  match args with
  | [[45, 100], set] =>
    let set := expandSet (set.length + 1) set
    { output := input.filter fun b => !set.contains b }
  | [source, target] =>
    let source := expandSet (source.length + 1) source
    let target := expandSet (target.length + 1) target
    { output := input.map fun b =>
        match source.idxOf? b with
        | some i => (target[i]?).getD (target.getLastD b)
        | none => b }
  | _ => failed 1 "tr: missing operand"

/-- The number of a count option such as `-n 3` or `-3`, and the other arguments. -/
def countOption (letter : UInt8) (args : List Bytes) : Option Nat × List Bytes :=
  match args with
  | (45 :: more) :: rest =>
    if more == [letter] then
      match rest with
      | n :: rest => (nat? n, rest)
      | [] => (none, [])
    else if more.head? == some letter then (nat? (more.drop 1), rest)
    else (nat? more, rest)
  | args => (some 10, args)

/-- The first lines or bytes of its input. -/
def first (args : List Bytes) (input : Bytes) : Produced :=
  if args.head?.any (List.isPrefixOf [45, 99]) then
    match (countOption 99 args).1 with
    | some n => { output := input.take n }
    | none => failed 1 "head: invalid number of bytes"
  else
    match (countOption 110 args).1 with
    | some n =>
      let ls := lines input
      if n < ls.length then { output := unlines (ls.take n) } else { output := input }
    | none => failed 1 "head: invalid number of lines"

/-- The last lines or bytes of its input. -/
def last (args : List Bytes) (input : Bytes) : Produced :=
  if args.head?.any (List.isPrefixOf [45, 99]) then
    match (countOption 99 args).1 with
    | some n => { output := input.drop (input.length - n) }
    | none => failed 1 "tail: invalid number of bytes"
  else
    match (countOption 110 args).1 with
    | some n =>
      let ls := lines input
      if n < ls.length then { output := unlines (ls.drop (ls.length - n)) } else { output := input }
    | none => failed 1 "tail: invalid number of lines"

/-- Counts the lines, words or bytes of its input. -/
def count (args : List Bytes) (input : Bytes) : Produced :=
  let isSpace (b : UInt8) : Bool := b == 32 || (9 ≤ b && b ≤ 13)
  let parts := input.splitBy fun a b => isSpace a == isSpace b
  let words := parts.countP fun part => !part.all isSpace
  match args with
  | [[45, 99]] => { output := line (toString input.length) }
  | [[45, 108]] => { output := line (toString (input.count 10)) }
  | [[45, 119]] => { output := line (toString words) }
  | [] =>
    let column (n : Nat) : Bytes := padded false 32 7 (Text.encode (toString n))
    { output := joined [column (input.count 10), column words, column input.length] ++ [10] }
  | _ => failed 1 "wc: invalid option"

/-- Whether bytes occur within others. -/
def occursIn (part : Bytes) : Bytes → Bool
  | [] => part.isEmpty
  | b :: rest => part.isPrefixOf (b :: rest) || occursIn part rest

/-- As many bytes of an endless file as any command reads. -/
def endlessLength : Nat := 1048576

/-- The contents of the file at a path.  Two files are always there: an empty one and one of endless
zeros. -/
def readFile? (files : Files) (path : Bytes) : Option Bytes :=
  match Text.decodeLossy path with
  | "/dev/null" => some []
  | "/dev/zero" => some (List.replicate endlessLength 0)
  | _ => (files.read path).toOption

/-- The letters of the options among arguments. -/
def optionLetters (args : List Bytes) : Bytes :=
  (args.filter fun a => a.head? == some 45 && 1 < a.length).flatMap (·.drop 1)

/-- The arguments that are no options. -/
def operands (args : List Bytes) : List Bytes :=
  args.filter fun a => a.head? != some 45

/-- Bytes with the letters of ASCII in lower case. -/
def lowered (bs : Bytes) : Bytes :=
  bs.map fun b => if 65 ≤ b && b ≤ 90 then b + 32 else b

/-- The lines of its input that hold a text, or their number. -/
def search (args : List Bytes) (input : Bytes) : Produced :=
  match operands args with
  | part :: _ =>
    let has (letter : UInt8) : Bool := (optionLetters args).contains letter
    let folded (bs : Bytes) : Bytes := if has 105 then lowered bs else bs
    let found := (lines input).filter fun l => occursIn (folded part) (folded l) != has 118
    { output :=
        if has 113 then [] else if has 99 then line (toString found.length) else unlines found
      status := if found.isEmpty then 1 else 0 }
  | [] => failed 2 "Usage: grep [OPTION]... PATTERNS [FILE]..."

/-- Puts its input and files one after another. -/
def concatenate (files : Files) (args : List Bytes) (input : Bytes) : Produced :=
  let step (p : Produced) (arg : Bytes) : Produced :=
    if arg == [45] then { p with output := p.output ++ input }
    else
      match readFile? files arg with
      | some content => { p with output := p.output ++ content }
      | none =>
        { p with
          errors := p.errors ++
            line ("cat: " ++ Text.decodeLossy arg ++ ": No such file or directory")
          status := 1 }
  (if args.isEmpty then [[45]] else args).foldl step {}

/-- The options among arguments, with the values of those whose letter takes one, and the other
arguments. -/
def splitOptions (valued : Bytes) : List Bytes → List Bytes × List Bytes
  | [] => ([], [])
  | [45, letter] :: value :: rest =>
    let (options, others) := splitOptions valued rest
    if valued.contains letter then ([45, letter] :: value :: options, others)
    else
      let (options, others) := splitOptions valued (value :: rest)
      ([45, letter] :: options, others)
  | arg :: rest =>
    let (options, others) := splitOptions valued rest
    if arg.head? == some 45 && 1 < arg.length then (arg :: options, others)
    else (options, arg :: others)

/-- A filter that may be given a file: the first argument that is no option, after the `own` ones
that the filter itself takes, is the path of its input. -/
structure FileFilter where
  run : List Bytes → Bytes → Produced
  /-- The letters of the options that take a value. -/
  valued : Bytes := []
  own : Nat := 0
  /-- What is said about a path that leads to no file, before and after the path. -/
  complaint : String × String
  status : Nat := 1

/-- Runs a filter on the file that it is given, or else on its input. -/
def FileFilter.apply (f : FileFilter) (files : Files) (args : List Bytes) (input : Bytes) :
    Produced :=
  let (options, others) := splitOptions f.valued args
  match others.drop f.own with
  | [] => f.run args input
  | path :: _ =>
    match readFile? files path with
    | some content => f.run (options ++ others.take f.own) content
    | none =>
      failed f.status (f.complaint.1 ++ Text.decodeLossy path ++ f.complaint.2 ++
        ": No such file or directory")

/-- Counts in its input or in a file, which it then names. -/
def countIn (files : Files) (args : List Bytes) (input : Bytes) : Produced :=
  let (options, others) := splitOptions [] args
  match others with
  | [] => count options input
  | path :: _ =>
    match readFile? files path with
    | some content =>
      let p := count options content
      { p with output := p.output.dropLast ++ 32 :: path ++ [10] }
    | none => failed 1 ("wc: " ++ Text.decodeLossy path ++ ": No such file or directory")

/-- The last name of a path. -/
def lastName (path : Bytes) : Bytes :=
  let trimmed := (path.reverse.dropWhile (· == 47)).reverse
  if trimmed.isEmpty then path.take 1 else (trimmed.reverse.takeWhile (· != 47)).reverse

/-- A path without its last name. -/
def withoutLastName (path : Bytes) : Bytes :=
  let trimmed := (path.reverse.dropWhile (· == 47)).reverse
  let before := (trimmed.reverse.dropWhile (· != 47)).dropWhile (· == 47) |>.reverse
  if !before.isEmpty then before else if path.head? == some 47 then [47] else [46]

/-- Names the files among its arguments. -/
def list (files : Files) (args : List Bytes) : Produced :=
  let step (p : Produced) (arg : Bytes) : Produced :=
    match readFile? files arg with
    | some _ => { p with output := p.output ++ arg ++ [10] }
    | none =>
      { p with
        errors := p.errors ++
          line ("ls: cannot access '" ++ Text.decodeLossy arg ++ "': No such file or directory")
        status := 2 }
  (operands args).foldl step {}

/-- Its lines in order, by bytes or by the numbers that they are. -/
def sort (args : List Bytes) (input : Bytes) : Produced :=
  let has (letter : UInt8) : Bool := (optionLetters args).contains letter
  let number (l : Bytes) : Int := (takeInt l).1
  let atMost (a b : Bytes) : Bool :=
    if has 110 && number a != number b then number a < number b
    else !((b.map UInt8.toNat) < (a.map UInt8.toNat))
  let ordered := (lines input).mergeSort fun a b => if has 114 then atMost b a else atMost a b
  { output := unlines (if has 117 then ordered.eraseDups else ordered) }

/-- Its lines without those that equal the line before them. -/
def distinct (input : Bytes) : Produced :=
  { output := unlines (((lines input).splitBy (· == ·)).filterMap List.head?) }

/-- The ranges of a list such as `1,3-5`. -/
def ranges? (list : Bytes) : Option (List (Nat × Option Nat)) :=
  (list.splitOn 44).mapM fun part =>
    match part.splitOn 45 with
    | [n] => (nat? n).map fun n => (n, some n)
    | [[], last] => (nat? last).map fun last => (1, some last)
    | [first, []] => (nat? first).map fun first => (first, none)
    | [first, last] => do return (← nat? first, some (← nat? last))
    | _ => none

/-- Whether a place is in one of the ranges. -/
def inRanges (ranges : List (Nat × Option Nat)) (n : Nat) : Bool :=
  ranges.any fun r => r.1 ≤ n && r.2.all (n ≤ ·)

/-- The items whose places, counted from one, are in one of the ranges. -/
def pick {α : Type} (ranges : List (Nat × Option Nat)) (items : List α) : List α :=
  (items.zipIdx.filter fun i => inRanges ranges (i.2 + 1)).map Prod.fst

/-- The value of an option that takes one, in the same argument or in the next. -/
def optionValue? (letter : UInt8) : List Bytes → Option Bytes
  | [] => none
  | a :: rest =>
    if a == [45, letter] then rest.head?
    else if [45, letter].isPrefixOf a then some (a.drop 2)
    else optionValue? letter rest

/-- Parts of its lines: bytes, or fields between delimiters. -/
def cut (args : List Bytes) (input : Bytes) : Produced :=
  let delimiter := ((optionValue? 100 args).bind List.head?).getD 9
  let fields (ranges : List (Nat × Option Nat)) (l : Bytes) : Bytes :=
    if l.contains delimiter then [delimiter].intercalate (pick ranges (l.splitOn delimiter)) else l
  match (optionValue? 102 args).bind ranges?, (optionValue? 99 args).bind ranges? with
  | some ranges, _ => { output := unlines ((lines input).map (fields ranges)) }
  | none, some ranges => { output := unlines ((lines input).map (pick ranges)) }
  | none, none => failed 1 "cut: you must specify a list of bytes, characters, or fields"

/-- Bytes with a part replaced where it occurs, once or every time. -/
def replaced (part replacement : Bytes) (every : Bool) : Nat → Bytes → Bytes
  | 0, bs => bs
  | _, [] => []
  | fuel + 1, b :: rest =>
    if !part.isEmpty && part.isPrefixOf (b :: rest) then
      let after := (b :: rest).drop part.length
      replacement ++ (if every then replaced part replacement every fuel after else after)
    else b :: replaced part replacement every fuel rest

/-- Its lines with text replaced that is given as `s/text/replacement/`. -/
def substitute (args : List Bytes) (input : Bytes) : Produced :=
  match operands args with
  | (115 :: delimiter :: rest) :: _ =>
    match rest.splitOn delimiter with
    | [part, replacement, flags] =>
      let every := flags.contains 103
      { output := unlines ((lines input).map fun l =>
          replaced part replacement every (l.length + 1) l) }
    | _ => failed 1 "sed: unterminated s command"
  | _ => failed 1 "sed: unknown command"

/-- The value of an operation on two integers. -/
def calculate (args : List Bytes) : Produced :=
  match args with
  | [a, operator, b] =>
    match int? a, int? b with
    | some x, some y =>
      match Arithmetic.apply (Text.decodeLossy operator) x y with
      | .ok n => { output := line (Number.intText n), status := if n == 0 then 1 else 0 }
      | .error e => failed 2 ("expr: " ++ e.message)
    | _, _ => failed 2 "expr: non-integer argument"
  | _ => failed 2 "expr: syntax error"

/-- Its arguments on a line, again and again. -/
def repeated (args : List Bytes) : Bytes :=
  let text := (if args.isEmpty then [121] else joined args) ++ [10]
  (List.replicate (endlessLength / 16 / text.length + 1) text).flatten

/-! ## Filters that take a file -/

/-- The first part of a file. -/
def beginning : FileFilter where
  run := first
  valued := [99, 110]
  complaint := ("head: cannot open '", "' for reading")

/-- The last part of a file. -/
def ending : FileFilter where
  run := last
  valued := [99, 110]
  complaint := ("tail: cannot open '", "' for reading")

/-- The lines of a file that hold a text. -/
def searching : FileFilter where
  run := search
  own := 1
  complaint := ("grep: ", "")
  status := 2

/-- The lines of a file in order. -/
def sorting : FileFilter where
  run := sort
  valued := [107, 116]
  complaint := ("sort: cannot read: ", "")
  status := 2

/-- The lines of a file without repetitions. -/
def merging : FileFilter where
  run := fun _ => distinct
  complaint := ("uniq: ", "")

/-- The lines of a file, each from its end. -/
def reversing : FileFilter where
  run := fun _ input => { output := unlines ((lines input).map List.reverse) }
  complaint := ("rev: cannot open ", "")

/-- Parts of the lines of a file. -/
def cutting : FileFilter where
  run := cut
  valued := [98, 99, 100, 102]
  complaint := ("cut: ", "")

/-- The lines of a file with text replaced. -/
def substituting : FileFilter where
  run := substitute
  own := 1
  complaint := ("sed: can't read ", "")
  status := 2

end Utility

/-- The utility of a name, which may read files. -/
def utility? (files : Files) (name : String) : Option (List Bytes → Bytes → Produced) :=
  match name with
  | ":" | "true" => some fun _ _ => {}
  | "false" => some fun _ _ => { status := 1 }
  | "echo" => some fun args _ => Utility.echo args
  | "printf" => some fun args _ => Utility.printf args
  | "cat" => some (Utility.concatenate files)
  | "tee" => some fun _ input => { output := input }
  | "sort" => some (Utility.sorting.apply files)
  | "uniq" => some (Utility.merging.apply files)
  | "rev" => some (Utility.reversing.apply files)
  | "cut" => some (Utility.cutting.apply files)
  | "sed" => some (Utility.substituting.apply files)
  | "expr" => some fun args _ => Utility.calculate args
  | "tr" => some Utility.translate
  | "head" => some (Utility.beginning.apply files)
  | "tail" => some (Utility.ending.apply files)
  | "wc" => some (Utility.countIn files)
  | "seq" => some fun args _ => Utility.sequence args
  | "grep" => some (Utility.searching.apply files)
  | "ls" => some fun args _ => Utility.list files args
  | "basename" => some fun args _ => { output := Utility.lastName (args.headD []) ++ [10] }
  | "dirname" => some fun args _ => { output := Utility.withoutLastName (args.headD []) ++ [10] }
  | "yes" => some fun args _ => { output := Utility.repeated args }
  | "sleep" => some fun _ _ => {}
  | _ => none

end SqlMetrics.Shell
