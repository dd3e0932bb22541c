import SqlMetrics.Yaml.Token

/-!
# Scalars of YAML

How scalars are read: quoted ones with their escapes, plain ones that may go on over several lines,
and block scalars with their indentation.  Lines of one scalar are folded: a single line end counts
as a blank, and of several the first one is dropped.
-/

namespace SqlMetrics.Yaml

/-- White space between two parts of a scalar: the blanks before the first line end, the first line
end and the others. -/
structure Gap where
  blanks : List Char := []
  first : List Char := []
  others : List Char := []
  /-- Whether a line has ended. -/
  broken : Bool := false
deriving DecidableEq, Repr

namespace Gap

/-- What a gap counts as in the text of the scalar. -/
def folded (g : Gap) : List Char :=
  if !g.broken then g.blanks
  else if g.first == ['\n'] then (if g.others.isEmpty then [' '] else g.others)
  else g.first ++ g.others

/-- The gap with one more line end. -/
def pushBreak (g : Gap) (b : List Char) : Gap :=
  if g.broken then { g with others := g.others ++ b }
  else { g with blanks := [], first := b, broken := true }

/-- The gap with one more blank. -/
def pushBlank (g : Gap) (c : Char) : Gap :=
  if g.broken then g else { g with blanks := g.blanks ++ [c] }

end Gap

/-- Reads the white space at the cursor into a gap.  `tabsFrom` is the column from which on tabs may
stand after a line end, where that matters; `fuel` bounds the number of characters. -/
def scanGap (tabsFrom : Option Int) : Nat → Cursor → Gap → Except YamlError (Gap × Cursor)
  | 0, c, g => .ok (g, c)
  | fuel + 1, c, g =>
    match c.rest with
    | [] => .ok (g, c)
    | ch :: _ =>
      if isBlank ch then
        if g.broken && ch == '\t' && tabsFrom.any fun (least : Int) => (c.column : Int) < least then
          .error .badPlainScalar
        else scanGap tabsFrom fuel c.skip (g.pushBlank ch)
      else if isBreak ch then
        let (b, c) := c.takeBreak
        scanGap tabsFrom fuel c (g.pushBreak b)
      else .ok (g, c)

/-! ## Quoted scalars -/

/-- The value of a digit in base sixteen. -/
def hexValue? (c : Char) : Option Nat :=
  if c.isDigit then some (c.toNat - 48)
  else if 'a' ≤ c && c ≤ 'f' then some (c.toNat - 87)
  else if 'A' ≤ c && c ≤ 'F' then some (c.toNat - 55)
  else none

/-- The number that so many digits in base sixteen spell. -/
def hexNumber? (count : Nat) (cs : List Char) : Option Nat :=
  if cs.length < count then none
  else (cs.take count).foldl (fun n? c => n?.bind fun n => (hexValue? c).map (16 * n + ·)) (some 0)

/-- What an escape by one letter stands for. -/
def letterEscape? (c : Char) : Option Char :=
  match c with
  | '0' => some (Char.ofNat 0)
  | 'a' => some (Char.ofNat 7)
  | 'b' => some (Char.ofNat 8)
  | 't' | '\t' => some '\t'
  | 'n' => some '\n'
  | 'v' => some (Char.ofNat 11)
  | 'f' => some (Char.ofNat 12)
  | 'r' => some '\r'
  | 'e' => some (Char.ofNat 27)
  | ' ' => some ' '
  | '"' => some '"'
  | '/' => some '/'
  | '\\' => some '\\'
  | 'N' => some (Char.ofNat 0x85)
  | '_' => some (Char.ofNat 0xA0)
  | 'L' => some (Char.ofNat 0x2028)
  | 'P' => some (Char.ofNat 0x2029)
  | _ => none

/-- How many digits follow the letter of an escape by code point. -/
def codeLength? (c : Char) : Option Nat :=
  match c with
  | 'x' => some 2
  | 'u' => some 4
  | 'U' => some 8
  | _ => none

/-- Reads an escape after its backslash: the character, and how many characters it takes. -/
def escape? (cs : List Char) : Option (Char × Nat) :=
  match cs with
  | [] => none
  | c :: rest =>
    match codeLength? c with
    | some count =>
      (hexNumber? count rest).bind fun n =>
        if (0xD800 ≤ n && n ≤ 0xDFFF) || 0x10FFFF < n then none
        else some (Char.ofNat n, count + 1)
    | none => (letterEscape? c).map (·, 1)

/-- Reads a quoted scalar after its opening quote, up to and with the closing one. -/
def scanQuoted (single : Bool) : Nat → Cursor → List Char → Except YamlError (List Char × Cursor)
  | 0, _, _ => .error .unterminatedScalar
  | fuel + 1, c, text =>
    if c.atDocumentIndicator then .error .unterminatedScalar
    else
      match c.rest with
      | [] => .error .unterminatedScalar
      | ch :: rest =>
        if isBlank ch || isBreak ch then
          match scanGap none c.rest.length c {} with
          | .error e => .error e
          | .ok (g, c) => scanQuoted single fuel c (text ++ g.folded)
        else if single then
          if ch == '\'' then
            if rest.head? == some '\'' then scanQuoted single fuel (c.skipMany 2) (text ++ ['\''])
            else .ok (text, c.skip)
          else scanQuoted single fuel c.skip (text ++ [ch])
        else if ch == '"' then .ok (text, c.skip)
        else if ch == '\\' then
          if rest.head?.any isBreak then
            -- An escaped line end counts for nothing, and so do the blanks of the next line.
            let (_, c) := c.skip.takeBreak
            match scanGap none c.rest.length c { broken := true } with
            | .error e => .error e
            | .ok (g, c) => scanQuoted single fuel c (text ++ g.folded)
          else
            match escape? rest with
            | some (e, n) => scanQuoted single fuel (c.skipMany (n + 1)) (text ++ [e])
            | none => .error .badEscape
        else scanQuoted single fuel c.skip (text ++ [ch])

/-! ## Plain scalars -/

/-- Whether a plain scalar ends at the head of a text that starts with no white space. -/
def endsPlain (inFlow : Bool) (cs : List Char) : Bool :=
  match cs with
  | ':' :: rest => startsBlank rest
  | c :: _ => inFlow && (c == ',' || c == '[' || c == ']' || c == '\x7b' || c == '\x7d')
  | [] => true

/-- Whether a colon stands where it can neither end a plain scalar nor belong to it. -/
def badColon (inFlow : Bool) (cs : List Char) : Bool :=
  match cs with
  | ':' :: c :: _ =>
    inFlow && (c == ',' || c == '?' || c == '[' || c == ']' || c == '\x7b' || c == '\x7d')
  | _ => false

/-- The characters of a plain scalar up to white space or its end. -/
def scanPlainRun (inFlow : Bool) : Nat → Cursor → List Char → Except YamlError (List Char × Cursor)
  | 0, c, run => .ok (run, c)
  | fuel + 1, c, run =>
    match c.rest with
    | [] => .ok (run, c)
    | ch :: _ =>
      if isBlank ch || isBreak ch then .ok (run, c)
      else if badColon inFlow c.rest then .error .badPlainScalar
      else if endsPlain inFlow c.rest then .ok (run, c)
      else scanPlainRun inFlow fuel c.skip (run ++ [ch])

/-- A plain scalar that has been read. -/
structure PlainScan where
  text : List Char
  cursor : Cursor
  /-- Whether a line has ended after the last character of the scalar. -/
  brokenAfter : Bool

/-- Reads a plain scalar.  In block context it goes on over the next lines as long as these are
indented to the column `least`. -/
def scanPlain (inFlow : Bool) (least : Int) :
    Nat → Cursor → List Char → Gap → Except YamlError PlainScan
  | 0, c, text, g => .ok ⟨text, c, g.broken⟩
  | fuel + 1, c, text, g =>
    if c.atDocumentIndicator || c.rest.head? == some '#' then .ok ⟨text, c, g.broken⟩
    else
      match scanPlainRun inFlow c.rest.length c [] with
      | .error e => .error e
      | .ok (run, c) =>
        -- The gap before the run is text only now that something follows it.
        let (text, g) := if run.isEmpty then (text, g) else (text ++ g.folded ++ run, {})
        match c.rest with
        | [] => .ok ⟨text, c, g.broken⟩
        | ch :: _ =>
          if !(isBlank ch || isBreak ch) then .ok ⟨text, c, g.broken⟩
          else
            match scanGap (some least) c.rest.length c g with
            | .error e => .error e
            | .ok (g, c) =>
              if !inFlow && (c.column : Int) < least then .ok ⟨text, c, g.broken⟩
              else scanPlain inFlow least fuel c text g

/-! ## Block scalars -/

/-- What happens to the line ends after a block scalar. -/
inductive Chomping where
  | strip
  | clip
  | keep
deriving DecidableEq, Repr

/-- The header of a block scalar: the chomping and the indentation that it states. -/
structure BlockHeader where
  chomping : Chomping := .clip
  increment : Option Nat := none
deriving DecidableEq, Repr

/-- The chomping that a character states. -/
def chomping? (c : Char) : Option Chomping :=
  if c == '+' then some .keep else if c == '-' then some .strip else none

/-- Reads the indicators of a header, in either order. -/
def scanBlockHeader (c : Cursor) : Except YamlError (BlockHeader × Cursor) :=
  match c.rest with
  | a :: rest =>
    match chomping? a with
    | some chomping =>
      match rest with
      | d :: _ =>
        if d == '0' then .error .badBlockScalar
        else if d.isDigit then .ok (⟨chomping, some (d.toNat - 48)⟩, c.skipMany 2)
        else .ok (⟨chomping, none⟩, c.skip)
      | [] => .ok (⟨chomping, none⟩, c.skip)
    | none =>
      if a == '0' then .error .badBlockScalar
      else if a.isDigit then
        match rest.head?.bind chomping? with
        | some chomping => .ok (⟨chomping, some (a.toNat - 48)⟩, c.skipMany 2)
        | none => .ok (⟨.clip, some (a.toNat - 48)⟩, c.skip)
      else .ok ({}, c)
  | [] => .ok ({}, c)

/-- Goes on to the next line, over blanks and a comment. -/
def skipRestOfLine (c : Cursor) : Option Cursor :=
  let c := c.skipWhile isBlank
  let c := if c.rest.head? == some '#' then c.skipWhile fun ch => !isBreak ch else c
  if startsBreak c.rest then some c.takeBreak.2 else none

/-- Reads empty lines and the indentation of the next line.  `indent` is the indentation if it is
known; the last number is the greatest column reached. -/
def scanBlockBreaks (indent : Option Nat) :
    Nat → Cursor → List Char → Nat → Except YamlError (List Char × Cursor × Nat)
  | 0, c, breaks, most => .ok (breaks, c, most)
  | fuel + 1, c, breaks, most =>
    let spaces := (c.rest.takeWhile (· == ' ')).length
    let c := c.skipMany (match indent with
      | some n => min spaces (n - c.column)
      | none => spaces)
    let most := max most c.column
    let isIndenting := indent.all fun n => c.column < n
    if isIndenting && c.rest.head? == some '\t' then .error .badBlockScalar
    else if c.rest.head?.any isBreak then
      let (b, c) := c.takeBreak
      scanBlockBreaks indent fuel c (breaks ++ b) most
    else .ok (breaks, c, most)

/-- What has been read of a block scalar. -/
structure BlockScan where
  text : List Char := []
  cursor : Cursor
  /-- The line end after the last line. -/
  lineEnd : List Char := []
  /-- The empty lines after it. -/
  breaks : List Char
  /-- Whether the last line started with a blank. -/
  blankLed : Bool := false

/-- Reads the lines of a block scalar. -/
def scanBlockLines (literal : Bool) (indent : Nat) : Nat → BlockScan → Except YamlError BlockScan
  | 0, s => .ok s
  | fuel + 1, s =>
    let c := s.cursor
    if c.column != indent || c.rest.isEmpty then .ok s
    else
      -- A line end is folded only between two lines neither of which is indented further.
      let blank := c.rest.head?.any isBlank
      let folds := !literal && s.lineEnd == ['\n'] && !s.blankLed && !blank
      let between := if folds then (if s.breaks.isEmpty then [' '] else []) else s.lineEnd
      let (line, c) := c.takeWhile fun ch => !isBreak ch
      let (lineEnd, c) := c.takeBreak
      match scanBlockBreaks (some indent) (c.rest.length + 1) c [] 0 with
      | .error e => .error e
      | .ok (breaks, c, _) =>
        scanBlockLines literal indent fuel
          ⟨s.text ++ between ++ s.breaks ++ line, c, lineEnd, breaks, blank⟩

/-- Reads a block scalar after its indicator, below a block of the given indentation. -/
def scanBlock (literal : Bool) (parent : Int) (c : Cursor) :
    Except YamlError (List Char × Cursor) := do
  let (header, c) ← scanBlockHeader c
  match skipRestOfLine c with
  | none => throw .badBlockScalar
  | some c =>
    -- An indentation that is not stated is that of the first line with something on it.
    let stated := header.increment.map fun n => (if 0 ≤ parent then parent + n else n).toNat
    let (breaks, c, most) ← scanBlockBreaks stated (c.rest.length + 1) c [] 0
    let indent := stated.getD (max most (max (parent + 1).toNat 1))
    let s ← scanBlockLines literal indent (c.rest.length + 1) { cursor := c, breaks := breaks }
    let tail :=
      match header.chomping with
      | .strip => []
      | .clip => s.lineEnd
      | .keep => s.lineEnd ++ s.breaks
    return (s.text ++ tail, s.cursor)

end SqlMetrics.Yaml
