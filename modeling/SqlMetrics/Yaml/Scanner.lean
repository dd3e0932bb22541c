import SqlMetrics.Yaml.Scalar
import SqlMetrics.Text.Utf8

/-!
# From YAML text to tokens

The scanner walks through a text once.  It keeps the column to which the current block is indented,
and for each open flow collection, and for the block around them, the place where a key may have
begun: that something is a key shows only at the colon after it, and then the token for the key is
put in before it.  A key written without a question mark has to stand on one line and within 1024
characters of its colon.
-/

namespace SqlMetrics.Yaml

/-- A place where a key may have begun. -/
structure SimpleKey where
  /-- Whether a colon has to follow. -/
  required : Bool
  /-- How many tokens come before. -/
  position : Nat
  index : Nat
  line : Nat
  column : Nat
deriving DecidableEq, Repr

/-- How far the scanner has come. -/
structure Scanner where
  cursor : Cursor
  /-- The tokens so far, the last one first, and their number. -/
  tokens : List Token := []
  count : Nat := 0
  indent : Int := -1
  /-- The indentations of the blocks around. -/
  outer : List Int := []
  /-- The places where keys may have begun: the innermost flow collection first, the block last. -/
  keys : List (Option SimpleKey) := [none]
  keyAllowed : Bool := true
deriving Repr

namespace Scanner

/-- Whether the scanner is inside a flow collection. -/
def inFlow (s : Scanner) : Bool :=
  1 < s.keys.length

/-- Adds a token. -/
def push (s : Scanner) (t : Token) : Scanner :=
  { s with tokens := t :: s.tokens, count := s.count + 1 }

/-- Puts a token in after so many others. -/
def insertAt (s : Scanner) (position : Nat) (t : Token) : Scanner :=
  let later := s.count - position
  { s with tokens := s.tokens.take later ++ t :: s.tokens.drop later, count := s.count + 1 }

/-- The scanner at another place. -/
def at' (s : Scanner) (c : Cursor) : Scanner :=
  { s with cursor := c }

/-- Starts a block at a column that is deeper than the current one.  The token goes to the given
place, or to the end. -/
def roll (s : Scanner) (column : Nat) (position : Option Nat) (t : Token) : Scanner :=
  if s.inFlow || (column : Int) ≤ s.indent then s
  else
    let s := { s with outer := s.indent :: s.outer, indent := column }
    match position with
    | some p => s.insertAt p t
    | none => s.push t

/-- Ends the blocks that are deeper than a column. -/
def unrollBy (column : Int) : List Int → Scanner → Scanner
  | [], s => s
  | o :: rest, s =>
    if column < s.indent then
      unrollBy column rest { s.push .blockEnd with indent := o, outer := rest }
    else s

/-- Ends the blocks that are deeper than a column. -/
def unroll (s : Scanner) (column : Int) : Scanner :=
  if s.inFlow then s else unrollBy column s.outer s

/-- Gives up the place where a key may have begun in the innermost collection. -/
def dropKey (s : Scanner) : Except YamlError Scanner :=
  match s.keys with
  | some k :: rest =>
    if k.required then .error .missingColon else .ok { s with keys := none :: rest }
  | _ => .ok s

/-- Notes that a key may begin here. -/
def saveKey (s : Scanner) : Except YamlError Scanner :=
  if !s.keyAllowed then .ok s
  else
    let c := s.cursor
    -- At the column of the block itself nothing but its next key can stand.
    let required := !s.inFlow && s.indent == (c.column : Int)
    let key : SimpleKey := ⟨required, s.count, c.index, c.line, c.column⟩
    s.dropKey.map fun s => { s with keys := some key :: s.keys.drop 1 }

/-- How many characters a key may lie before its colon. -/
def keyReach : Nat := 1024

/-- Gives up the places where keys may have begun that are too far behind. -/
def dropStaleKeys (s : Scanner) : Except YamlError Scanner :=
  let isStale (k : SimpleKey) : Bool :=
    k.line < s.cursor.line || k.index + keyReach < s.cursor.index
  if s.keys.any fun key => key.any fun k => isStale k && k.required then .error .missingColon
  else .ok { s with keys := s.keys.map fun key => key.filter fun k => !isStale k }

/-- Goes on to the next token, over white space, line ends and comments.  In block context a tab may
not stand where a key may begin. -/
def toNextToken : Nat → Scanner → Scanner
  | 0, s => s
  | fuel + 1, s =>
    let c := s.cursor
    -- A byte order mark may stand at the start of any line.
    let c := if c.column == 0 && c.rest.head?.any fun ch => ch.toNat == 0xFEFF then c.skip else c
    let c := c.skipWhile fun ch => ch == ' ' || ((s.inFlow || !s.keyAllowed) && ch == '\t')
    let c := if c.rest.head? == some '#' then c.skipWhile fun ch => !isBreak ch else c
    if c.rest.head?.any isBreak then
      toNextToken fuel { s with cursor := c.takeBreak.2, keyAllowed := s.keyAllowed || !s.inFlow }
    else s.at' c

/-! ## Directives, anchors and tags -/

/-- A number of a version directive. -/
def versionNumber? (c : Cursor) : Option (Nat × Cursor) :=
  let (digits, c) := c.takeWhile Char.isDigit
  if digits.isEmpty || 9 < digits.length then none
  else some (digits.foldl (fun n d => 10 * n + (d.toNat - 48)) 0, c)

/-- Reads the handle of a tag, with its exclamation marks.  In a directive it has to end
with one. -/
def tagHandle? (directive : Bool) (c : Cursor) : Option (List Char × Cursor) :=
  if c.rest.head? != some '!' then none
  else
    let (name, c) := c.skip.takeWhile isWordChar
    if c.rest.head? == some '!' then some ('!' :: name ++ ['!'], c.skip)
    else if directive && !name.isEmpty then none
    else some ('!' :: name, c)

/-- Whether a character may stand in the suffix of a tag; `verbatim` allows for more of them. -/
def isTagChar (verbatim : Bool) (c : Char) : Bool :=
  isWordChar c || ";/?:@&=+$.%!~*'()".toList.contains c ||
    (verbatim && (c == ',' || c == '[' || c == ']'))

/-- The byte of an escape in a tag. -/
def escapedByte? : List Char → Option (UInt8 × List Char)
  | '%' :: a :: b :: rest =>
    match hexValue? a, hexValue? b with
    | some x, some y => some (UInt8.ofNat (16 * x + y), rest)
    | _, _ => none
  | _ => none

/-- The bytes of a tag suffix with its escapes replaced. -/
def unescapeTag : Nat → List Char → Option Bytes
  | 0, _ => none
  | _, [] => some []
  | fuel + 1, c :: rest =>
    if c == '%' then
      (escapedByte? (c :: rest)).bind fun r => (unescapeTag fuel r.2).map (r.1 :: ·)
    else (unescapeTag fuel rest).map (String.utf8EncodeChar c ++ ·)

/-- Reads the suffix of a tag. -/
def tagSuffix? (verbatim : Bool) (c : Cursor) : Option (String × Cursor) :=
  let (cs, c) := c.takeWhile (isTagChar verbatim)
  (unescapeTag (cs.length + 1) cs).bind fun bytes =>
    (Text.decode bytes).toOption.map fun text => (text, c)

/-- Reads a tag. -/
def scanTag (c : Cursor) : Option (TagToken × Cursor) :=
  match c.rest with
  | '!' :: '<' :: _ =>
    (tagSuffix? true (c.skipMany 2)).bind fun r =>
      if r.1.isEmpty || r.2.rest.head? != some '>' then none else some (⟨"", r.1⟩, r.2.skip)
  | _ =>
    (tagHandle? false c).bind fun h =>
      -- Without a second exclamation mark, what looked like a handle is the start of the suffix.
      let isHandle := 1 < h.1.length && h.1.getLast? == some '!'
      (tagSuffix? false h.2).bind fun r =>
        if isHandle then
          if r.1.isEmpty then none else some (⟨String.ofList h.1, r.1⟩, r.2)
        else
          let suffix := String.ofList (h.1.drop 1) ++ r.1
          some (if suffix.isEmpty then ⟨"", "!"⟩ else ⟨"!", suffix⟩, r.2)

/-- Reads a directive after the percent sign. -/
def scanDirective (c : Cursor) : Option (Token × Cursor) :=
  let (name, c) := c.takeWhile isWordChar
  if name.isEmpty || !startsBlank c.rest then none
  else
    let value : Option (Token × Cursor) :=
      match String.ofList name with
      | "YAML" =>
        (versionNumber? (c.skipWhile isBlank)).bind fun major =>
          if major.2.rest.head? != some '.' then none
          else (versionNumber? major.2.skip).map fun minor => (.version major.1 minor.1, minor.2)
      | "TAG" =>
        (tagHandle? true (c.skipWhile isBlank)).bind fun h =>
          if !h.2.rest.head?.any isBlank then none
          else
            (tagSuffix? true (h.2.skipWhile isBlank)).bind fun p =>
              if p.1.isEmpty || !startsBlank p.2.rest then none
              else some (.tagDirective (String.ofList h.1) p.1, p.2)
      | _ => none
    value.bind fun v => (skipRestOfLine v.2).map fun c => (v.1, c)

/-- Whether the name of an anchor may end at the head of a text. -/
def endsAnchor (cs : List Char) : Bool :=
  startsBlank cs || cs.head?.any fun c => "?:,]\x7d%@\x60".toList.contains c

/-! ## Tokens -/

/-- Adds a token that may be, or begin, a key. -/
def scanContent (s : Scanner) (t : Token) (c : Cursor) : Except YamlError Scanner :=
  s.saveKey.map fun s => { s.push t with cursor := c, keyAllowed := false }

/-- Adds a token before which all blocks end. -/
def scanAtMargin (s : Scanner) (t : Token) (c : Cursor) : Except YamlError Scanner :=
  (s.unroll (-1)).dropKey.map fun s => { s.push t with cursor := c, keyAllowed := false }

/-- Adds the start of a flow collection. -/
def scanFlowStart (s : Scanner) (t : Token) : Except YamlError Scanner :=
  s.saveKey.map fun s =>
    { s.push t with keys := none :: s.keys, cursor := s.cursor.skip, keyAllowed := true }

/-- Adds the end of a flow collection. -/
def scanFlowEnd (s : Scanner) (t : Token) : Except YamlError Scanner :=
  s.dropKey.map fun s =>
    { s.push t with
      keys := if s.inFlow then s.keys.drop 1 else s.keys
      cursor := s.cursor.skip
      keyAllowed := false }

/-- Adds a comma between entries of a flow collection. -/
def scanFlowEntry (s : Scanner) : Except YamlError Scanner :=
  s.dropKey.map fun s => { s.push .flowEntry with cursor := s.cursor.skip, keyAllowed := true }

/-- Adds a dash before an entry of a block sequence. -/
def scanBlockEntry (s : Scanner) : Except YamlError Scanner :=
  if !s.inFlow && !s.keyAllowed then .error .notAllowedHere
  else
    (s.roll s.cursor.column none .blockSequenceStart).dropKey.map fun s =>
      { s.push .blockEntry with cursor := s.cursor.skip, keyAllowed := true }

/-- Adds a question mark before a key. -/
def scanKey (s : Scanner) : Except YamlError Scanner :=
  if !s.inFlow && !s.keyAllowed then .error .notAllowedHere
  else
    (s.roll s.cursor.column none .blockMappingStart).dropKey.map fun s =>
      { s.push .key with cursor := s.cursor.skip, keyAllowed := !s.inFlow }

/-- Adds a colon before a value, and before that the key, if one may have begun. -/
def scanValue (s : Scanner) : Except YamlError Scanner :=
  match s.keys with
  | some k :: rest =>
    -- The key has its tokens already, so the ones that announce it go in before them.
    let s := { s with keys := none :: rest }
    let s := s.insertAt k.position .key
    let s := s.roll k.column (some k.position) .blockMappingStart
    .ok { s.push .value with cursor := s.cursor.skip, keyAllowed := false }
  | _ =>
    -- The key was written with a question mark, or there is none.
    if !s.inFlow && !s.keyAllowed then .error .notAllowedHere
    else
      let s := s.roll s.cursor.column none .blockMappingStart
      .ok { s.push .value with cursor := s.cursor.skip, keyAllowed := !s.inFlow }

/-- Adds an anchor or an alias. -/
def scanAnchor (s : Scanner) (t : String → Token) : Except YamlError Scanner :=
  let (name, c) := s.cursor.skip.takeWhile isWordChar
  if name.isEmpty || !endsAnchor c.rest then .error .badAnchor
  else s.scanContent (t (String.ofList name)) c

/-- Adds a tag. -/
def scanTagToken (s : Scanner) : Except YamlError Scanner :=
  match scanTag s.cursor with
  | none => .error .badTag
  | some (t, c) =>
    if startsBlank c.rest || (s.inFlow && c.rest.head? == some ',') then s.scanContent (.tag t) c
    else .error .badTag

/-- Adds a block scalar. -/
def scanBlockScalar (s : Scanner) (literal : Bool) : Except YamlError Scanner := do
  let s ← s.dropKey
  let (text, c) ← scanBlock literal s.indent s.cursor.skip
  let style := if literal then ScalarStyle.literal else .folded
  return { s.push (.scalar style (String.ofList text)) with cursor := c, keyAllowed := true }

/-- Adds a quoted scalar. -/
def scanQuotedScalar (s : Scanner) (single : Bool) : Except YamlError Scanner := do
  let c := s.cursor.skip
  let (text, c) ← scanQuoted single (c.rest.length + 1) c []
  let style := if single then ScalarStyle.singleQuoted else .doubleQuoted
  s.scanContent (.scalar style (String.ofList text)) c

/-- Adds a plain scalar.  A key may begin after it if a line has ended. -/
def scanPlainScalar (s : Scanner) : Except YamlError Scanner := do
  let c := s.cursor
  let p ← scanPlain s.inFlow (s.indent + 1) (c.rest.length + 1) c [] {}
  let s ← s.scanContent (.scalar .plain (String.ofList p.text)) p.cursor
  return { s with keyAllowed := p.brokenAfter }

/-- The characters that start no plain scalar. -/
def indicators : List Char :=
  "-?:,[]\x7b\x7d#&*!|>'\"%@\x60".toList

/-- Whether a plain scalar starts at the head of a text. -/
def startsPlain (inFlow : Bool) (cs : List Char) : Bool :=
  match cs with
  | [] => false
  | c :: rest =>
    !(startsBlank cs || indicators.contains c) || (c == '-' && !rest.head?.any isBlank) ||
      (!inFlow && (c == '?' || c == ':') && !startsBlank rest)

/-- Adds the next token.  The cursor stands at it. -/
def scanToken (s : Scanner) : Except YamlError Scanner :=
  let c := s.cursor
  match c.rest with
  | [] => s.scanAtMargin .streamEnd c
  | ch :: rest =>
    if ch == '%' && c.column == 0 then
      match scanDirective c.skip with
      | some (t, c) => s.scanAtMargin t c
      | none => .error .badDirective
    else if c.atDocumentIndicator then
      s.scanAtMargin (if ch == '-' then .documentStart else .documentEnd) (c.skipMany 3)
    else if ch == '[' then s.scanFlowStart .flowSequenceStart
    else if ch == '\x7b' then s.scanFlowStart .flowMappingStart
    else if ch == ']' then s.scanFlowEnd .flowSequenceEnd
    else if ch == '\x7d' then s.scanFlowEnd .flowMappingEnd
    else if ch == ',' then s.scanFlowEntry
    else if ch == '-' && startsBlank rest then s.scanBlockEntry
    else if ch == '?' && (s.inFlow || startsBlank rest) then s.scanKey
    else if ch == ':' && (s.inFlow || startsBlank rest) then s.scanValue
    else if ch == '*' then s.scanAnchor .alias
    else if ch == '&' then s.scanAnchor .anchor
    else if ch == '!' then s.scanTagToken
    else if ch == '|' && !s.inFlow then s.scanBlockScalar true
    else if ch == '>' && !s.inFlow then s.scanBlockScalar false
    else if ch == '\'' then s.scanQuotedScalar true
    else if ch == '"' then s.scanQuotedScalar false
    else if startsPlain s.inFlow c.rest then s.scanPlainScalar
    else .error .strayCharacter

/-- Goes on to the next token and adds it. -/
def next (s : Scanner) : Except YamlError Scanner := do
  let s ← (toNextToken (s.cursor.rest.length + 1) s).dropStaleKeys
  (s.unroll s.cursor.column).scanToken

/-- Adds tokens up to the end of the text.  Every token takes at least one character. -/
def run : Nat → Scanner → Except YamlError Scanner
  | 0, _ => .error .strayCharacter
  | fuel + 1, s => do
    let s ← s.next
    if s.tokens.head? == some .streamEnd then return s else run fuel s

end Scanner

/-- The characters of a text, without a byte order mark at the start. -/
def contentChars (text : String) : List Char :=
  match text.toList with
  | c :: rest => if c.toNat == 0xFEFF then rest else c :: rest
  | [] => []

/-- The tokens of a text. -/
def tokens (text : String) : Except YamlError (List Token) :=
  let cs := contentChars text
  if !cs.all isAllowed then .error .controlCharacter
  else (Scanner.run (cs.length + 1) { cursor := { rest := cs } }).map fun s => s.tokens.reverse

end SqlMetrics.Yaml
