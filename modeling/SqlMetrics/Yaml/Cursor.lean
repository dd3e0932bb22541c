/-!
# Places in a YAML text

The classes of characters that YAML tells apart, and a cursor: the characters that are left, and how
many characters, lines and columns lie before them.  A line ends with a carriage return, a line
feed, both in this order, a next-line character or one of the two Unicode separators.
-/

namespace SqlMetrics.Yaml

/-- Whether a character may stand in a YAML text at all. -/
def isAllowed (c : Char) : Bool :=
  let n := c.toNat
  n == 0x09 || n == 0x0A || n == 0x0D || (0x20 ≤ n && n ≤ 0x7E) || n == 0x85 ||
    (0xA0 ≤ n && n ≤ 0xD7FF) || (0xE000 ≤ n && n ≤ 0xFFFD) || 0x10000 ≤ n

/-- Whether a character ends a line. -/
def isBreak (c : Char) : Bool :=
  let n := c.toNat
  n == 0x0D || n == 0x0A || n == 0x85 || n == 0x2028 || n == 0x2029

/-- Whether a character is a blank within a line. -/
def isBlank (c : Char) : Bool :=
  c == ' ' || c == '\t'

/-- Whether a character may stand in the name of an anchor, a tag handle or a directive. -/
def isWordChar (c : Char) : Bool :=
  c.isAlphanum || c == '_' || c == '-'

/-- Whether a text starts with white space or is at its end. -/
def startsBlank : List Char → Bool
  | [] => true
  | c :: _ => isBlank c || isBreak c

/-- Whether a text starts with a line end or is at its end. -/
def startsBreak : List Char → Bool
  | [] => true
  | c :: _ => isBreak c

/-- A place in a text. -/
structure Cursor where
  rest : List Char
  index : Nat := 0
  line : Nat := 0
  column : Nat := 0
deriving DecidableEq, Repr

namespace Cursor

/-- The cursor after one character that ends no line. -/
def skip (c : Cursor) : Cursor :=
  { c with rest := c.rest.drop 1, index := c.index + 1, column := c.column + 1 }

/-- The cursor after so many characters that end no line. -/
def skipMany (c : Cursor) (n : Nat) : Cursor :=
  { c with rest := c.rest.drop n, index := c.index + n, column := c.column + n }

/-- The characters up to the first one that does not belong, and the cursor after them.  None of the
characters may end a line. -/
def takeWhile (c : Cursor) (belongs : Char → Bool) : List Char × Cursor :=
  let taken := c.rest.takeWhile belongs
  (taken, c.skipMany taken.length)

/-- The cursor after the characters that belong. -/
def skipWhile (c : Cursor) (belongs : Char → Bool) : Cursor :=
  (c.takeWhile belongs).2

/-- The line end at the cursor as it counts in a text, and the cursor after it.  The two Unicode
separators count as themselves, and every other line end as a line feed. -/
def takeBreak (c : Cursor) : List Char × Cursor :=
  let next (n : Nat) : Cursor :=
    { rest := c.rest.drop n, index := c.index + n, line := c.line + 1, column := 0 }
  match c.rest with
  | '\r' :: '\n' :: _ => (['\n'], next 2)
  | b :: _ =>
    if b.toNat == 0x2028 || b.toNat == 0x2029 then ([b], next 1)
    else if isBreak b then (['\n'], next 1)
    else ([], c)
  | [] => ([], c)

/-- Whether a document indicator stands at the cursor. -/
def atDocumentIndicator (c : Cursor) : Bool :=
  c.column == 0 &&
    match c.rest with
    | '-' :: '-' :: '-' :: rest | '.' :: '.' :: '.' :: rest => startsBlank rest
    | _ => false

end Cursor

end SqlMetrics.Yaml
