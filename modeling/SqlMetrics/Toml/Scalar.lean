import SqlMetrics.Number.Numeral
import SqlMetrics.Toml.Table

/-!
# TOML scalars

Reading the strings, numbers and dates of TOML.  Each reader takes the characters from its scalar on
and gives what it read and what is left.
-/

namespace SqlMetrics.Toml

open Number (Double)

/-! ## Characters -/

/-- A space or a tab. -/
def isBlank (c : Char) : Bool :=
  c == ' ' || c == '\t'

/-- A character that a comment may have. -/
def isCommentChar (c : Char) : Bool :=
  c == '\t' || 0x20 ≤ c.toNat

/-- A character that stands for itself in a basic string. -/
def isBasicChar (c : Char) : Bool :=
  c == '\t' || (0x20 ≤ c.toNat && c.toNat != 0x7F && c != '"' && c != '\\')

/-- A character that stands for itself in a literal string. -/
def isLiteralChar (c : Char) : Bool :=
  c == '\t' || (0x20 ≤ c.toNat && c.toNat != 0x7F && c != '\'')

/-- A character of a key without quotes. -/
def isBareChar (c : Char) : Bool :=
  c.isAlphanum || c == '_' || c == '-'

/-- Splits off a line break. -/
def splitBreak : List Char → Option (List Char)
  | '\n' :: rest => some rest
  | '\r' :: '\n' :: rest => some rest
  | _ => none

/-! ## Strings -/

/-- The value of a hexadecimal digit. -/
def hexValue? (c : Char) : Option Nat :=
  if c.isDigit then some (c.toNat - 48)
  else if 'a' ≤ c && c ≤ 'f' then some (c.toNat - 87)
  else if 'A' ≤ c && c ≤ 'F' then some (c.toNat - 55)
  else none

/-- The character with a hexadecimal number of so many digits, if there is such a character. -/
def codePoint? (digits : Nat) (cs : List Char) : Option Char :=
  let ds := cs.take digits
  if ds.length < digits then none
  else
    (ds.mapM hexValue?).bind fun values =>
      let n := values.foldl (fun n d => 16 * n + d) 0
      if h : n.isValidChar then some (Char.ofNatAux n h) else none

/-- The character that an escape stands for, and how many characters follow the backslash. -/
def escape? : List Char → Option (Char × Nat)
  | 'b' :: _ => some ('\x08', 1)
  | 't' :: _ => some ('\t', 1)
  | 'n' :: _ => some ('\n', 1)
  | 'f' :: _ => some ('\x0c', 1)
  | 'r' :: _ => some ('\r', 1)
  | '"' :: _ => some ('"', 1)
  | '\\' :: _ => some ('\\', 1)
  | 'u' :: rest => (codePoint? 4 rest).map fun c => (c, 5)
  | 'U' :: rest => (codePoint? 8 rest).map fun c => (c, 9)
  | _ => none

/-- What was read, and what is left. -/
abbrev Reading (α : Type) := Option (α × List Char)

/-- Puts a character before what was read. -/
def consRead (c : Char) (r : Reading (List Char)) : Reading (List Char) :=
  r.map fun (cs, rest) => (c :: cs, rest)

/-- A basic string after its opening quote. -/
def basicString : List Char → Reading (List Char)
  | [] => none
  | '"' :: rest => some ([], rest)
  | '\\' :: rest =>
    match escape? rest with
    | some (c, n) => consRead c (basicString (rest.drop n))
    | none => none
  | c :: rest => if isBasicChar c then consRead c (basicString rest) else none
termination_by cs => cs.length
decreasing_by all_goals (simp only [List.length_cons, List.length_drop]; omega)

/-- A literal string after its opening quote. -/
def literalString : List Char → Reading (List Char)
  | [] => none
  | '\'' :: rest => some ([], rest)
  | c :: rest => if isLiteralChar c then consRead c (literalString rest) else none

/-- How many blanks and line breaks stand first. -/
def blankLineLength : List Char → Nat
  | '\r' :: '\n' :: rest => blankLineLength rest + 2
  | c :: rest => if isBlank c || c == '\n' then blankLineLength rest + 1 else 0
  | [] => 0

/-- How long the break is that a backslash at the end of a line leaves out, if there is one. -/
def foldedLength? (cs : List Char) : Option Nat :=
  let blanks := (cs.takeWhile isBlank).length
  if (splitBreak (cs.drop blanks)).isSome then some (blankLineLength cs) else none

/-- Ends a string of several lines at a run of three quotes or more, of which up to two belong to
the string. -/
def closeRun (quote : Char) (run : Nat) (cs : List Char) : Reading (List Char) :=
  let inside := min (run - 3) 2
  some (List.replicate inside quote, cs.drop (inside + 3))

/-- A basic string of several lines after its opening quotes. -/
def basicLines : List Char → Reading (List Char)
  | [] => none
  | '"' :: rest =>
    let run := 1 + (rest.takeWhile (· == '"')).length
    if 3 ≤ run then closeRun '"' run ('"' :: rest) else consRead '"' (basicLines rest)
  | '\\' :: rest =>
    match foldedLength? rest with
    | some n => basicLines (rest.drop n)
    | none =>
      match escape? rest with
      | some (c, n) => consRead c (basicLines (rest.drop n))
      | none => none
  | '\r' :: '\n' :: rest => consRead '\n' (basicLines rest)
  | c :: rest => if isBasicChar c || c == '\n' then consRead c (basicLines rest) else none
termination_by cs => cs.length
decreasing_by all_goals (simp only [List.length_cons, List.length_drop]; omega)

/-- A literal string of several lines after its opening quotes. -/
def literalLines : List Char → Reading (List Char)
  | [] => none
  | '\'' :: rest =>
    let run := 1 + (rest.takeWhile (· == '\'')).length
    if 3 ≤ run then closeRun '\'' run ('\'' :: rest) else consRead '\'' (literalLines rest)
  | '\r' :: '\n' :: rest => consRead '\n' (literalLines rest)
  | c :: rest => if isLiteralChar c || c == '\n' then consRead c (literalLines rest) else none

/-- The characters without a line break at the start. -/
def dropBreak (cs : List Char) : List Char :=
  (splitBreak cs).getD cs

/-- A string of any of the four kinds. -/
def string? : List Char → Reading String
  | '"' :: '"' :: '"' :: rest => asText (basicLines (dropBreak rest))
  | '\'' :: '\'' :: '\'' :: rest => asText (literalLines (dropBreak rest))
  | '"' :: rest => asText (basicString rest)
  | '\'' :: rest => asText (literalString rest)
  | _ => none
where
  /-- What was read, as text. -/
  asText (r : Reading (List Char)) : Reading String :=
    r.map fun (cs, rest) => (String.ofList cs, rest)

/-! ## Numbers -/

/-- More digits of a number, each of which may have an underscore before it. -/
def moreDigits (isDigit : Char → Bool) : List Char → Reading (List Char)
  | '_' :: c :: rest => if isDigit c then consRead c (moreDigits isDigit rest) else none
  | c :: rest =>
    if c == '_' then none
    else if isDigit c then consRead c (moreDigits isDigit rest)
    else some ([], c :: rest)
  | [] => some ([], [])

/-- One or more digits. -/
def digits (isDigit : Char → Bool) : List Char → Reading (List Char)
  | c :: rest => if isDigit c then consRead c (moreDigits isDigit rest) else none
  | [] => none

/-- Digits of a decimal number: zero, or digits that do not start with zero. -/
def wholeDigits : List Char → Reading (List Char)
  | '0' :: rest => some (['0'], rest)
  | cs => digits Char.isDigit cs

/-- An integer that fits into 64 bits. -/
def integerOf (negative : Bool) (n : Nat) : Option Item :=
  let value := Number.signed negative n
  if Number.fitsInt64 value then some (.integer (Int64.ofInt value)) else none

/-- An integer in a base that its second character tells. -/
def basedInteger (base : Nat) (cs : List Char) : Reading Item :=
  let isDigit (c : Char) : Bool := (hexValue? c).any (· < base)
  (digits isDigit cs).bind fun (ds, rest) =>
    let n := (ds.filterMap hexValue?).foldl (fun n d => base * n + d) 0
    (integerOf false n).map fun item => (item, rest)

/-- The exponent of a decimal number. -/
def exponentPart (cs : List Char) : Reading Int :=
  let (negative, rest) := Number.splitSign cs
  (digits Char.isDigit rest).map fun (ds, rest) =>
    (Number.signed negative (Number.digitsValue ds), rest)

/-- A double; one that is too large is refused, but not one that is too small. -/
def floatOf (negative : Bool) (whole places : List Char) (exponent : Int) : Option Item :=
  let x := (⟨whole, places, exponent⟩ : Number.Numeral).toDouble negative
  if x == Double.infinity false then none else some (.float x)

/-- A decimal number after its sign. -/
def decimalNumber (negative : Bool) (cs : List Char) : Reading Item :=
  (wholeDigits cs).bind fun (whole, rest) =>
    let withExponent (places : List Char) (rest : List Char) : Reading Item :=
      (exponentPart rest).bind fun (e, rest) =>
        (floatOf negative whole places e).map fun item => (item, rest)
    match rest with
    | '.' :: rest =>
      (digits Char.isDigit rest).bind fun (places, rest) =>
        match rest with
        | 'e' :: rest => withExponent places rest
        | 'E' :: rest => withExponent places rest
        | _ => (floatOf negative whole places 0).map fun item => (item, rest)
    | 'e' :: rest => withExponent [] rest
    | 'E' :: rest => withExponent [] rest
    | _ => (integerOf negative (Number.digitsValue whole)).map fun item => (item, rest)

/-- A number. -/
def number? (cs : List Char) : Reading Item :=
  match cs with
  | '0' :: 'x' :: rest => basedInteger 16 rest
  | '0' :: 'o' :: rest => basedInteger 8 rest
  | '0' :: 'b' :: rest => basedInteger 2 rest
  | _ =>
    let (negative, rest) := Number.splitSign cs
    match rest with
    | 'i' :: 'n' :: 'f' :: rest => some (.float (Double.infinity negative), rest)
    | 'n' :: 'a' :: 'n' :: rest => some (.float Double.nan, rest)
    | _ => decimalNumber negative rest

/-! ## Dates and times -/

/-- A number of exactly so many digits between two bounds. -/
def fixedNumber (width low high : Nat) (cs : List Char) : Reading Nat :=
  let ds := cs.take width
  if ds.length == width && ds.all Char.isDigit then
    let n := Number.digitsValue ds
    if low ≤ n && n ≤ high then some (n, cs.drop width) else none
  else none

/-- Splits off a character. -/
def expect (c : Char) : List Char → Option (List Char)
  | d :: rest => if c == d then some rest else none
  | [] => none

/-- How many days a month has. -/
def daysInMonth (year month : Nat) : Nat :=
  if month == 2 then
    if (year % 4 == 0 && year % 100 != 0) || year % 400 == 0 then 29 else 28
  else if month == 4 || month == 6 || month == 9 || month == 11 then 30
  else 31

/-- Reads a date. -/
def date? (cs : List Char) : Option (List Char) := do
  let (year, cs) ← fixedNumber 4 0 9999 cs
  let (month, cs) ← fixedNumber 2 1 12 (← expect '-' cs)
  let (_, cs) ← fixedNumber 2 1 (daysInMonth year month) (← expect '-' cs)
  return cs

/-- Reads a time of day. -/
def time? (cs : List Char) : Option (List Char) := do
  let (_, cs) ← fixedNumber 2 0 23 cs
  let (_, cs) ← fixedNumber 2 0 59 (← expect ':' cs)
  let (_, cs) ← fixedNumber 2 0 60 (← expect ':' cs)
  match cs with
  | '.' :: c :: rest => if c.isDigit then return rest.dropWhile Char.isDigit else none
  | '.' :: [] => none
  | _ => return cs

/-- Reads the offset of a time zone, which may be absent. -/
def offset? (cs : List Char) : Option (List Char) :=
  let numeric (rest : List Char) : Option (List Char) := do
    let (_, rest) ← fixedNumber 2 0 23 rest
    let (_, rest) ← fixedNumber 2 0 59 (← expect ':' rest)
    return rest
  match cs with
  | 'Z' :: rest => some rest
  | 'z' :: rest => some rest
  | '+' :: rest => numeric rest
  | '-' :: rest => numeric rest
  | _ => some cs

/-- Whether a time of day starts here. -/
def startsTime (cs : List Char) : Bool :=
  match cs with
  | a :: b :: ':' :: _ => a.isDigit && b.isDigit
  | _ => false

/-- Whether a date starts here. -/
def startsDate (cs : List Char) : Bool :=
  (cs.take 4).all Char.isDigit && (cs.drop 4).head? == some '-'

/-- Reads a date, a time, or both with a letter or a space between them. -/
def dateTime? (cs : List Char) : Reading Item :=
  let done (rest : Option (List Char)) : Reading Item := rest.map fun rest => (.dateTime, rest)
  if startsTime cs then done (time? cs)
  else
    (date? cs).bind fun rest =>
      match rest with
      | 'T' :: rest => done ((time? rest).bind offset?)
      | 't' :: rest => done ((time? rest).bind offset?)
      | ' ' :: after =>
        if startsTime after then done ((time? after).bind offset?) else some (.dateTime, rest)
      | _ => some (.dateTime, rest)

end SqlMetrics.Toml
