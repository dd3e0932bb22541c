import SqlMetrics.Number.Numeral

/-!
# What plain scalars stand for

A plain scalar without a tag stands for null, a truth value, an integer, a double or text, and the
first of these that it spells.  Integers may be written in base ten, or with `0x`, `0o` and `0b` in
the bases sixteen, eight and two; digits that start with a superfluous zero spell no integer, and
none of them spells a number at all.
-/

namespace SqlMetrics.Yaml

open Number (Double twoTo)

/-- What a plain scalar stands for.  Integers beyond 64 bits have their own kind up to 128 bits. -/
inductive Resolved where
  | null
  | bool (b : Bool)
  | int (n : Int)
  | bigInt
  | float (x : Double)
  | text
deriving DecidableEq, Repr

/-- Whether a scalar spells null. -/
def spellsNull (s : String) : Bool :=
  s == "null" || s == "Null" || s == "NULL" || s == "~"

/-- The truth value that a scalar spells. -/
def spelledBool? (s : String) : Option Bool :=
  if s == "true" || s == "True" || s == "TRUE" then some true
  else if s == "false" || s == "False" || s == "FALSE" then some false
  else none

/-- Whether a text starts with a sign. -/
def startsSigned (cs : List Char) : Bool :=
  cs.head?.any fun c => c == '+' || c == '-'

/-- Whether digits start with a superfluous zero, after an optional sign. -/
def hasSuperfluousZero (cs : List Char) : Bool :=
  let (_, digits) := Number.splitSign cs
  1 < digits.length && digits.head? == some '0' && digits.all Char.isDigit

/-- The value of a digit in a base. -/
def digitIn? (base : Nat) (c : Char) : Option Nat :=
  let value :=
    if c.isDigit then c.toNat - 48
    else if 'a' ≤ c && c ≤ 'z' then c.toNat - 87
    else if 'A' ≤ c && c ≤ 'Z' then c.toNat - 55
    else base
  if value < base then some value else none

/-- The number that digits spell in a base. -/
def numberIn? (base : Nat) (cs : List Char) : Option Nat :=
  if cs.isEmpty then none
  else cs.foldl (fun n? c => n?.bind fun n => (digitIn? base c).map (base * n + ·)) (some 0)

/-- The base that a text names with its first two characters, and the digits after them. -/
def basePart? : List Char → Option (Nat × List Char)
  | '0' :: 'x' :: rest => some (16, rest)
  | '0' :: 'o' :: rest => some (8, rest)
  | '0' :: 'b' :: rest => some (2, rest)
  | _ => none

/-- The magnitude that a text without a sign spells, in any base; `whole` is the text with its sign,
which shows whether a zero is superfluous. -/
def magnitude? (whole cs : List Char) : Option Nat :=
  match (basePart? cs).bind fun part => numberIn? part.1 part.2 with
  | some n => some n
  | none => if hasSuperfluousZero whole then none else numberIn? 10 cs

/-- The integer that a scalar spells. -/
def spelledInt? (s : String) : Option Int :=
  match s.toList with
  | '+' :: rest => (magnitude? s.toList rest).map fun n => (n : Int)
  | '-' :: rest => (magnitude? s.toList rest).map fun n => -(n : Int)
  | cs => (magnitude? cs cs).map fun n => (n : Int)

/-- The double that a scalar spells: one of the words for infinities and no number, or a finite
decimal numeral. -/
def spelledDouble? (s : String) : Option Double :=
  let cs := s.toList
  let unsigned := if cs.head? == some '+' then cs.drop 1 else cs
  let word := String.ofList unsigned
  if cs.head? == some '+' && startsSigned unsigned then none
  else if word == ".inf" || word == ".Inf" || word == ".INF" then some (Double.infinity false)
  else if s == "-.inf" || s == "-.Inf" || s == "-.INF" then some (Double.infinity true)
  else if s == ".nan" || s == ".NaN" || s == ".NAN" then some Double.nan
  else (Number.readDouble? unsigned).filter Double.isFinite

/-- What an integer counts as: the ones of 64 bits, with or without a sign, as themselves. -/
def integerKind? (n : Int) : Option Resolved :=
  if -(twoTo 63 : Int) ≤ n && n < twoTo 64 then some (.int n)
  else if -(twoTo 127 : Int) ≤ n && n < twoTo 128 then some .bigInt
  else none

/-- What a plain scalar without a tag stands for. -/
def resolvePlain (s : String) : Resolved :=
  if s.isEmpty || spellsNull s then .null
  else
    match spelledBool? s with
    | some b => .bool b
    | none =>
      match (spelledInt? s).bind integerKind? with
      | some r => r
      | none =>
        if hasSuperfluousZero s.toList then .text
        else
          match spelledDouble? s with
          | some x => .float x
          | none => .text

end SqlMetrics.Yaml
