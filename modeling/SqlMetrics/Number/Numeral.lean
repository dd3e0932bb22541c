import SqlMetrics.Number.Double

/-!
# Numerals

Reading integers and doubles from text.  An integer is an optional sign and at least one ASCII
digit, and has to fit into 64 bits.  A double is an optional sign and either one of the words `inf`,
`infinity` and `nan` in any case, or digits with an optional point, at least one digit among them,
and an optional exponent with at least one digit.  Nothing else may stand around them.
-/

namespace SqlMetrics.Number

/-- The range of 64-bit integers. -/
def fitsInt64 (n : Int) : Bool :=
  -(twoTo 63 : Int) ≤ n && n < twoTo 63

/-- The value of a digit. -/
def digitValue (c : Char) : Nat :=
  c.toNat - 48

/-- The number that digits spell. -/
def digitsValue (cs : List Char) : Nat :=
  cs.foldl (fun n c => 10 * n + digitValue c) 0

/-- An optional sign, and what follows it. -/
def splitSign : List Char → Bool × List Char
  | '+' :: rest => (false, rest)
  | '-' :: rest => (true, rest)
  | cs => (false, cs)

/-- The integer with the given sign and magnitude. -/
def signed (negative : Bool) (magnitude : Nat) : Int :=
  if negative then -(magnitude : Int) else (magnitude : Int)

/-- Reads a 64-bit integer. -/
def readInt? (cs : List Char) : Option Int :=
  let (negative, digits) := splitSign cs
  if digits.isEmpty || !digits.all Char.isDigit then none
  else
    let n := signed negative (digitsValue digits)
    if fitsInt64 n then some n else none

/-- The parts of a decimal numeral. -/
structure Numeral where
  whole : List Char
  places : List Char
  exponent : Int
deriving DecidableEq, Repr

/-- Reads the exponent part, which may be absent; it has to reach to the end. -/
def readExponent? : List Char → Option Int
  | [] => some 0
  | c :: rest =>
    if c == 'e' || c == 'E' then
      let (negative, digits) := splitSign rest
      if digits.isEmpty || !digits.all Char.isDigit then none
      else some (signed negative (digitsValue digits))
    else none

/-- Reads an unsigned decimal numeral. -/
def readNumeral? (cs : List Char) : Option Numeral :=
  let whole := cs.takeWhile Char.isDigit
  let (places, rest) :=
    match cs.dropWhile Char.isDigit with
    | '.' :: rest => (rest.takeWhile Char.isDigit, rest.dropWhile Char.isDigit)
    | rest => ([], rest)
  if whole.isEmpty && places.isEmpty then none
  else (readExponent? rest).map fun e => ⟨whole, places, e⟩

/-- The double nearest to a numeral, with a sign. -/
def Numeral.toDouble (negative : Bool) (n : Numeral) : Double :=
  Double.ofDecimal negative (digitsValue (n.whole ++ n.places)) (n.exponent - n.places.length)

/-- Reads a double. -/
def readDouble? (cs : List Char) : Option Double :=
  let (negative, rest) := splitSign cs
  match readNumeral? rest with
  | some n => some (n.toDouble negative)
  | none =>
    let word := String.ofList (rest.map Char.toLower)
    if word == "inf" || word == "infinity" then some (Double.infinity negative)
    else if word == "nan" then some Double.nan
    else none

end SqlMetrics.Number
