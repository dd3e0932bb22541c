import SqlMetrics.Number.Shortest

/-!
# Numbers as text

The texts of integers and doubles.  `plain` writes a double positionally with its shortest digits,
`json` writes the shortest digits as a JSON number, with an exponent for very large and very small
numbers, and `fixed` writes a given number of places.
-/

namespace SqlMetrics.Number

/-- The decimal digits of a natural number. -/
def natDigits (n : Nat) : List Char :=
  Nat.toDigits 10 n

/-- The decimal text of an integer. -/
def intText (n : Int) : String :=
  String.ofList ((if n < 0 then ['-'] else []) ++ natDigits n.natAbs)

/-- So many zeros. -/
def zeros (n : Nat) : List Char :=
  List.replicate n '0'

/-- Digits scaled by a power of ten, written positionally without an exponent. -/
def positional (digits : List Char) (exponent : Int) : List Char :=
  if 0 ≤ exponent then digits ++ zeros exponent.toNat
  else
    let places := (-exponent).toNat
    if places < digits.length then
      digits.take (digits.length - places) ++ '.' :: digits.drop (digits.length - places)
    else '0' :: '.' :: (zeros (places - digits.length) ++ digits)

/-- How doubles are written where they are not written positionally throughout: positionally when
the point falls at most `maxPoint` digits after the first digit and at most `minPoint` zeros before
it, and with an exponent otherwise. -/
structure ExponentStyle where
  minPoint : Int
  maxPoint : Int
  tie : Tie

/-- The style of JSON numbers. -/
def jsonStyle : ExponentStyle := ⟨-4, 16, .toEven⟩

/-- Digits scaled by a power of ten, in scientific notation. -/
def scientific (digits : List Char) (exponent : Int) : List Char :=
  let e := exponent + (digits.length : Int) - 1
  let sign := if e < 0 then '-' else '+'
  let mantissa :=
    match digits with
    | d :: r :: rest => d :: '.' :: r :: rest
    | short => short
  mantissa ++ ['e', sign] ++ natDigits e.natAbs

/-- Digits scaled by a power of ten, written as the style says; a whole number keeps `.0`. -/
def ExponentStyle.write (style : ExponentStyle) (digits : List Char) (exponent : Int) :
    List Char :=
  let point := exponent + (digits.length : Int)
  if style.minPoint ≤ point && point ≤ style.maxPoint then
    if 0 ≤ exponent then positional digits exponent ++ ['.', '0'] else positional digits exponent
  else scientific digits exponent

namespace Double

/-- The sign written before the magnitude. -/
def signChars (x : Double) : List Char :=
  if x.isNegative then ['-'] else []

/-- The plain text of a double: its shortest digits without an exponent. -/
def plain (x : Double) : String :=
  if x.isNaN then "NaN"
  else
    let magnitude :=
      if !x.isFinite then "inf".toList
      else if x.significand == 0 then ['0']
      else
        let d := x.shortest .up
        positional (natDigits d.digits) d.exponent
    String.ofList (x.signChars ++ magnitude)

/-- The JSON text of a double; a double that is no number is `null`. -/
def json (x : Double) : String :=
  if !x.isFinite then "null"
  else
    let magnitude :=
      if x.significand == 0 then ['0', '.', '0']
      else
        let d := x.shortest jsonStyle.tie
        jsonStyle.write (natDigits d.digits) d.exponent
    String.ofList (x.signChars ++ magnitude)

/-- A finite double with so many places after the point, rounded to nearest from its exact value,
ties to the even digit. -/
def fixed (x : Double) (places : Nat) : String :=
  let (n, d) := x.ratio
  let digits := natDigits (roundHalfEven (n * tenTo places) d)
  let padded := zeros (places + 1 - digits.length) ++ digits
  String.ofList (x.signChars ++ positional padded (-(places : Int)))

end Double

end SqlMetrics.Number
