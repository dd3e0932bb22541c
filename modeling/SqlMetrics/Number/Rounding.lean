/-!
# Rounding to binary formats

Rounding of a quotient of natural numbers, first to a natural number and then to the nearest number
`m * 2 ^ q` of a binary floating-point format.  Everything is computed with natural numbers, so
that no step rounds before the last.
-/

namespace SqlMetrics.Number

/-- The power of two with the given exponent. -/
abbrev twoTo (exponent : Nat) : Nat :=
  Nat.pow 2 exponent

/-- The power of ten with the given exponent. -/
abbrev tenTo (exponent : Nat) : Nat :=
  Nat.pow 10 exponent

/-- The natural number nearest to `num / den`; of two equally near ones the even one. -/
def roundHalfEven (num den : Nat) : Nat :=
  let q := num / den
  let r := num % den
  if 2 * r < den then q
  else if den < 2 * r then q + 1
  else if q % 2 == 0 then q
  else q + 1

/-- The quotient `num / den` divided by `2 ^ q`, as a numerator and a denominator. -/
def scaleTwo (num den : Nat) (q : Int) : Nat × Nat :=
  (num * twoTo (-q).toNat, den * twoTo q.toNat)

/-- The quotient `num / den` divided by `10 ^ p`, as a numerator and a denominator. -/
def scaleTen (num den : Nat) (p : Int) : Nat × Nat :=
  (num * tenTo (-p).toNat, den * tenTo p.toNat)

/-- The exponent of the greatest power of two not above `num / den`, both positive. -/
def floorLogTwo (num den : Nat) : Int :=
  let guess : Int := (num.log2 : Int) - (den.log2 : Int)
  let (n, d) := scaleTwo num den guess
  if n < d then guess - 1 else guess

/-- The exponent of the greatest power of ten not above `num / den`, both positive.  The guess is
off by at most one either way for every quotient between `2 ^ (-2000)` and `2 ^ 2000`. -/
def floorLogTen (num den : Nat) : Int :=
  let guess : Int := floorLogTwo num den * 30103 / 100000
  let reaches (p : Int) : Bool :=
    let (n, d) := scaleTen num den p
    d ≤ n
  if reaches (guess + 1) then guess + 1 else if reaches guess then guess else guess - 1

/-- A binary floating-point format: how many bits a significand has, and the exponents between
which it may be scaled. -/
structure BinaryFormat where
  precision : Nat
  minExponent : Int
  maxExponent : Int
deriving DecidableEq, Repr

/-- Double precision. -/
def binary64 : BinaryFormat := ⟨53, -1074, 971⟩

/-- Single precision. -/
def binary32 : BinaryFormat := ⟨24, -149, 104⟩

/-- A significand and the exponent of two that scales it. -/
structure Scaled where
  significand : Nat
  exponent : Int
deriving DecidableEq, Repr

/-- The number of the format nearest to `num / den`, ties going to the even significand, without
regard to the greatest exponent. -/
def BinaryFormat.nearest (f : BinaryFormat) (num den : Nat) : Scaled :=
  if num == 0 then ⟨0, f.minExponent⟩
  else
    let q := max (floorLogTwo num den - (f.precision - 1 : Nat)) f.minExponent
    let (n, d) := scaleTwo num den q
    let m := roundHalfEven n d
    if m == twoTo f.precision then ⟨m / 2, q + 1⟩ else ⟨m, q⟩

end SqlMetrics.Number
