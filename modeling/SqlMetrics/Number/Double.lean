import SqlMetrics.Number.Rounding

/-!
# Doubles

A double-precision number is its 64 bits.  A finite one is a sign, a significand below `2 ^ 53` and
an exponent of two; the other bit patterns are the two infinities and the NaNs.  Conversions round
to the nearest double, ties to the even significand.
-/

namespace SqlMetrics.Number

/-- A double-precision number, given by its bits. -/
structure Double where
  bits : UInt64
deriving DecidableEq, Repr, Inhabited

namespace Double

/-- The sign bit: set for negative numbers, for negative zero and for some NaNs. -/
def isNegative (x : Double) : Bool :=
  twoTo 63 ≤ x.bits.toNat

/-- The eleven exponent bits. -/
def exponentField (x : Double) : Nat :=
  x.bits.toNat / twoTo 52 % twoTo 11

/-- The lower 52 bits. -/
def fraction (x : Double) : Nat :=
  x.bits.toNat % twoTo 52

/-- Neither an infinity nor a NaN. -/
def isFinite (x : Double) : Bool :=
  x.exponentField != 2047

/-- One of the NaNs. -/
def isNaN (x : Double) : Bool :=
  x.exponentField == 2047 && x.fraction != 0

/-- The significand of a finite number. -/
def significand (x : Double) : Nat :=
  if x.exponentField == 0 then x.fraction else x.fraction + twoTo 52

/-- The exponent of two that scales the significand of a finite number. -/
def exponent (x : Double) : Int :=
  if x.exponentField == 0 then -1074 else (x.exponentField : Int) - 1075

/-- The magnitude of a finite number as a quotient. -/
def ratio (x : Double) : Nat × Nat :=
  (x.significand * twoTo x.exponent.toNat, twoTo (-x.exponent).toNat)

/-- Puts the sign bit over the bits of a magnitude. -/
def ofMagnitude (negative : Bool) (magnitude : Nat) : Double :=
  ⟨UInt64.ofNat (if negative then magnitude + twoTo 63 else magnitude)⟩

/-- An infinity. -/
def infinity (negative : Bool) : Double :=
  ofMagnitude negative (2047 * twoTo 52)

/-- The NaN that stands for all of them. -/
def nan : Double :=
  ofMagnitude false (2047 * twoTo 52 + twoTo 51)

/-- A zero. -/
def zero (negative : Bool) : Double :=
  ofMagnitude negative 0

/-- The double of a scaled significand of double precision; past the greatest one, an infinity. -/
def ofScaled (negative : Bool) (s : Scaled) : Double :=
  if s.exponent > binary64.maxExponent then infinity negative
  else ofMagnitude negative ((s.exponent + 1074).toNat * twoTo 52 + s.significand)

/-- The double nearest to `num / den`, with a sign. -/
def ofRatio (negative : Bool) (num den : Nat) : Double :=
  ofScaled negative (binary64.nearest num den)

/-- The double nearest to an integer. -/
def ofInt (n : Int) : Double :=
  ofRatio (n < 0) n.natAbs 1

/-- The double nearest to `digits * 10 ^ exponent`, with a sign.  The first two cases answer without
computing a power where the result is beyond every double or below half of the least one: `10 ^ e`
is at least `2 ^ (3 * e)`. -/
def ofDecimal (negative : Bool) (digits : Nat) (exponent : Int) : Double :=
  if digits == 0 then zero negative
  else if 0 ≤ exponent && 1025 ≤ (digits.log2 : Int) + 3 * exponent then infinity negative
  else if exponent < 0 && (digits.log2 : Int) + 1 + 3 * exponent ≤ -1076 then zero negative
  else
    let (n, d) := scaleTen digits 1 (-exponent)
    ofRatio negative n d

/-- The number rounded to single precision, as a double. -/
def roundToSingle (x : Double) : Double :=
  if !x.isFinite then x
  else
    let (n, d) := x.ratio
    let s := binary32.nearest n d
    if s.exponent > binary32.maxExponent then infinity x.isNegative
    else
      let (n, d) := scaleTwo s.significand 1 (-s.exponent)
      ofRatio x.isNegative n d

end Double

end SqlMetrics.Number
