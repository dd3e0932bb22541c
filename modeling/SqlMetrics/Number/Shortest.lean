import SqlMetrics.Number.Double

/-!
# Shortest decimals

The decimal with the fewest digits that reads back as a given double; among those with equally few
digits, the nearest one.  A decimal reads back as `m * 2 ^ q` when it lies between the midpoints to
the neighbouring doubles; the midpoints themselves count exactly when `m` is even.  If any decimal
of a given number of digits lies there, one of the two neighbours of the double on that grid does,
so only these two are tried.
-/

namespace SqlMetrics.Number

/-- The number `digits * 10 ^ exponent`. -/
structure Decimal where
  digits : Nat
  exponent : Int
deriving DecidableEq, Repr

/-- Which of two equally near decimals is taken. -/
inductive Tie where
  | toEven
  | up
deriving DecidableEq, Repr

/-- The decimals that read back as one double: those between `low / den` and `high / den`. -/
structure Interval where
  low : Nat
  value : Nat
  high : Nat
  den : Nat
  closed : Bool
deriving DecidableEq, Repr

namespace Interval

/-- The interval of `m * 2 ^ q`.  Below a power of two the doubles are twice as dense, so the lower
midpoint is half as far away. -/
def ofScaled (s : Scaled) : Interval :=
  let m := s.significand
  let unit := twoTo s.exponent.toNat
  let gap := if m == twoTo 52 && s.exponent > binary64.minExponent then 1 else 2
  { low := (4 * m - gap) * unit
    value := 4 * m * unit
    high := (4 * m + 2) * unit
    den := 4 * twoTo (-s.exponent).toNat
    closed := m % 2 == 0 }

/-- Whether a decimal lies in the interval. -/
def contains (i : Interval) (x : Decimal) : Bool :=
  let n := x.digits * tenTo x.exponent.toNat * i.den
  let scale := tenTo (-x.exponent).toNat
  if i.closed then i.low * scale ≤ n && n ≤ i.high * scale
  else i.low * scale < n && n < i.high * scale

/-- The decimal of the interval on the grid of multiples of `10 ^ p` that is nearest to its value,
if there is one. -/
def onGrid? (i : Interval) (tie : Tie) (p : Int) : Option Decimal :=
  let (n, d) := scaleTen i.value i.den p
  let below : Decimal := ⟨n / d, p⟩
  let above : Decimal := ⟨n / d + 1, p⟩
  match i.contains below, i.contains above with
  | true, false => some below
  | false, true => some above
  | false, false => none
  | true, true =>
    let r := n % d
    if 2 * r < d then some below
    else if d < 2 * r then some above
    else
      match tie with
      | .up => some above
      | .toEven => some (if below.digits % 2 == 0 then below else above)

end Interval

/-- The shortest decimal of a positive finite double.  The grids are tried from the coarsest on,
which has the next power of ten above the double; seventeen digits always suffice. -/
def Double.shortest (x : Double) (tie : Tie) : Decimal :=
  let i := Interval.ofScaled ⟨x.significand, x.exponent⟩
  let top := floorLogTen i.value i.den + 1
  ((List.range 18).findSome? fun (n : Nat) => i.onGrid? tie (top - n)).getD ⟨0, 0⟩

end SqlMetrics.Number
