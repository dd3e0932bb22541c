/-!
# Punycode

The form in ASCII of a label of a domain name that has characters beyond ASCII: its ASCII
characters, and after a hyphen a sequence of numbers that say where the other characters go, in the
order of their code points.  A number is written with 36 digits in a notation whose weights follow
the numbers written before it.
-/

namespace SqlMetrics.Url.Punycode

/-- The digit of a number below 36: a letter, then a decimal digit. -/
def digit (n : Nat) : Char :=
  Char.ofNat (if n < 26 then 97 + n else 22 + n)

/-- How much the digit at a position counts at most. -/
def threshold (position bias : Nat) : Nat :=
  if position ≤ bias then 1 else if bias + 26 ≤ position then 26 else position - bias

theorem threshold_pos (position bias : Nat) : 1 ≤ threshold position bias := by
  unfold threshold
  split
  · omega
  · split <;> omega

/-- The digits of a number from a position on. -/
def digitsFrom (position bias n : Nat) : List Char :=
  let t := threshold position bias
  if h : n < t then [digit n]
  else
    digit (t + (n - t) % (36 - t)) :: digitsFrom (position + 36) bias ((n - t) / (36 - t))
termination_by n
decreasing_by
  have := threshold_pos position bias
  exact Nat.lt_of_le_of_lt (Nat.div_le_self _ _) (by omega)

/-- Divides a number by 35 until it is small, counting 36 for each division. -/
def scaleDown (n count : Nat) : Nat × Nat :=
  if 455 < n then scaleDown (n / 35) (count + 36) else (n, count)
termination_by n
decreasing_by omega

/-- The bias after a number. -/
def adapt (delta length : Nat) (first : Bool) : Nat :=
  let d := if first then delta / 700 else delta / 2
  let (n, count) := scaleDown (d + d / length) 0
  count + 36 * n / (n + 38)

/-- How far the encoding has come: the code point reached, the number not yet written, the bias, how
many characters are placed, and the digits so far. -/
structure State where
  codePoint : Nat
  delta : Nat
  bias : Nat
  placed : Nat
  digits : List Char

/-- Passes one character of the label while the characters of a code point are placed. -/
def State.pass (basic codePoint : Nat) (s : State) (c : Char) : State :=
  if c.toNat < codePoint then { s with delta := s.delta + 1 }
  else if c.toNat == codePoint then
    { s with
      delta := 0
      bias := adapt s.delta (s.placed + 1) (s.placed == basic)
      placed := s.placed + 1
      digits := s.digits ++ digitsFrom 36 s.bias s.delta }
  else s

/-- Places all characters of a code point. -/
def State.place (label : List Char) (basic : Nat) (s : State) (codePoint : Nat) : State :=
  let s := { s with delta := s.delta + (codePoint - s.codePoint) * (s.placed + 1) }
  let s := label.foldl (State.pass basic codePoint) s
  { s with codePoint := codePoint + 1, delta := s.delta + 1 }

/-- The label in ASCII. -/
def encode (label : List Char) : List Char :=
  let basic := label.filter fun c => c.toNat < 128
  let others := ((label.map Char.toNat).filter fun n => 128 ≤ n).eraseDups
  let sorted := others.mergeSort (· ≤ ·)
  let start : State := ⟨128, 0, 72, basic.length, []⟩
  let final := sorted.foldl (State.place label basic.length) start
  (if basic.isEmpty then [] else basic ++ ['-']) ++ final.digits

/-! ## Reading -/

/-- The number that a digit stands for. -/
def digitValue? (c : Char) : Option Nat :=
  if 'a' ≤ c && c ≤ 'z' then some (c.toNat - 97)
  else if c.isDigit then some (c.toNat - 22)
  else none

/-- Reads a number whose digits up to a position have been read; the next digit counts `weight`. -/
def readNumber (bias position weight sum : Nat) : List Char → Option (Nat × List Char)
  | [] => none
  | c :: rest =>
    match digitValue? c with
    | none => none
    | some d =>
      let t := threshold position bias
      let sum := sum + d * weight
      if d < t then some (sum, rest)
      else readNumber bias (position + 36) (weight * (36 - t)) sum rest

theorem length_lt_of_readNumber {bias position weight sum n : Nat} {cs rest : List Char}
    (h : readNumber bias position weight sum cs = some (n, rest)) : rest.length < cs.length := by
  induction cs generalizing position weight sum with
  | nil => simp [readNumber] at h
  | cons c tail ih =>
    simp only [readNumber] at h
    split at h
    · cases h
    · split at h
      · obtain ⟨-, rfl⟩ := Prod.mk.inj (Option.some.inj h)
        simp
      · exact Nat.lt_succ_of_lt (ih h)

/-- Puts the characters that the digits tell of into a label. -/
def insertAll (label : List Char) (codePoint place bias : Nat) (first : Bool) (cs : List Char) :
    Option (List Char) :=
  if cs.isEmpty then some label
  else
    match h : readNumber bias 36 1 0 cs with
    | none => none
    | some (delta, rest) =>
      have := length_lt_of_readNumber h
      let length := label.length + 1
      let codePoint := codePoint + (place + delta) / length
      let place := (place + delta) % length
      if codePoint.isValidChar then
        let label := label.take place ++ Char.ofNat codePoint :: label.drop place
        insertAll label codePoint (place + 1)
          (adapt delta length first) false rest
      else none
termination_by cs.length

/-- The label that is written in ASCII. -/
def decode (cs : List Char) : Option (List Char) :=
  let digits := (cs.reverse.takeWhile (· != '-')).reverse
  let basic := cs.take (cs.length - digits.length - 1)
  insertAll basic 128 0 72 true digits

end SqlMetrics.Url.Punycode
