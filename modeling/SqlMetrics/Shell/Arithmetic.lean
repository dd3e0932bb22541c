import SqlMetrics.Number.Numeral

/-!
# Arithmetic of the shell

The expressions between `$((` and `))`: integers of 64 bits that wrap around, variables, and the
operators of the usual precedences.  A comparison is one or zero.
-/

namespace SqlMetrics.Shell.Arithmetic

/-- A token of an expression. -/
inductive Token where
  | number (n : Int)
  | name (s : String)
  | symbol (s : String)
deriving DecidableEq, Repr

/-- Why an expression has no value. -/
inductive ArithmeticError where
  | divisionByZero
  | expectingPrimary
  | expectingEnd
deriving DecidableEq, Repr

/-- The text of the error. -/
def ArithmeticError.message : ArithmeticError → String
  | .divisionByZero => "division by zero"
  | .expectingPrimary => "expecting primary"
  | .expectingEnd => "expecting EOF"

/-- An integer brought into the range of 64 bits. -/
def wrap (n : Int) : Int :=
  (n + Number.twoTo 63) % Number.twoTo 64 - Number.twoTo 63

/-- The operators of two characters. -/
def doubleSymbols : List String :=
  ["<<", ">>", "<=", ">=", "==", "!=", "&&", "||"]

/-- The value of a digit in any base up to sixteen. -/
def digitOf (c : Char) : Nat :=
  if c.isDigit then c.toNat - 48 else c.toLower.toNat - 87

/-- The number that digits spell in a base. -/
def inBase (base : Nat) (cs : List Char) : Int :=
  wrap (cs.foldl (fun n c => base * n + digitOf c) 0 : Nat)

/-- Whether a character is a digit in base sixteen. -/
def isHexDigit (c : Char) : Bool :=
  c.isDigit || ('a' ≤ c.toLower && c.toLower ≤ 'f')

/-- Whether a character is a digit in base eight. -/
def isOctalDigit (c : Char) : Bool :=
  '0' ≤ c && c ≤ '7'

/-- The tokens of an expression; `fuel` bounds their number. -/
def tokens : Nat → List Char → Option (List Token)
  | 0, _ => none
  | fuel + 1, cs =>
    match cs with
    | [] => some []
    | c :: rest =>
      if c == ' ' || c == '\t' || c == '\n' then tokens fuel rest
      else if c == '0' && (rest.head? == some 'x' || rest.head? == some 'X') then
        let digits := (rest.drop 1).takeWhile isHexDigit
        (tokens fuel ((rest.drop 1).dropWhile isHexDigit)).map (.number (inBase 16 digits) :: ·)
      else if c.isDigit then
        let isDigit (c : Char) : Bool := if cs.head? == some '0' then isOctalDigit c else c.isDigit
        let base := if c == '0' then 8 else 10
        (tokens fuel (cs.dropWhile isDigit)).map (.number (inBase base (cs.takeWhile isDigit)) :: ·)
      else if c.isAlpha || c == '_' then
        let isName (c : Char) : Bool := c.isAlphanum || c == '_'
        (tokens fuel (cs.dropWhile isName)).map (.name (String.ofList (cs.takeWhile isName)) :: ·)
      else
        let two := String.ofList (cs.take 2)
        if doubleSymbols.contains two then (tokens fuel (cs.drop 2)).map (.symbol two :: ·)
        else (tokens fuel rest).map (.symbol c.toString :: ·)

/-- The binary operators, from the loosest on. -/
def levels : List (List String) :=
  [["||"], ["&&"], ["|"], ["^"], ["&"], ["==", "!="], ["<", "<=", ">", ">="], ["<<", ">>"],
    ["+", "-"], ["*", "/", "%"]]

/-- A truth value as a number. -/
def truth (b : Bool) : Int :=
  if b then 1 else 0

/-- The bits of a 64-bit integer. -/
def bits (n : Int) : UInt64 :=
  (Int64.ofInt n).toUInt64

/-- The integer of some bits. -/
def ofBits (b : UInt64) : Int :=
  b.toInt64.toInt

/-- The value of a binary operator. -/
def apply (operator : String) (a b : Int) : Except ArithmeticError Int :=
  match operator with
  | "||" => .ok (truth (a != 0 || b != 0))
  | "&&" => .ok (truth (a != 0 && b != 0))
  | "|" => .ok (ofBits (bits a ||| bits b))
  | "^" => .ok (ofBits (bits a ^^^ bits b))
  | "&" => .ok (ofBits (bits a &&& bits b))
  | "==" => .ok (truth (a == b))
  | "!=" => .ok (truth (a != b))
  | "<" => .ok (truth (a < b))
  | "<=" => .ok (truth (a ≤ b))
  | ">" => .ok (truth (b < a))
  | ">=" => .ok (truth (b ≤ a))
  | "<<" => .ok (ofBits (bits a <<< bits b))
  | ">>" => .ok (Int64.toInt (Int64.ofInt a >>> Int64.ofInt b))
  | "+" => .ok (wrap (a + b))
  | "-" => .ok (wrap (a - b))
  | "*" => .ok (wrap (a * b))
  | "/" => if b == 0 then .error .divisionByZero else .ok (wrap (a.tdiv b))
  | "%" => if b == 0 then .error .divisionByZero else .ok (a.tmod b)
  | _ => .error .expectingEnd

mutual

/-- The value of the expression at the head, of the operators at the given levels. -/
def binary (value : String → Int) : Nat → List (List String) → List Token →
    Except ArithmeticError (Int × List Token)
  | 0, _, _ => .error .expectingPrimary
  | fuel + 1, [], ts => primary value fuel ts
  | fuel + 1, level :: tighter, ts => do
    let (a, ts) ← binary value fuel tighter ts
    binaryRest value fuel level tighter a ts

/-- Goes on with the operators of one level, from the left. -/
def binaryRest (value : String → Int) : Nat → List String → List (List String) → Int →
    List Token → Except ArithmeticError (Int × List Token)
  | 0, _, _, _, _ => .error .expectingPrimary
  | fuel + 1, level, tighter, a, ts =>
    match ts with
    | .symbol s :: rest =>
      if level.contains s then do
        let (b, rest) ← binary value fuel tighter rest
        binaryRest value fuel level tighter (← apply s a b) rest
      else .ok (a, ts)
    | _ => .ok (a, ts)

/-- The value of an expression with no binary operator outside parentheses. -/
def primary (value : String → Int) : Nat → List Token →
    Except ArithmeticError (Int × List Token)
  | 0, _ => .error .expectingPrimary
  | fuel + 1, ts =>
    match ts with
    | .number n :: rest => .ok (n, rest)
    | .name s :: rest => .ok (value s, rest)
    | .symbol "-" :: rest => do
      let (a, rest) ← primary value fuel rest
      return (wrap (-a), rest)
    | .symbol "+" :: rest => primary value fuel rest
    | .symbol "!" :: rest => do
      let (a, rest) ← primary value fuel rest
      return (truth (a == 0), rest)
    | .symbol "~" :: rest => do
      let (a, rest) ← primary value fuel rest
      return (-a - 1, rest)
    | .symbol "(" :: rest => do
      let (a, rest) ← binary value fuel levels rest
      match rest with
      | .symbol ")" :: rest => return (a, rest)
      | _ => throw .expectingPrimary
    | _ => .error .expectingPrimary

end

/-- The value of an expression, with the values of the variables. -/
def evaluate (value : String → Int) (cs : List Char) : Except ArithmeticError Int :=
  match tokens (cs.length + 1) cs with
  | none => .error .expectingPrimary
  | some [] => .ok 0
  | some ts => do
    let (a, rest) ← binary value (16 * ts.length + 32) levels ts
    if rest.isEmpty then return a else throw .expectingEnd

end SqlMetrics.Shell.Arithmetic
