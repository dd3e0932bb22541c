import SqlMetrics.Text.Utf8

/-!
# Base64

Bytes as letters, digits and two signs: three bytes become four characters of six bits each, and
equals signs stand for the characters that a last group of one or two bytes does not fill.
-/

namespace SqlMetrics.Text.Base64

/-- The character of a number below 64. -/
def digit (n : Nat) : Char :=
  if n < 26 then Char.ofNat (65 + n)
  else if n < 52 then Char.ofNat (71 + n)
  else if n < 62 then Char.ofNat (n - 4)
  else if n == 62 then '+'
  else '/'

/-- The characters of a byte string. -/
def encodeChars : Bytes → List Char
  | a :: b :: c :: rest =>
    let n := 65536 * a.toNat + 256 * b.toNat + c.toNat
    digit (n / 262144) :: digit (n / 4096 % 64) :: digit (n / 64 % 64) :: digit (n % 64) ::
      encodeChars rest
  | [a, b] =>
    let n := 65536 * a.toNat + 256 * b.toNat
    [digit (n / 262144), digit (n / 4096 % 64), digit (n / 64 % 64), '=']
  | [a] =>
    let n := 65536 * a.toNat
    [digit (n / 262144), digit (n / 4096 % 64), '=', '=']
  | [] => []

/-- The text of a byte string. -/
def encode (bytes : Bytes) : String :=
  String.ofList (encodeChars bytes)

end SqlMetrics.Text.Base64
