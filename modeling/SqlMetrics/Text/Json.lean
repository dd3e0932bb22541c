/-!
# JSON strings

Text as a JSON string: between double quotes, with the short escapes where JSON has them and a
four-digit escape for the other characters below the space.  Every other character stands for
itself.
-/

namespace SqlMetrics.Text.Json

/-- A digit in base sixteen, in lower case. -/
def hexDigit (n : Nat) : Char :=
  if n < 10 then Char.ofNat (48 + n) else Char.ofNat (87 + n)

/-- How one character is written between the quotes. -/
def encodeChar (c : Char) : List Char :=
  if c == '"' || c == '\\' then ['\\', c]
  else if c == '\n' then ['\\', 'n']
  else if c == '\r' then ['\\', 'r']
  else if c == '\t' then ['\\', 't']
  else if c.toNat == 8 then ['\\', 'b']
  else if c.toNat == 12 then ['\\', 'f']
  else if c.toNat < 32 then
    ['\\', 'u', '0', '0', hexDigit (c.toNat / 16), hexDigit (c.toNat % 16)]
  else [c]

/-- The text as a JSON string, quotes included. -/
def encodeChars (cs : List Char) : List Char :=
  '"' :: (cs.flatMap encodeChar ++ ['"'])

/-- The text as a JSON string, quotes included. -/
def string (s : String) : String :=
  String.ofList (encodeChars s.toList)

end SqlMetrics.Text.Json
