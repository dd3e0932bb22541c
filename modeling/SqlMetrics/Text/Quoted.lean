import SqlMetrics.Text.Printable

/-!
# Quoted text

How text is shown inside messages: between double quotes, with a backslash before a double quote
and a backslash, the short escapes for the usual control characters, and `\u` with the code point
in braces for everything that cannot be seen on its own.
-/

namespace SqlMetrics.Text

namespace Quoted

/-- The digits of a number in base sixteen, in lower case. -/
def hexDigits (n : Nat) : List Char :=
  Nat.toDigits 16 n

/-- The escape by code point. -/
def codePoint (c : Char) : List Char :=
  ['\\', 'u', '\x7b'] ++ hexDigits c.toNat ++ ['\x7d']

/-- How one character is written between the quotes. -/
def encodeChar (c : Char) : List Char :=
  if c == '"' || c == '\\' then ['\\', c]
  else if c == '\n' then ['\\', 'n']
  else if c == '\r' then ['\\', 'r']
  else if c == '\t' then ['\\', 't']
  else if c.toNat == 0 then ['\\', '0']
  else if isGraphemeExtend c || !isPrintable c then codePoint c
  else [c]

/-- The written form of a text, quotes included. -/
def encodeChars (cs : List Char) : List Char :=
  '"' :: (cs.flatMap encodeChar ++ ['"'])

end Quoted

/-- The text between double quotes, escaped. -/
def quoted (s : String) : String :=
  String.ofList (Quoted.encodeChars s.toList)

end SqlMetrics.Text
