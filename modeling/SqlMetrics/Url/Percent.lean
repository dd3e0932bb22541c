import SqlMetrics.Text.Utf8

/-!
# Percent-encoding

Within a URL, characters that would be taken for something else are written as the hexadecimal
numbers of their UTF-8 bytes, each after a percent sign.  Which characters these are depends on the
part of the URL; control characters and everything beyond ASCII always are.
-/

namespace SqlMetrics.Url

/-- The characters that a part of a URL escapes, besides control characters and those
beyond ASCII. -/
structure EscapeSet where
  extra : List Char

/-- Whether a character is escaped. -/
def EscapeSet.escapes (s : EscapeSet) (c : Char) : Bool :=
  c.toNat < 0x20 || 0x7E < c.toNat || s.extra.contains c

namespace EscapeSet

/-- For paths that are not made of segments, and for hosts of schemes of their own. -/
def controls : EscapeSet := ⟨[]⟩

/-- For fragments. -/
def fragment : EscapeSet := ⟨[' ', '"', '<', '>', '\x60']⟩

/-- For queries. -/
def query : EscapeSet := ⟨[' ', '"', '#', '<', '>']⟩

/-- For queries of the special schemes. -/
def specialQuery : EscapeSet := ⟨'\'' :: query.extra⟩

/-- For paths. -/
def path : EscapeSet := ⟨['#', '?', '\x7b', '\x7d'] ++ fragment.extra⟩

/-- For user names and passwords. -/
def userinfo : EscapeSet := ⟨['/', ':', ';', '=', '@', '[', '\\', ']', '^', '|'] ++ path.extra⟩

/-- For a text that is to be a single segment of a path. -/
def segment : EscapeSet := ⟨['/', '%'] ++ path.extra⟩

/-- For a text that is to be a single segment of a path of the special schemes, where a backslash
ends a segment as well. -/
def specialSegment : EscapeSet := ⟨'\\' :: segment.extra⟩

end EscapeSet

/-- The upper-case hexadecimal digit of a number below 16. -/
def hexDigit (n : Nat) : Char :=
  Char.ofNat (if n < 10 then 48 + n else 55 + n)

/-- The number of a hexadecimal digit of either case. -/
def hexValue? (c : Char) : Option Nat :=
  if c.isDigit then some (c.toNat - 48)
  else if 'a' ≤ c && c ≤ 'f' then some (c.toNat - 87)
  else if 'A' ≤ c && c ≤ 'F' then some (c.toNat - 55)
  else none

/-- The escape of a byte. -/
def escapeByte (b : UInt8) : List Char :=
  ['%', hexDigit (b.toNat / 16), hexDigit (b.toNat % 16)]

/-- A character as it stands in a part of a URL. -/
def escapeChar (s : EscapeSet) (c : Char) : List Char :=
  if s.escapes c then (String.utf8EncodeChar c).flatMap escapeByte else [c]

/-- A text as it stands in a part of a URL. -/
def escape (s : EscapeSet) (cs : List Char) : List Char :=
  cs.flatMap (escapeChar s)

/-- The bytes that a part of a URL stands for.  A percent sign without two digits stands for
itself. -/
def unescape : List Char → Bytes
  | [] => []
  | '%' :: a :: b :: rest =>
    match hexValue? a, hexValue? b with
    | some m, some n => UInt8.ofNat (16 * m + n) :: unescape rest
    | _, _ => 0x25 :: unescape (a :: b :: rest)
  | c :: rest => String.utf8EncodeChar c ++ unescape rest
termination_by cs => cs.length
decreasing_by all_goals (simp only [List.length_cons]; omega)

end SqlMetrics.Url
