/-!
# White space

Which characters count as white space (the `White_Space` property of Unicode) and how text is
trimmed of it.  The property is wider than the ASCII blanks: it holds of the no-break space, the
ideographic space and the line and paragraph separators, and it does not hold of the zero-width
space or the byte order mark.
-/

namespace SqlMetrics.Text

/-- Whether a character has the `White_Space` property. -/
def isBlank (c : Char) : Bool :=
  let n := c.toNat
  (9 ≤ n && n ≤ 13) || n == 0x20 || n == 0x85 || n == 0xA0 || n == 0x1680 ||
    (0x2000 ≤ n && n ≤ 0x200A) || n == 0x2028 || n == 0x2029 || n == 0x202F || n == 0x205F ||
    n == 0x3000

/-- The characters without white space at either end. -/
def trimChars (cs : List Char) : List Char :=
  ((cs.dropWhile isBlank).reverse.dropWhile isBlank).reverse

/-- The text without white space at either end. -/
def trim (s : String) : String :=
  String.ofList (trimChars s.toList)

end SqlMetrics.Text
