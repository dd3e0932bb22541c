import SqlMetrics.Value
import SqlMetrics.Text.Blank
import SqlMetrics.Text.Quoted

/-!
# Key templates

A template is text with placeholders: a hash sign followed by a column name between braces, the
name being one or more ASCII letters, digits and underscores.  Expanding a template against a row
replaces each placeholder by the text of its column, trimmed and with every character outside
`[-a-zA-Z0-9_]` replaced by an underscore.  All other text is kept as it is, and what a replacement
brings in is not looked at again.
-/

namespace SqlMetrics

/-- Why a placeholder could not be expanded, with the column it names. -/
inductive TemplateError where
  | columnNotFound (column : String)
  | nullValue (column : String)
  | emptyValue (column : String)
deriving DecidableEq, Repr

namespace TemplateError

/-- The column that the placeholder names. -/
def column : TemplateError → String
  | .columnNotFound c => c
  | .nullValue c => c
  | .emptyValue c => c

/-- The text of the error. -/
def message : TemplateError → String
  | .columnNotFound c => Text.quoted c ++ " not exists in columns"
  | .nullValue c => Text.quoted c ++ " value is null"
  | .emptyValue c => Text.quoted c ++ " is empty"

end TemplateError

namespace Template

/-- The characters of a column name in a placeholder. -/
def isNameChar (c : Char) : Bool :=
  c.isAlphanum || c == '_'

/-- The characters that a replacement may bring into a key. -/
def isKeyChar (c : Char) : Bool :=
  c.isAlphanum || c == '-' || c == '_'

/-- The text with every character that may not stand in a key replaced by an underscore. -/
def sanitizeChars (cs : List Char) : List Char :=
  cs.map fun c => if isKeyChar c then c else '_'

/-- The text with every character that may not stand in a key replaced by an underscore. -/
def sanitize (s : String) : String :=
  String.ofList (sanitizeChars s.toList)

/-- The column name of the placeholder that the text starts with, and the text after it. -/
def placeholder? : List Char → Option (List Char × List Char)
  | '#' :: '\x7b' :: rest =>
    match rest.dropWhile isNameChar with
    | '\x7d' :: after =>
      let name := rest.takeWhile isNameChar
      if name.isEmpty then none else some (name, after)
    | _ => none
  | _ => none

/-- What follows a placeholder is shorter than what starts with it. -/
theorem length_lt_of_placeholder? {cs name rest : List Char}
    (h : placeholder? cs = some (name, rest)) : rest.length < cs.length := by
  unfold placeholder? at h
  split at h
  case h_1 tail =>
    have split_length : (tail.dropWhile isNameChar).length ≤ tail.length :=
      (List.dropWhile_sublist isNameChar).length_le
    split at h
    case h_1 after eq =>
      dsimp only at h
      split at h
      · simp at h
      · simp only [Option.some.injEq, Prod.mk.injEq] at h
        rw [eq, List.length_cons] at split_length
        rw [← h.2, List.length_cons, List.length_cons]
        omega
    case h_2 => simp at h
  case h_2 => simp at h

/-- One piece of a template. -/
inductive Piece where
  /-- A character that stands for itself. -/
  | char (c : Char)
  /-- A placeholder for a column. -/
  | column (name : List Char)
deriving DecidableEq, Repr

/-- The pieces of a template, from left to right. -/
def pieces (cs : List Char) : List Piece :=
  match _found : placeholder? cs with
  | some (name, rest) => .column name :: pieces rest
  | none =>
    match cs with
    | [] => []
    | c :: rest => .char c :: pieces rest
termination_by cs.length
decreasing_by
  · exact length_lt_of_placeholder? _found
  · simp

/-- The text that replaces a placeholder. -/
def fragment (row : Row) (column : String) : Except TemplateError (List Char) :=
  match row.get? column with
  | none => .error (.columnNotFound column)
  | some .null => .error (.nullValue column)
  | some value =>
    match Text.trimChars value.display.toList with
    | [] => .error (.emptyValue column)
    | text => .ok (sanitizeChars text)

/-- The text of one piece. -/
def Piece.expand (row : Row) : Piece → Except TemplateError (List Char)
  | .char c => .ok [c]
  | .column name => fragment row (String.ofList name)

/-- The text of pieces, or the error of the first one that has none. -/
def expandPieces (row : Row) : List Piece → Except TemplateError (List Char)
  | [] => .ok []
  | piece :: rest =>
    match piece.expand row with
    | .error e => .error e
    | .ok text => (expandPieces row rest).map (text ++ ·)

/-- The template with every placeholder replaced, or the error of the leftmost placeholder that
cannot be. -/
def expand (template : String) (row : Row) : Except TemplateError String :=
  (expandPieces row (pieces template.toList)).map String.ofList

end Template

end SqlMetrics
