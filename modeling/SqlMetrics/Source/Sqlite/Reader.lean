import SqlMetrics.Number.Numeral
import SqlMetrics.Source.Sqlite.Statement
import SqlMetrics.Text.Utf8

/-!
# Reading statements

The text of a statement that selects literals and parameters: `SELECT` and a list of operands, each
with a name if there is one, and more such selections after `UNION ALL`.  Names of tables may be
read, but there are no tables.  What comes after a semicolon is not looked at.

The reader first splits the text into tokens, each with its place, and then reads the tokens.
-/

namespace SqlMetrics.Sqlite

open Number (Double twoTo)

/-- What a token is. -/
inductive TokenKind where
  | word
  | quotedName (name : String)
  | number (d : Datum)
  | string (text : String)
  | blob (data : Bytes)
  /-- A parameter, with its number from 1 where it is given. -/
  | parameter (number : Option Nat)
  | sign
  /-- Characters that are no token. -/
  | illegal
deriving DecidableEq, Repr

/-- A token: its text and the characters before and after it. -/
structure Token where
  kind : TokenKind
  chars : List Char
  start : Nat
deriving DecidableEq, Repr

/-! ## Tokens -/

/-- A character of a word or a number. -/
def isWordChar (c : Char) : Bool :=
  c.isAlphanum || c == '_' || 128 ≤ c.toNat

/-- White space of SQL. -/
def isSpace (c : Char) : Bool :=
  c == ' ' || c == '\t' || c == '\n' || c == '\r' || c.toNat == 12

/-- The length of a comment after its first two characters. -/
def commentLength : List Char → Nat
  | '*' :: '/' :: _ => 2
  | _ :: rest => commentLength rest + 1
  | [] => 0

/-- How many characters of white space and comments stand first. -/
def blankLength (fuel : Nat) (cs : List Char) : Nat :=
  match fuel with
  | 0 => 0
  | fuel + 1 =>
    match cs with
    | '-' :: '-' :: rest =>
      let n := 2 + (rest.takeWhile (· != '\n')).length
      n + blankLength fuel (cs.drop n)
    | '/' :: '*' :: rest =>
      let n := 2 + commentLength rest
      n + blankLength fuel (cs.drop n)
    | c :: rest => if isSpace c then 1 + blankLength fuel rest else 0
    | [] => 0

/-- The characters between quotes, where a doubled quote is one, and the length with the closing
quote; nothing if there is none. -/
def quotedChars (quote : Char) : List Char → Option (List Char × Nat)
  | [] => none
  | c :: rest =>
    if c == quote then
      match rest with
      | d :: after =>
        if d == quote then (quotedChars quote after).map fun (cs, n) => (quote :: cs, n + 2)
        else some ([], 1)
      | [] => some ([], 1)
    else (quotedChars quote rest).map fun (cs, n) => (c :: cs, n + 1)

/-- How long the number is that the characters start with: digits, a point and digits, an
exponent. -/
def numberLength (cs : List Char) : Nat :=
  let whole := (cs.takeWhile Char.isDigit).length
  let fraction :=
    match cs.drop whole with
    | '.' :: rest => 1 + (rest.takeWhile Char.isDigit).length
    | _ => 0
  let exponent :=
    match cs.drop (whole + fraction) with
    | e :: rest =>
      if e == 'e' || e == 'E' then
        let sign :=
          match rest with
          | '+' :: _ => 1
          | '-' :: _ => 1
          | _ => 0
        let digits := ((rest.drop sign).takeWhile Char.isDigit).length
        if digits == 0 then 0 else 1 + sign + digits
      else 0
    | [] => 0
  whole + fraction + exponent

/-- The value of a number: an integer if it has digits only and is not too large. -/
def numberDatum (cs : List Char) : Datum :=
  let asDouble : Datum :=
    match Number.readDouble? cs with
    | some x => .ofDouble x
    | none => .null
  if cs.all Char.isDigit then
    match Number.readInt? cs with
    | some n => .int (Int64.ofInt n)
    | none => asDouble
  else asDouble

/-- The value of a hexadecimal digit. -/
def hexValue? (c : Char) : Option Nat :=
  if c.isDigit then some (c.toNat - 48)
  else if c.toLower.isAlpha && c.toLower ≤ 'f' then some (c.toLower.toNat - 87)
  else none

/-- The bytes that hexadecimal digits spell. -/
def blobBytes : List Char → Option Bytes
  | a :: b :: rest => do
    return UInt8.ofNat (16 * (← hexValue? a) + (← hexValue? b)) :: (← blobBytes rest)
  | [] => some []
  | [_] => none

/-- The integer after `0x`, whose bits hexadecimal digits spell, and its length with these two
characters. -/
def hexInteger? (digits : List Char) : Option (TokenKind × Nat) :=
  let digits := digits.takeWhile fun c => (hexValue? c).isSome
  let n := digits.foldl (fun n c => 16 * n + (hexValue? c).getD 0) 0
  if digits.isEmpty || twoTo 64 ≤ n then none
  else some (.number (.int (UInt64.ofNat n).toInt64), digits.length + 2)

/-- A hexadecimal integer that no word character follows. -/
def hexToken? (digits : List Char) : Option (TokenKind × Nat) :=
  (hexInteger? digits).filter fun token => !(digits[token.2 - 2]?).any isWordChar

/-- The token that the characters start with, and its length.  Nothing is read from characters that
start no token. -/
def tokenAt : List Char → Option (TokenKind × Nat)
  | [] => none
  | '?' :: rest =>
    let digits := rest.takeWhile Char.isDigit
    some (.parameter ((Number.readInt? digits).map Int.toNat), 1 + digits.length)
  | '\'' :: rest => (quotedChars '\'' rest).map fun (cs, n) => (.string (String.ofList cs), n + 1)
  | '"' :: rest => (quotedChars '"' rest).map fun (cs, n) => (.quotedName (String.ofList cs), n + 1)
  | '\x60' :: rest =>
    (quotedChars '\x60' rest).map fun (cs, n) => (.quotedName (String.ofList cs), n + 1)
  | '[' :: rest =>
    if rest.contains ']' then
      let name := rest.takeWhile (· != ']')
      some (.quotedName (String.ofList name), name.length + 2)
    else none
  | c :: rest =>
    match c, rest with
    | 'x', '\'' :: digits =>
      (quotedChars '\'' digits).bind fun (cs, n) =>
        (blobBytes cs).map fun data => (.blob data, n + 2)
    | 'X', '\'' :: digits =>
      (quotedChars '\'' digits).bind fun (cs, n) =>
        (blobBytes cs).map fun data => (.blob data, n + 2)
    | '0', 'x' :: digits => hexToken? digits
    | '0', 'X' :: digits => hexToken? digits
    | _, _ =>
      let n := numberLength (c :: rest)
      if c.isDigit || (c == '.' && 1 < n) then
        let after := (c :: rest).drop n
        if (after.head?.map isWordChar).getD false then none
        else some (.number (numberDatum ((c :: rest).take n)), n)
      else if isWordChar c then some (.word, ((c :: rest).takeWhile isWordChar).length)
      else some (.sign, 1)

/-- The characters that are no token: the rest of a text where a quotation is not closed, and else
what looks like one word or blob. -/
def illegalChars (cs : List Char) : List Char :=
  match cs with
  | '\'' :: _ | '"' :: _ | '\x60' :: _ | '[' :: _ => cs
  | x :: '\'' :: rest =>
    let digits := rest.takeWhile (· != '\'')
    x :: '\'' :: digits ++ (rest.drop digits.length).take 1
  | _ => cs.takeWhile isWordChar

/-- The tokens of a text from a place on, up to what starts no token. -/
def tokens (fuel start : Nat) (cs : List Char) : List Token :=
  match fuel with
  | 0 => []
  | fuel + 1 =>
    let blank := blankLength cs.length cs
    match cs.drop blank with
    | [] => []
    | rest =>
      match tokenAt rest with
      | some (kind, n) =>
        ⟨kind, rest.take n, start + blank⟩ :: tokens fuel (start + blank + n) (rest.drop n)
      | none => [⟨.illegal, illegalChars rest, start + blank⟩]

/-! ## Statements -/

/-- What is left to read, in a statement with this text; `parameters` numbers were given so far. -/
structure Reading where
  sql : String
  rest : List Token
  parameters : Nat

/-- Reading a part of a statement. -/
abbrev Read (α : Type) := Reading → Except SqliteError (α × Reading)

/-- The complaint about the next token. -/
def unexpected {α : Type} (r : Reading) : Except SqliteError α :=
  match r.rest with
  | [] => .error .incomplete
  | t :: _ =>
    let offset := (String.ofList (r.sql.toList.take t.start)).utf8ByteSize
    if t.kind == .illegal then .error (.illegalToken (String.ofList t.chars) r.sql offset)
    else .error (.syntaxNear (String.ofList t.chars) r.sql offset)

/-- Whether a token is a keyword. -/
def Token.isWord (t : Token) (keyword : String) : Bool :=
  t.kind == .word && String.ofList (t.chars.map Char.toUpper) == keyword

/-- Whether a token is a sign. -/
def Token.isSign (t : Token) (c : Char) : Bool :=
  t.kind == .sign && t.chars == [c]

/-- Words that are no names. -/
def reservedWords : List String :=
  ["SELECT", "FROM", "WHERE", "GROUP", "HAVING", "ORDER", "LIMIT", "UNION", "ALL", "AS", "NULL",
    "EXCEPT", "INTERSECT", "VALUES", "INTO", "SET", "CASE", "WHEN", "THEN", "ELSE", "AND", "OR",
    "NOT", "IN", "IS", "ON", "USING", "JOIN", "TABLE", "CREATE", "INSERT", "UPDATE", "DELETE",
    "DROP", "INDEX", "DISTINCT", "BETWEEN", "EXISTS", "DEFAULT", "PRIMARY", "UNIQUE", "CHECK",
    "COLLATE", "CONSTRAINT", "REFERENCES", "TRANSACTION", "COMMIT", "TO", "ISNULL", "NOTNULL",
    "ALTER", "ADD", "AUTOINCREMENT", "DEFERRABLE", "ESCAPE", "FOREIGN"]

/-- The name that a token is. -/
def Token.name? (t : Token) : Option String :=
  match t.kind with
  | .quotedName name => some name
  | .word =>
    if reservedWords.contains (String.ofList (t.chars.map Char.toUpper)) then none
    else some (String.ofList t.chars)
  | _ => none

/-- The number of the next parameter, and how many there are with it. -/
def parameterNumber (count : Nat) : Option Nat → Nat × Nat
  | some n => (n - 1, max count n)
  | none => (count, count + 1)

/-- The negative of a literal.  The least integer has no positive counterpart, so it is met as a
double here. -/
def Datum.negate : Datum → Datum
  | .int n => .int (-n)
  | .real x =>
    if x == Double.ofInt (twoTo 63) then .int Int64.minValue
    else .real ⟨x.bits ^^^ UInt64.ofNat (twoTo 63)⟩
  | d => d

/-- Reads an operand. -/
def readOperand : Read Operand := fun r =>
  match r.rest with
  | [] => unexpected r
  | t :: rest =>
    match t.kind with
    | .number d => .ok (.datum d, { r with rest := rest })
    | .string s => .ok (.datum (.text (Text.encode s)), { r with rest := rest })
    | .blob data => .ok (.datum (.blob data), { r with rest := rest })
    | .parameter number =>
      let (index, count) := parameterNumber r.parameters number
      .ok (.parameter index, { r with rest := rest, parameters := count })
    | .sign =>
      match rest with
      | ⟨.number d, _, _⟩ :: after =>
        if t.chars == ['-'] then .ok (.datum d.negate, { r with rest := after })
        else if t.chars == ['+'] then .ok (.datum d, { r with rest := after })
        else unexpected r
      | _ => unexpected r
    | .illegal => unexpected r
    | .word | .quotedName _ =>
      if t.isWord "NULL" then .ok (.datum .null, { r with rest := rest })
      else if t.isWord "TRUE" then .ok (.datum (.int 1), { r with rest := rest })
      else if t.isWord "FALSE" then .ok (.datum (.int 0), { r with rest := rest })
      else
        match t.name? with
        | some name =>
          let before := String.ofList (r.sql.toList.take t.start)
          if t.chars.head? == some '"' then
            .ok (.datum (.text (Text.encode name)), { r with rest := rest })
          else .error (.noSuchColumn name r.sql before.utf8ByteSize)
        | none => unexpected r

/-- The text from one token of a statement up to another, or to the end, which names an operand
without a name.  It ends with no white space. -/
def between (before after : Reading) : String :=
  let sql := before.sql.toList
  let start := (before.rest.head?.map Token.start).getD 0
  let finish := (after.rest.head?.map Token.start).getD sql.length
  String.ofList (((sql.take finish).drop start).reverse.dropWhile isSpace).reverse

/-- Reads an operand and its name. -/
def readColumn : Read (String × Operand) := fun r =>
  match readOperand r with
  | .error e => .error e
  | .ok (operand, after) =>
    match after.rest with
    | t :: rest =>
      if t.isWord "AS" then
        match rest with
        | n :: left =>
          match n.kind, n.name? with
          | .string s, _ => .ok ((s, operand), { after with rest := left })
          | _, some name => .ok ((name, operand), { after with rest := left })
          | _, none => unexpected { after with rest := rest }
        | [] => .error .incomplete
      else
        match t.kind, t.name? with
        | .string s, _ => .ok ((s, operand), { after with rest := rest })
        | _, some name => .ok ((name, operand), { after with rest := rest })
        | _, none => .ok ((between r after, operand), after)
    | [] => .ok ((between r after, operand), after)

/-- Reads operands with commas between them. -/
def readColumns (fuel : Nat) : Read (List (String × Operand)) := fun r =>
  match fuel with
  | 0 => unexpected r
  | fuel + 1 =>
    match readColumn r with
    | .error e => .error e
    | .ok (column, after) =>
      match after.rest with
      | t :: rest =>
        if t.isSign ',' then
          match readColumns fuel { after with rest := rest } with
          | .error e => .error e
          | .ok (columns, left) => .ok (column :: columns, left)
        else .ok ([column], after)
      | [] => .ok ([column], after)

/-- The error of a selection from a table: there are no tables. -/
def fromTable (r : Reading) : Except SqliteError Unit :=
  match r.rest with
  | t :: n :: _ =>
    if t.isWord "FROM" then
      match n.name? with
      | some name => .error (.noSuchTable name)
      | none => unexpected { r with rest := r.rest.tail }
    else .ok ()
  | [t] => if t.isWord "FROM" then .error .incomplete else .ok ()
  | [] => .ok ()

/-- Reads one selection. -/
def readSelect (r : Reading) : Except SqliteError (List (String × Operand) × Reading) :=
  match r.rest with
  | t :: rest =>
    if t.isWord "SELECT" then
      let body : Reading := { r with rest := rest }
      match rest with
      | star :: left =>
        if star.isSign '*' then
          match fromTable { r with rest := left } with
          | .error e => .error e
          | .ok () => .error .noTables
        else
          match fromTable { r with rest := ((rest.dropWhile fun u => !u.isWord "FROM")) } with
          | .error e => .error e
          | .ok () => readColumns rest.length body
      | [] => .error .incomplete
    else unexpected r
  | [] => .error .incomplete

/-- Reads selections with `UNION ALL` between them. -/
def readUnion (fuel : Nat) (r : Reading) :
    Except SqliteError (List (List (String × Operand)) × Reading) :=
  match fuel with
  | 0 => unexpected r
  | fuel + 1 =>
    match readSelect r with
    | .error e => .error e
    | .ok (columns, after) =>
      match after.rest with
      | t :: u :: rest =>
        if t.isWord "UNION" && u.isWord "ALL" then
          match readUnion fuel { after with rest := rest } with
          | .error e => .error e
          | .ok (others, left) => .ok (columns :: others, left)
        else .ok ([columns], after)
      | _ => .ok ([columns], after)

/-- Reads a statement. -/
def Select.parse (sql : String) : Except SqliteError Select :=
  let cs := sql.toList
  match tokens (cs.length + 1) 0 cs with
  | [] => .error .misuse
  | all =>
    match readUnion all.length ⟨sql, all, 0⟩ with
    | .error e => .error e
    | .ok (selections, after) =>
      let complete :=
        match after.rest with
        | [] => true
        | t :: _ => t.isSign ';'
      if complete then
        .ok {
          columns := (selections.headD []).map Prod.fst
          rows := selections.map fun s => s.map Prod.snd
          parameters := after.parameters }
      else unexpected after

/-- What a database without tables answers to a statement. -/
def query (sql : String) (params : List Param) : Except SourceError (List RawRow) :=
  match Select.parse sql with
  | .error e => .error (.sqlite e)
  | .ok s => s.answer params

end SqlMetrics.Sqlite
