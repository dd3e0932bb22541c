import SqlMetrics.Toml.Scalar

/-!
# TOML documents

A document is read line by line: keys with values, headers that say to which table the keys after
them belong, and comments.  Values may be nested only so deep.
-/

namespace SqlMetrics.Toml

/-- The characters without blanks at the start. -/
def dropBlanks (cs : List Char) : List Char :=
  cs.dropWhile isBlank

/-! ## Keys -/

/-- A key without dots. -/
def simpleKey (cs : List Char) : Reading String :=
  match cs with
  | '"' :: rest => (basicString rest).map fun (k, rest) => (String.ofList k, rest)
  | '\'' :: rest => (literalString rest).map fun (k, rest) => (String.ofList k, rest)
  | _ =>
    let k := cs.takeWhile isBareChar
    if k.isEmpty then none else some (String.ofList k, cs.dropWhile isBareChar)

/-- A key: one or more simple keys with dots between them.  Gives the keys on the way and the last
one. -/
def dottedKey (fuel : Nat) (before : List String) (cs : List Char) :
    Reading (List String × String) :=
  match fuel with
  | 0 => none
  | fuel + 1 =>
    (simpleKey (dropBlanks cs)).bind fun (k, rest) =>
      match dropBlanks rest with
      | '.' :: rest => dottedKey fuel (before ++ [k]) rest
      | rest => some ((before, k), rest)

/-- How many keys a dotted key may have, and how deep values may be nested, less one. -/
def deepest : Nat := 79

/-- A key, with the blanks around it. -/
def key? (cs : List Char) : Reading (List String × String) :=
  dottedKey deepest [] cs

/-! ## Values -/

/-- Skips a comment up to the end of its line. -/
def skipComment (cs : List Char) : Option (List Char) :=
  match cs with
  | '#' :: rest =>
    match rest.dropWhile isCommentChar with
    | [] => some []
    | after => if (splitBreak after).isSome then some after else none
  | _ => some cs

/-- Skips blanks, line breaks and comments, as they may stand in an array. -/
def skipLines (fuel : Nat) (cs : List Char) : Option (List Char) :=
  match fuel with
  | 0 => some cs
  | fuel + 1 =>
    let cs := dropBlanks cs
    match splitBreak cs with
    | some rest => skipLines fuel rest
    | none =>
      match cs with
      | '#' :: _ => (skipComment cs).bind (skipLines fuel)
      | _ => some cs

/-- A value that starts like a number. -/
def numeric? (cs : List Char) : Reading Item :=
  if startsTime cs || startsDate cs then dateTime? cs else number? cs

/-- A value that holds no others. -/
def scalar? (cs : List Char) : Reading Item :=
  match cs with
  | '"' :: _ => (string? cs).map fun (s, rest) => (.string s, rest)
  | '\'' :: _ => (string? cs).map fun (s, rest) => (.string s, rest)
  | 't' :: 'r' :: 'u' :: 'e' :: rest => some (.boolean true, rest)
  | 'f' :: 'a' :: 'l' :: 's' :: 'e' :: rest => some (.boolean false, rest)
  | _ => numeric? cs

mutual

/-- A value, which may still hold others to the given depth. -/
def value? (fuel depth : Nat) (cs : List Char) : Reading Item :=
  match fuel with
  | 0 => none
  | fuel + 1 =>
    match cs with
    | '[' :: rest =>
      if depth == 0 then none
      else (items? fuel (depth - 1) rest).map fun (items, rest) => (.array items, rest)
    | '\x7b' :: rest =>
      if depth == 0 then none
      else
        match dropBlanks rest with
        | '\x7d' :: rest => some (.inlineTable [], rest)
        | rest =>
          (pairs? fuel (depth - 1) rest).bind fun (pairs, rest) =>
            (inlineOf pairs).map fun t => (.inlineTable t, rest)
    | _ => scalar? cs

/-- The values of an array, up to its closing bracket. -/
def items? (fuel depth : Nat) (cs : List Char) : Reading (List Item) :=
  match fuel with
  | 0 => none
  | fuel + 1 =>
    (skipLines cs.length cs).bind fun cs =>
      match cs with
      | ']' :: rest => some ([], rest)
      | _ =>
        (value? fuel depth cs).bind fun (item, rest) =>
          (skipLines rest.length rest).bind fun rest =>
            match rest with
            | ']' :: rest => some ([item], rest)
            | ',' :: rest => (items? fuel depth rest).map fun (more, rest) => (item :: more, rest)
            | _ => none

/-- The keys and values of a table in braces, up to its closing brace. -/
def pairs? (fuel depth : Nat) (cs : List Char) : Reading (List (List String × String × Item)) :=
  match fuel with
  | 0 => none
  | fuel + 1 =>
    (key? cs).bind fun ((path, k), rest) =>
      match rest with
      | '=' :: rest =>
        (value? fuel depth (dropBlanks rest)).bind fun (item, rest) =>
          match dropBlanks rest with
          | '\x7d' :: rest => some ([(path, k, item)], rest)
          | ',' :: rest =>
            (pairs? fuel depth rest).map fun (more, rest) => ((path, k, item) :: more, rest)
          | _ => none
      | _ => none

end

/-! ## Lines -/

/-- Skips what may stand after a key and its value, or after a header, up to the next line. -/
def endLine (cs : List Char) : Option (List Char) :=
  (skipComment (dropBlanks cs)).bind fun rest =>
    match rest with
    | [] => some []
    | _ => splitBreak rest

/-- The path of a header. -/
def headerPath (path : List String) (k : String) : List String :=
  path ++ [k]

/-- Reads the lines of a document.  The keys go into the table with the path `header`. -/
def lines? (fuel : Nat) (root : Table) (header : List String) (cs : List Char) : Option Table :=
  match fuel with
  | 0 => none
  | fuel + 1 =>
    match dropBlanks cs with
    | [] => some root
    | '#' :: rest => (endLine ('#' :: rest)).bind (lines? fuel root header)
    | '[' :: '[' :: rest =>
      (key? rest).bind fun ((path, k), rest) =>
        match rest with
        | ']' :: ']' :: rest =>
          (endLine rest).bind fun rest =>
            (descend false (openElement k) path false root).bind fun root =>
              lines? fuel root (headerPath path k) rest
        | _ => none
    | '[' :: rest =>
      (key? rest).bind fun ((path, k), rest) =>
        match rest with
        | ']' :: rest =>
          (endLine rest).bind fun rest =>
            (descend false (openTable k) path false root).bind fun root =>
              lines? fuel root (headerPath path k) rest
        | _ => none
    | line =>
      match splitBreak line with
      | some rest => lines? fuel root header rest
      | none =>
        (key? line).bind fun ((path, k), rest) =>
          match rest with
          | '=' :: rest =>
            (value? (2 * rest.length + 2) deepest (dropBlanks rest)).bind fun (item, rest) =>
              (endLine rest).bind fun rest =>
                (descend false (setKey path k item) header false root).bind fun root =>
                  lines? fuel root header rest
          | _ => none

/-- Reads a document, which may start with a byte order mark. -/
def parse? (s : String) : Option Table :=
  let cs :=
    match s.toList with
    | '\uFEFF' :: rest => rest
    | cs => cs
  lines? (cs.length + 1) [] [] cs

end SqlMetrics.Toml
