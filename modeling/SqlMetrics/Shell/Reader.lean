import SqlMetrics.Shell.Program

/-!
# Reading shell programs

The grammar of the shell's command language on one line.  The reader goes through the text once and
holds at most one token ahead.  Words and programs nest, so the functions call one another with a
bound that is greater than the length of the text; each call either reads a character or hands over
to a function that stands lower in the grammar.
-/

namespace SqlMetrics.Shell.Reader

/-- The operators. -/
inductive Operator where
  | semicolon
  | ampersand
  | andAlso
  | orElse
  | pipe
  | openParen
  | closeParen
  | doubleSemicolon
deriving DecidableEq, Repr

/-- The text of an operator. -/
def Operator.text : Operator → String
  | .semicolon => ";"
  | .ampersand => "&"
  | .andAlso => "&&"
  | .orElse => "||"
  | .pipe => "|"
  | .openParen => "("
  | .closeParen => ")"
  | .doubleSemicolon => ";;"

/-- The reserved words. -/
def reserved : List String :=
  ["!", "case", "do", "done", "elif", "else", "esac", "fi", "for", "if", "in", "then", "until",
    "while", "\x7b", "\x7d"]

/-- A token. -/
inductive Token where
  | eof
  | newline
  | operator (o : Operator)
  | redirect (descriptor : Nat) (kind : RedirectKind)
  | word (w : Word)

/-- Why a text is no program. -/
inductive SyntaxError where
  | unexpected (token : String)
  | expecting (token wanted : String)
  | unterminatedQuote
  | unterminatedBackquote
  | badLoopVariable
  | badSubstitution
  | missingBrace
  | missingParentheses
  | unsupported
deriving DecidableEq, Repr

/-- The text of the error. -/
def SyntaxError.message : SyntaxError → String
  | .unexpected token => "Syntax error: " ++ token ++ " unexpected"
  | .expecting token wanted =>
    "Syntax error: " ++ token ++ " unexpected (expecting " ++ wanted ++ ")"
  | .unterminatedQuote => "Syntax error: Unterminated quoted string"
  | .unterminatedBackquote => "Syntax error: EOF in backquote substitution"
  | .badLoopVariable => "Syntax error: Bad for loop variable"
  | .badSubstitution => "Bad substitution"
  | .missingBrace => "Syntax error: Missing '\x7d'"
  | .missingParentheses => "Syntax error: Missing '))'"
  | .unsupported => "Syntax error: word unexpected"

/-- What is left to read. -/
structure Input where
  rest : List Char
  ahead : Option Token := none

/-- Reading from an input. -/
abbrev Read := StateT Input (Except SyntaxError)

/-- Ends the reading with an error. -/
def refuse {α : Type} (e : SyntaxError) : Read α :=
  fun _ => .error e

/-- A text between double quotes, as it is named in errors. -/
def named (s : String) : String :=
  "\"" ++ s ++ "\""

/-- The unquoted text of a word, if it is nothing else. -/
def literal? (w : Word) : Option String :=
  match w with
  | [.text false bytes] => some (Text.decodeLossy bytes)
  | _ => none

/-- The reserved word that a token is. -/
def reserved? : Token → Option String
  | .word w => (literal? w).filter reserved.contains
  | _ => none

/-- How a token is named in errors. -/
def Token.name (t : Token) : String :=
  match t with
  | .eof => "end of file"
  | .newline => "newline"
  | .operator o => named o.text
  | .redirect _ _ => "redirection"
  | .word _ => (reserved? t).elim "word" named

/-- Whether a character may start a name. -/
def isNameStart (c : Char) : Bool :=
  c.isAlpha || c == '_'

/-- Whether a character may stand in a name. -/
def isNameChar (c : Char) : Bool :=
  c.isAlphanum || c == '_'

/-- The parameters that have a name of one character. -/
def isSpecialName (c : Char) : Bool :=
  c.isDigit || c == '?' || c == '$' || c == '!' || c == '#' || c == '@' || c == '*' || c == '-'

/-- Adds a character to a word. -/
def pushChar (quoted : Bool) (c : Char) (w : Word) : Word :=
  match w.getLast? with
  | some (.text q bytes) =>
    if q == quoted then w.dropLast ++ [.text q (bytes ++ String.utf8EncodeChar c)]
    else w ++ [.text quoted (String.utf8EncodeChar c)]
  | _ => w ++ [.text quoted (String.utf8EncodeChar c)]

/-- Skips blanks, and a comment after them. -/
def skipBlanks (cs : List Char) : List Char :=
  match cs.dropWhile fun c => c == ' ' || c == '\t' with
  | '#' :: rest => rest.dropWhile (· != '\n')
  | rest => rest

/-- Whether a character ends an unquoted word. -/
def endsWord (c : Char) : Bool :=
  c == ' ' || c == '\t' || c == '\n' || c == ';' || c == '&' || c == '|' || c == '(' || c == ')' ||
    c == '<' || c == '>'

/-- The operator at the head of a text. -/
def operator? : List Char → Option (Token × List Char)
  | '\n' :: rest => some (.newline, rest)
  | ';' :: ';' :: rest => some (.operator .doubleSemicolon, rest)
  | ';' :: rest => some (.operator .semicolon, rest)
  | '&' :: '&' :: rest => some (.operator .andAlso, rest)
  | '&' :: rest => some (.operator .ampersand, rest)
  | '|' :: '|' :: rest => some (.operator .orElse, rest)
  | '|' :: rest => some (.operator .pipe, rest)
  | '(' :: rest => some (.operator .openParen, rest)
  | ')' :: rest => some (.operator .closeParen, rest)
  | '<' :: '&' :: rest => some (.redirect 0 .duplicate, rest)
  | '<' :: rest => some (.redirect 0 .input, rest)
  | '>' :: '&' :: rest => some (.redirect 1 .duplicate, rest)
  | '>' :: '>' :: rest => some (.redirect 1 .output, rest)
  | '>' :: '|' :: rest => some (.redirect 1 .output, rest)
  | '>' :: rest => some (.redirect 1 .output, rest)
  | _ => none

/-- A redirection that starts with the number of a descriptor. -/
def numberedRedirect? (cs : List Char) : Option (Token × List Char) :=
  match cs with
  | d :: rest =>
    if d.isDigit then
      match operator? rest with
      | some (.redirect _ kind, rest) => some (.redirect (d.toNat - 48) kind, rest)
      | _ => none
    else none
  | [] => none

/-- The text up to an unescaped backquote, and the text after it. -/
def backquoted : List Char → Option (List Char × List Char)
  | [] => none
  | '\x60' :: rest => some ([], rest)
  | '\\' :: c :: rest =>
    let keep := if c == '\x60' || c == '$' || c == '\\' then [c] else ['\\', c]
    (backquoted rest).map fun r => (keep ++ r.1, r.2)
  | c :: rest => (backquoted rest).map fun r => (c :: r.1, r.2)

/-- What is read, without taking it. -/
def look : Read (List Char) := do
  return (← get).rest

/-- Takes so many characters. -/
def skip (n : Nat) : Read Unit :=
  modify fun i => { i with rest := i.rest.drop n }

/-- Puts a token back. -/
def putBack (t : Token) : Read Unit :=
  modify fun i => { i with ahead := some t }

/-- The assignment that a word is, where it may be one. -/
def assignment? (w : Word) : Option (String × Word) :=
  match w with
  | .text false bytes :: rest =>
    let cs := (Text.decodeLossy bytes).toList
    let name := cs.takeWhile isNameChar
    match cs.dropWhile isNameChar with
    | '=' :: value =>
      if name.head?.any isNameStart then
        let first : Word :=
          if value.isEmpty then [] else [.text false (Text.Utf8.encodeChars value)]
        some (String.ofList name, first ++ rest)
      else none
    | _ => none
  | _ => none

/-- The form in which a braced variable is used, by the characters after its name. -/
def formOf (orEmpty : Bool) (c : Char) (word : Word) : Option VariableForm :=
  match c with
  | '-' => some (.orElse orEmpty word)
  | '=' => some (.orAssign orEmpty word)
  | '+' => some (.ifGiven orEmpty word)
  | '?' => some (.orFail orEmpty word)
  | _ => none

mutual

/-- Reads the next token. -/
def token : Nat → Read Token
  | 0 => refuse .unsupported
  | fuel + 1 => do
    match (← get).ahead with
    | some t =>
      modify fun i => { i with ahead := none }
      return t
    | none =>
      modify fun i => { i with rest := skipBlanks i.rest }
      let cs ← look
      if cs.isEmpty then return .eof
      else
        match (numberedRedirect? cs).or (operator? cs) with
        | some (t, rest) =>
          modify fun i => { i with rest := rest }
          return t
        | none => return .word (← word fuel [])

/-- Reads the rest of an unquoted word. -/
def word : Nat → Word → Read Word
  | 0, _ => refuse .unsupported
  | fuel + 1, w => do
    match ← look with
    | [] => return w
    | '\\' :: c :: _ =>
      skip 2
      word fuel (w ++ [.text true (String.utf8EncodeChar c)])
    | '\'' :: rest =>
      match rest.dropWhile (· != '\'') with
      | [] => refuse .unterminatedQuote
      | _ :: _ =>
        let quoted := rest.takeWhile (· != '\'')
        skip (quoted.length + 2)
        word fuel (w ++ [.text true (Text.Utf8.encodeChars quoted)])
    | '"' :: _ =>
      skip 1
      let quoted ← doubleQuoted fuel [.text true []]
      word fuel (w ++ quoted)
    | '$' :: _ =>
      skip 1
      let piece ← dollar fuel false
      word fuel (w ++ [piece])
    | '\x60' :: _ =>
      skip 1
      let piece ← backquote fuel false
      word fuel (w ++ [piece])
    | c :: _ =>
      if endsWord c then return w
      else
        skip 1
        word fuel (pushChar false c w)

/-- Reads up to the closing double quote. -/
def doubleQuoted : Nat → Word → Read Word
  | 0, _ => refuse .unsupported
  | fuel + 1, w => do
    match ← look with
    | [] => refuse .unterminatedQuote
    | '"' :: _ =>
      skip 1
      return w
    | '\\' :: c :: _ =>
      skip 2
      if c == '$' || c == '\x60' || c == '"' || c == '\\' then
        doubleQuoted fuel (pushChar true c w)
      else doubleQuoted fuel (pushChar true c (pushChar true '\\' w))
    | '$' :: _ =>
      skip 1
      let piece ← dollar fuel true
      doubleQuoted fuel (w ++ [piece])
    | '\x60' :: _ =>
      skip 1
      let piece ← backquote fuel true
      doubleQuoted fuel (w ++ [piece])
    | c :: _ =>
      skip 1
      doubleQuoted fuel (pushChar true c w)

/-- Reads what follows a dollar sign. -/
def dollar : Nat → Bool → Read Piece
  | 0, _ => refuse .unsupported
  | fuel + 1, quoted => do
    match ← look with
    | '(' :: '(' :: _ =>
      skip 2
      return .arithmetic quoted (← arithmetic fuel 0 [])
    | '(' :: _ =>
      skip 1
      let body ← list fuel false .nothing
      match ← token fuel with
      | .operator .closeParen => return .output quoted body
      | t => refuse (.expecting t.name (named ")"))
    | '\x7b' :: rest =>
      skip 1
      braced fuel quoted rest
    | c :: rest =>
      if isNameStart c then
        let name := c :: rest.takeWhile isNameChar
        skip name.length
        return .parameter quoted (String.ofList name) .value
      else if isSpecialName c then
        skip 1
        return .parameter quoted c.toString .value
      else return .text quoted [36]
    | [] => return .text quoted [36]

/-- Reads a variable in braces, after the opening one. -/
def braced : Nat → Bool → List Char → Read Piece
  | 0, _, _ => refuse .unsupported
  | fuel + 1, quoted, cs => do
    match cs with
    | '#' :: c :: rest =>
      if isNameStart c then
        let name := c :: rest.takeWhile isNameChar
        match rest.dropWhile isNameChar with
        | '\x7d' :: _ =>
          skip (name.length + 2)
          return .parameter quoted (String.ofList name) .length
        | _ => refuse .badSubstitution
      else refuse .badSubstitution
    | c :: rest =>
      let name :=
        if isNameStart c then c :: rest.takeWhile isNameChar
        else if isSpecialName c then [c] else []
      if name.isEmpty then refuse .badSubstitution
      else
        skip name.length
        let text := String.ofList name
        match ← look with
        | '\x7d' :: _ =>
          skip 1
          return .parameter quoted text .value
        | ':' :: f :: _ =>
          skip 2
          let w ← bracedWord fuel []
          match formOf true f w with
          | some form => return .parameter quoted text form
          | none => refuse .badSubstitution
        | f :: _ =>
          skip 1
          let w ← bracedWord fuel []
          match formOf false f w with
          | some form => return .parameter quoted text form
          | none => refuse .badSubstitution
        | [] => refuse .missingBrace
    | [] => refuse .missingBrace

/-- Reads a word up to the closing brace. -/
def bracedWord : Nat → Word → Read Word
  | 0, _ => refuse .unsupported
  | fuel + 1, w => do
    match ← look with
    | [] => refuse .missingBrace
    | '\x7d' :: _ =>
      skip 1
      return w
    | '"' :: _ =>
      skip 1
      let quoted ← doubleQuoted fuel [.text true []]
      bracedWord fuel (w ++ quoted)
    | '$' :: _ =>
      skip 1
      let piece ← dollar fuel false
      bracedWord fuel (w ++ [piece])
    | c :: _ =>
      skip 1
      bracedWord fuel (pushChar false c w)

/-- Reads an arithmetic expression up to the two closing parentheses. -/
def arithmetic : Nat → Nat → Word → Read Word
  | 0, _, _ => refuse .unsupported
  | fuel + 1, depth, w => do
    match ← look with
    | [] => refuse .missingParentheses
    | '$' :: _ =>
      skip 1
      let piece ← dollar fuel true
      arithmetic fuel depth (w ++ [piece])
    | '\x60' :: _ =>
      skip 1
      let piece ← backquote fuel true
      arithmetic fuel depth (w ++ [piece])
    | '(' :: _ =>
      skip 1
      arithmetic fuel (depth + 1) (pushChar true '(' w)
    | ')' :: rest =>
      match depth, rest with
      | 0, ')' :: _ =>
        skip 2
        return w
      | 0, _ => refuse (.expecting (named ")") (named "))"))
      | d + 1, _ =>
        skip 1
        arithmetic fuel d (pushChar true ')' w)
    | c :: _ =>
      skip 1
      arithmetic fuel depth (pushChar true c w)

/-- Reads a program between backquotes, after the first of them. -/
def backquote : Nat → Bool → Read Piece
  | 0, _ => refuse .unsupported
  | fuel + 1, quoted => do
    match backquoted (← look) with
    | none => refuse .unterminatedBackquote
    | some (text, rest) =>
      match (list fuel true .nothing).run ⟨text, none⟩ with
      | .error e => refuse e
      | .ok (body, _) =>
        modify fun i => { i with rest := rest }
        return .output quoted body

/-- Reads a list of programs.  The whole text is one list; a list inside something else ends where a
token stands that cannot go on with it. -/
def list : Nat → Bool → Program → Read Program
  | 0, _, _ => refuse .unsupported
  | fuel + 1, whole, before => do
    let t ← token fuel
    match t with
    | .eof =>
      putBack .eof
      return before
    | .newline => list fuel whole before
    | _ =>
      putBack t
      let ends :=
        match t with
        | .operator .closeParen | .operator .doubleSemicolon => true
        | _ => (reserved? t).any fun r =>
          ["do", "done", "elif", "else", "esac", "fi", "then", "\x7d"].contains r
      let started :=
        match before with
        | .nothing => false
        | _ => true
      if !whole && started && ends then return before
      else
        let next ← andOr fuel
        let join (p : Program) : Program :=
          match before with
          | .nothing => p
          | _ => .sequence before p
        match ← token fuel with
        | .eof =>
          putBack .eof
          return join next
        | .operator .semicolon | .newline => list fuel whole (join next)
        | .operator .ampersand => list fuel whole (join (.background next))
        | t =>
          if whole then refuse (.unexpected t.name)
          else
            putBack t
            return join next

/-- Reads pipelines joined by `&&` and `||`. -/
def andOr : Nat → Read Program
  | 0 => refuse .unsupported
  | fuel + 1 => do
    let first ← pipeline fuel
    andOrRest fuel first

/-- Reads the rest of pipelines joined by `&&` and `||`. -/
def andOrRest : Nat → Program → Read Program
  | 0, _ => refuse .unsupported
  | fuel + 1, first => do
    match ← token fuel with
    | .operator .andAlso => andOrRest fuel (.both first (← pipeline fuel))
    | .operator .orElse => andOrRest fuel (.either first (← pipeline fuel))
    | t =>
      putBack t
      return first

/-- Reads a pipeline. -/
def pipeline : Nat → Read Program
  | 0 => refuse .unsupported
  | fuel + 1 => do
    let t ← token fuel
    let negated := reserved? t == some "!"
    if !negated then putBack t
    let first ← command fuel
    let rest ← pipelineRest fuel
    if negated || !rest.isEmpty then return .pipeline negated (first :: rest) else return first

/-- Reads the rest of a pipeline. -/
def pipelineRest : Nat → Read (List Program)
  | 0 => refuse .unsupported
  | fuel + 1 => do
    match ← token fuel with
    | .operator .pipe => do
      let next ← command fuel
      return next :: (← pipelineRest fuel)
    | t =>
      putBack t
      return []

/-- Reads one command. -/
def command : Nat → Read Program
  | 0 => refuse .unsupported
  | fuel + 1 => do
    let t ← token fuel
    match reserved? t with
    | some "if" =>
      let (test, ifTrue, ifFalse) ← branches fuel
      close fuel "fi"
      return .conditional test ifTrue ifFalse (← redirects fuel)
    | some "while" => loopCommand fuel true
    | some "until" => loopCommand fuel false
    | some "for" => forCommand fuel
    | some "\x7b" =>
      let body ← list fuel false .nothing
      close fuel "\x7d"
      return .group body (← redirects fuel)
    | some r => refuse (.unexpected (named r))
    | none =>
      match t with
      | .operator .openParen =>
        let body ← list fuel false .nothing
        match ← token fuel with
        | .operator .closeParen => return .subshell body (← redirects fuel)
        | t => refuse (.expecting t.name (named ")"))
      | .word _ | .redirect _ _ =>
        putBack t
        simple fuel [] [] []
      | t => refuse (.unexpected t.name)

/-- Takes a reserved word. -/
def close : Nat → String → Read Unit
  | 0, _ => refuse .unsupported
  | fuel + 1, wanted => do
    let t ← token fuel
    if reserved? t == some wanted then return ()
    else refuse (.expecting t.name (named wanted))

/-- Reads the tests and branches after `if` or `elif`. -/
def branches : Nat → Read (Program × Program × Program)
  | 0 => refuse .unsupported
  | fuel + 1 => do
    let test ← list fuel false .nothing
    close fuel "then"
    let ifTrue ← list fuel false .nothing
    let t ← token fuel
    match reserved? t with
    | some "elif" =>
      let (test', ifTrue', ifFalse') ← branches fuel
      return (test, ifTrue, .conditional test' ifTrue' ifFalse' [])
    | some "else" => return (test, ifTrue, ← list fuel false .nothing)
    | _ =>
      putBack t
      return (test, ifTrue, .nothing)

/-- Reads a loop after `while` or `until`. -/
def loopCommand : Nat → Bool → Read Program
  | 0, _ => refuse .unsupported
  | fuel + 1, wanted => do
    let test ← list fuel false .nothing
    close fuel "do"
    let body ← list fuel false .nothing
    close fuel "done"
    return .loop wanted test body (← redirects fuel)

/-- Reads a loop after `for`. -/
def forCommand : Nat → Read Program
  | 0 => refuse .unsupported
  | fuel + 1 => do
    match ← token fuel with
    | .word w =>
      match literal? w with
      | some name =>
        let cs := name.toList
        if !(cs.head?.any isNameStart && cs.all isNameChar) then refuse .badLoopVariable
        else
          let t ← token fuel
          let words ←
            if reserved? t == some "in" then forWords fuel
            else
              match t with
              | .operator .semicolon => pure []
              | t => do
                putBack t
                pure []
          close fuel "do"
          let body ← list fuel false .nothing
          close fuel "done"
          return .forEach name words body (← redirects fuel)
      | none => refuse .badLoopVariable
    | _ => refuse .badLoopVariable

/-- Reads the words of a loop, up to the semicolon. -/
def forWords : Nat → Read (List Word)
  | 0 => refuse .unsupported
  | fuel + 1 => do
    match ← token fuel with
    | .word w => return w :: (← forWords fuel)
    | .operator .semicolon | .newline => return []
    | t => refuse (.unexpected t.name)

/-- Reads the redirections after a command. -/
def redirects : Nat → Read (List Redirect)
  | 0 => refuse .unsupported
  | fuel + 1 => do
    match ← token fuel with
    | .redirect descriptor kind => do
      let r ← redirectTarget fuel descriptor kind
      return r :: (← redirects fuel)
    | t =>
      putBack t
      return []

/-- Reads the target of a redirection. -/
def redirectTarget : Nat → Nat → RedirectKind → Read Redirect
  | 0, _, _ => refuse .unsupported
  | fuel + 1, descriptor, kind => do
    match ← token fuel with
    | .word w => return .mk descriptor kind w
    | t => refuse (.unexpected t.name)

/-- Reads the rest of a simple command. -/
def simple : Nat → List (String × Word) → List Word → List Redirect → Read Program
  | 0, _, _, _ => refuse .unsupported
  | fuel + 1, assignments, words, targets => do
    match ← token fuel with
    | .word w =>
      match if words.isEmpty then assignment? w else none with
      | some a => simple fuel (assignments ++ [a]) words targets
      | none => simple fuel assignments (words ++ [w]) targets
    | .redirect descriptor kind =>
      let r ← redirectTarget fuel descriptor kind
      simple fuel assignments words (targets ++ [r])
    | t =>
      putBack t
      return .simple assignments words targets

end

/-- The program that a text spells. -/
def program (text : String) : Except SyntaxError Program :=
  let cs := text.toList
  ((list (16 * cs.length + 64) true .nothing).run ⟨cs, none⟩).map (·.1)

end SqlMetrics.Shell.Reader
