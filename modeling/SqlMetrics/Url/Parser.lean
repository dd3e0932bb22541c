import SqlMetrics.Url

/-!
# Reading URLs

The text of a URL is read from left to right: scheme, authority, path, query and fragment.  Control
characters and spaces around the text are dropped, and so are tabs and line breaks in it.  The path
is put in its normal form, in which no segment is `.` or `..`.

The special schemes are read leniently: any number of slashes, and backslashes for them, may stand
before the authority.  `file` is one of them, but its authority has only a host, and slashes at the
start of its path count as one.
-/

namespace SqlMetrics.Url

/-- What is left of a text when control characters, spaces, tabs and line breaks are dropped. -/
def visible (s : String) : List Char :=
  let isEdge (c : Char) : Bool := c.toNat ≤ 0x20
  (((s.toList.dropWhile isEdge).reverse.dropWhile isEdge).reverse).filter fun c => !isDropped c

/-- Whether a character may stand in a scheme after the first letter. -/
def isSchemeChar (c : Char) : Bool :=
  c.isAlphanum || c == '+' || c == '-' || c == '.'

/-- Splits off the scheme, in lower case. -/
def splitScheme? (cs : List Char) : Option (String × List Char) :=
  match cs with
  | c :: _ =>
    if c.isAlpha then
      match cs.dropWhile isSchemeChar with
      | ':' :: rest => some (String.ofList ((cs.takeWhile isSchemeChar).map Char.toLower), rest)
      | _ => none
    else none
  | [] => none

/-! ## Paths -/

/-- A character that ends a segment. -/
def isSlash (special : Bool) (c : Char) : Bool :=
  c == '/' || (special && c == '\\')

/-- A character that ends a path. -/
def endsPath (c : Char) : Bool :=
  c == '?' || c == '#'

/-- The dots that a segment consists of, where a dot may be escaped. -/
def dotCount? : List Char → Option Nat
  | [] => some 0
  | '.' :: rest => (dotCount? rest).map (· + 1)
  | '%' :: '2' :: 'e' :: rest => (dotCount? rest).map (· + 1)
  | '%' :: '2' :: 'E' :: rest => (dotCount? rest).map (· + 1)
  | _ => none

/-- A segment as it is kept: a drive letter at the start of the path of a file has a colon. -/
def keptSegment (isFile : Bool) (before : List String) (cs : List Char) : List Char :=
  match cs with
  | [letter, _] => if isFile && before.isEmpty && isDriveLetter cs then [letter, ':'] else cs
  | _ => cs

/-- Ends a segment; `more` says that a slash ends it, so that another one follows. -/
def endSegment (isFile : Bool) (before : List String) (cs : List Char) (more : Bool) :
    List String :=
  let escaped := escape .path cs
  match dotCount? escaped with
  -- At the end of a path a dot segment leaves an empty one: the path is that of a directory.
  | some 1 => if more then before else before ++ [""]
  | some 2 => if more then dropSegment before else dropSegment before ++ [""]
  | _ => before ++ [String.ofList (keptSegment isFile before escaped)]

/-- Reads segments up to the end of the path, after the segments `before` and the characters
`current` of a segment. -/
def readSegments (special isFile : Bool) (before : List String) (current : List Char) :
    List Char → List String × List Char
  | [] => (endSegment isFile before current false, [])
  | c :: rest =>
    if endsPath c then (endSegment isFile before current false, c :: rest)
    else if isSlash special c then
      readSegments special isFile (endSegment isFile before current true) [] rest
    else readSegments special isFile before (current ++ [c]) rest

/-- Reads the path after an authority. -/
def readPath (special isFile : Bool) (cs : List Char) : List String × List Char :=
  match cs with
  | [] => (if special then [""] else [], [])
  | c :: rest =>
    if isSlash special c then readSegments special isFile [] [] rest
    else if endsPath c && !special then ([], cs)
    else readSegments special isFile [] [] cs

/-- Reads a path that is a plain text. -/
def readPlainPath (cs : List Char) : String × List Char :=
  (String.ofList (escape .controls (cs.takeWhile fun c => !endsPath c)),
    cs.dropWhile fun c => !endsPath c)

/-! ## Authorities -/

/-- A character that ends an authority. -/
def endsAuthority (special : Bool) (c : Char) : Bool :=
  isSlash special c || endsPath c

/-- Splits a list at the last occurrence of a character. -/
def splitLast (mark : Char) (cs : List Char) : Option (List Char × List Char) :=
  if cs.contains mark then
    let after := (cs.reverse.takeWhile (· != mark)).reverse
    some (cs.take (cs.length - after.length - 1), after)
  else none

/-- The user name and password of a userinfo; an empty password is none. -/
def readUserinfo (cs : List Char) : String × Option String :=
  let encode (part : List Char) : String := String.ofList (escape .userinfo part)
  let name := cs.takeWhile (· != ':')
  match cs.dropWhile (· != ':') with
  | _ :: c :: rest => (encode name, some (encode (c :: rest)))
  | _ => (encode name, none)

/-- Splits a host from what follows it; a colon in brackets belongs to the host. -/
def splitHost (bracketed : Bool) : List Char → List Char × List Char
  | [] => ([], [])
  | c :: rest =>
    if c == ':' && !bracketed then ([], c :: rest)
    else
      let inside := if c == '[' then true else if c == ']' then false else bracketed
      let (host, after) := splitHost inside rest
      (c :: host, after)

/-- Reads a port: nothing, or a colon and digits; the default port of the scheme is none. -/
def readPort? (scheme : String) : List Char → Option (Option Nat)
  | [] => some none
  | _ :: digits =>
    if digits.isEmpty then some none
    else if digits.all Char.isDigit then
      match readBase 10 digits with
      | some n =>
        if 65535 < n then none
        else some (if defaultPort? scheme == some n then none else some n)
      | none => none
    else none

/-- Where an authority ends.  A backslash ends it in the special schemes, and elsewhere only where
it follows the host. -/
def splitAuthority (special : Bool) (cs : List Char) : List Char × List Char :=
  (cs.takeWhile fun c => !endsAuthority special c, cs.dropWhile fun c => !endsAuthority special c)

/-- Splits the digits of a port from a path that starts with a backslash. -/
def splitPort (cs : List Char) : List Char × List Char :=
  (cs.takeWhile (· != '\\'), cs.dropWhile (· != '\\'))

/-- Reads an authority; with it goes what stands before the path but is not of the authority.  An
empty host may follow an at sign only where the URL ends. -/
def readAuthority? (scheme : String) (cs : List Char) (atEnd : Bool) :
    Option (Authority × List Char) := do
  let special := isSpecial scheme
  -- Only the last at sign ends the userinfo; those before it are escaped.
  let (userinfo, hostPort) := (splitLast '@' cs).getD ([], cs)
  if cs == ['@'] && !atEnd then none
  let (username, password) := readUserinfo userinfo
  let (hostChars, afterHost) := splitHost false hostPort
  let (portChars, left) := splitPort afterHost
  let port ← readPort? scheme portChars
  if hostChars.isEmpty then
    if special || !portChars.isEmpty || !username.isEmpty || password.isSome then none
    else some (⟨username, password, none, port⟩, left)
  else
    let host ← if special then Host.parseSpecial? hostChars else Host.parseOther? hostChars
    some (⟨username, password, some host, port⟩, left)

/-- The host of a file, where `localhost` is none. -/
def readFileHost? (cs : List Char) : Option (Option Host) :=
  if cs.isEmpty then some none
  else
    match Host.parseSpecial? cs with
    | some (.domain "localhost") => some none
    | some host => some (some host)
    | none => none

/-! ## Whole URLs -/

/-- The query and fragment at the end of a URL. -/
def readTail (special : Bool) (cs : List Char) : Option String × Option String :=
  let fragmentOf (rest : List Char) : Option String :=
    match rest with
    | '#' :: f => some (String.ofList (escape .fragment f))
    | _ => none
  match cs with
  | '?' :: rest =>
    let set := if special then EscapeSet.specialQuery else EscapeSet.query
    (some (String.ofList (escape set (rest.takeWhile (· != '#')))),
      fragmentOf (rest.dropWhile (· != '#')))
  | _ => (none, fragmentOf cs)

/-- Puts the parts of a URL together. -/
def assemble (scheme : String) (authority : Option Authority) (path : Path) (rest : List Char) :
    Url :=
  let (query, fragment) := readTail (isSpecial scheme) rest
  ⟨scheme, authority, path, query, fragment⟩

/-- The path of a file: slashes at its start count as one, and a drive letter at its start leaves no
host. -/
def fileUrl (host : Option Host) (cs : List Char) : Url :=
  let (segments, rest) := readPath true true cs
  let kept :=
    match segments.dropWhile (· == "") with
    | [] => [""]
    | kept => kept
  let driven := (segments.head?.map fun s => isDriveLetter s.toList).getD false
  assemble "file" (some ⟨"", none, if driven then none else host, none⟩) (.segments kept) rest

/-- Reads what follows the scheme of a file. -/
def readFile? (cs : List Char) : Option Url :=
  match cs with
  | a :: b :: rest =>
    if isSlash true a && isSlash true b then
      let hostChars := rest.takeWhile fun c => !endsAuthority true c
      -- What stands where the host would be may already be the drive of the path.
      if isDriveLetter hostChars then some (fileUrl none rest)
      else
        match readFileHost? hostChars with
        | some host => some (fileUrl host (rest.dropWhile fun c => !endsAuthority true c))
        | none => none
    else some (fileUrl none cs)
  | _ => some (fileUrl none cs)

/-- Reads what follows the double slash. -/
def readAfterSlashes? (scheme : String) (cs : List Char) : Option Url := do
  let special := isSpecial scheme
  let (before, after) := splitAuthority special cs
  let (authority, left) ← readAuthority? scheme before after.isEmpty
  let (segments, rest) := readPath special false (left ++ after)
  some (assemble scheme (some authority) (.segments segments) rest)

/-- Reads a text as a URL. -/
def parse? (s : String) : Option Url :=
  match splitScheme? (visible s) with
  | none => none
  | some (scheme, rest) =>
    if scheme == "file" then readFile? rest
    else if isSpecial scheme then
      -- Any number of slashes will do, also none.
      readAfterSlashes? scheme (rest.dropWhile (isSlash true))
    else
      match rest with
      | '/' :: '/' :: after => readAfterSlashes? scheme after
      | '/' :: after =>
        -- A single slash starts a path without an authority.
        let (segments, left) := readSegments false false [] [] after
        some (assemble scheme none (.segments segments) left)
      | _ =>
        let (path, left) := readPlainPath rest
        some (assemble scheme none (.text path) left)

end SqlMetrics.Url
