import SqlMetrics.Url.Host

/-!
# URLs

A URL in its parts.  The path is a list of segments, or, where nothing in the URL starts with a
slash, a plain text; a URL with such a path has no segments to add to.

Segments are added to the end of a path.  A path that is a single empty segment is what the root is
written as, so the first segment added takes its place.
-/

namespace SqlMetrics

namespace Url

/-- What stands between the double slash and the path. -/
structure Authority where
  username : String
  password : Option String
  host : Option Host
  port : Option Nat
deriving DecidableEq, Repr

/-- The path of a URL. -/
inductive Path where
  | text (text : String)
  | segments (segments : List String)
deriving DecidableEq, Repr

end Url

/-- A URL. -/
structure Url where
  scheme : String
  authority : Option Url.Authority
  path : Url.Path
  query : Option String
  fragment : Option String
deriving DecidableEq, Repr

namespace Url

/-- The ports that need not be written, for the special schemes that have one. -/
def defaultPort? : String → Option Nat
  | "http" | "ws" => some 80
  | "https" | "wss" => some 443
  | "ftp" => some 21
  | _ => none

/-- The special schemes: their URLs have a host, and a backslash does for a slash in them. -/
def isSpecial (scheme : String) : Bool :=
  (defaultPort? scheme).isSome || scheme == "file"

/-! ## Text -/

/-- The user name and password of a URL, with the sign that ends them. -/
def Authority.userinfoText (a : Authority) : String :=
  let password := (a.password.map (":" ++ ·)).getD ""
  if a.username.isEmpty && a.password.isNone then "" else a.username ++ password ++ "@"

/-- The host and port of a URL. -/
def Authority.hostText (a : Authority) : String :=
  (a.host.map Host.text).getD "" ++ (a.port.map fun p => ":" ++ toString p).getD ""

/-- The text of a path. -/
def Path.toText : Path → String
  | .text s => s
  | .segments names => String.join (names.map ("/" ++ ·))

/-- What keeps an empty first segment from being read as the start of an authority. -/
def Path.guardText : Path → String
  | .segments ("" :: _ :: _) => "/."
  | _ => ""

/-- The path and query of a URL. -/
def target (u : Url) : String :=
  u.path.toText ++ (u.query.map ("?" ++ ·)).getD ""

/-- The text of a URL. -/
def text (u : Url) : String :=
  u.scheme ++ ":" ++
    (match u.authority with
      | some a => "//" ++ a.userinfoText ++ a.hostText
      | none => u.path.guardText) ++
    u.target ++ (u.fragment.map ("#" ++ ·)).getD ""

/-! ## Segments -/

/-- Whether a segment is a drive letter, which no `..` takes away. -/
def isDriveLetter : List Char → Bool
  | [letter, mark] => letter.isAlpha && (mark == ':' || mark == '|')
  | _ => false

/-- The segments without the last one. -/
def dropSegment (segments : List String) : List String :=
  match segments.getLast? with
  | some last => if isDriveLetter last.toList then segments else segments.dropLast
  | none => []

/-- The segments without an empty last one; the root stays. -/
def trimSegments (segments : List String) : List String :=
  if segments.length ≤ 1 then segments
  else if segments.getLast? == some "" then segments.dropLast
  else segments

/-- The segments that a new one is put after: none after the root. -/
def openSegments (segments : List String) : List String :=
  if segments == [""] then [] else segments

/-- Characters that are dropped from URLs wherever they stand. -/
def isDropped (c : Char) : Bool :=
  c == '\t' || c == '\n' || c == '\r'

/-- Puts one segment after the others.  The segments `.` and `..` are no names: written so, they
are left out, and written with characters between that are dropped, they act as in a path. -/
def pushSegment (escapes : EscapeSet) (segments : List String) (name : String) : List String :=
  if name == "." || name == ".." then segments
  else
    let before := openSegments segments
    match name.toList.filter (fun c => !isDropped c) with
    | ['.'] => before ++ [""]
    | ['.', '.'] => dropSegment before ++ [""]
    | cs => before ++ [String.ofList (escape escapes cs)]

/-- The URL with segments added to its path, after an empty last segment is taken away.  A URL
without segments has none to add to. -/
def extend? (u : Url) (names : List String) : Option Url :=
  match u.path with
  | .text _ => none
  | .segments segments =>
    let escapes := if isSpecial u.scheme then EscapeSet.specialSegment else EscapeSet.segment
    some { u with
      path := .segments (names.foldl (pushSegment escapes) (trimSegments segments)) }

/-! ## Files -/

/-- The path of the file that a URL stands for, if it has segments and no host.  A path that ends in
a letter and a colon or a bar gets a slash after it. -/
def filePath? (u : Url) : Option Bytes :=
  match u.path with
  | .text _ => none
  | .segments segments =>
    match u.authority.bind Authority.host with
    | some (.domain "localhost") | none =>
      let bytes := segments.flatMap fun s => 0x2F :: unescape s.toList
      match bytes.reverse with
      | mark :: letter :: _ :: _ =>
        if (Char.ofNat letter.toNat).isAlpha && (mark == 0x3A || mark == 0x7C) then
          some (bytes ++ [0x2F])
        else some bytes
      | _ => some bytes
    | some _ => none

end Url

end SqlMetrics
