import SqlMetrics.Text.Utf8

/-!
# Files

A tree of directories and files with their contents, as a program sees it that runs in one of the
directories.  Paths are byte strings.  A path is walked name by name, and each name but the last has
to be a directory; a slash at the end asks that the last one be a directory too.
-/

namespace SqlMetrics

/-- Why a file could not be read. -/
inductive FileError where
  | notFound
  | notDirectory
  | isDirectory
  | nameTooLong
  /-- The path has a zero byte in it. -/
  | zeroByte
  /-- The contents were to be text and are not. -/
  | notText
  /-- The system refuses to read it for another reason. -/
  | refused (reason : String)
deriving DecidableEq, Repr

/-- The text of the error. -/
def FileError.message : FileError → String
  | .notFound => "No such file or directory (os error 2)"
  | .notDirectory => "Not a directory (os error 20)"
  | .isDirectory => "Is a directory (os error 21)"
  | .nameTooLong => "File name too long (os error 36)"
  | .zeroByte => "file name contained an unexpected NUL byte"
  | .notText => "stream did not contain valid UTF-8"
  | .refused reason => reason

/-- The names on the way from the root to a file or directory. -/
abbrev Place := List Bytes

/-- A tree of files. -/
structure Files where
  /-- Directories, besides those that the files are in. -/
  directories : List Place
  contents : List (Place × Bytes)
  workingDirectory : Place
deriving Repr

namespace Files

/-- What there is at a place. -/
inductive Entry where
  | directory
  | file (content : Bytes)
deriving DecidableEq, Repr

/-- What there is at a place, if anything. -/
def at? (f : Files) (place : Place) : Option Entry :=
  match f.contents.find? (fun e => e.1 == place) with
  | some (_, content) => some (.file content)
  | none =>
    if place.isEmpty || f.directories.any (place.isPrefixOf ·) ||
        f.contents.any (fun e => place.isPrefixOf e.1) then some .directory
    else none

/-- Follows names from a directory on. -/
def walk (f : Files) (place : Place) : List Bytes → Except FileError Place
  | [] => .ok place
  | name :: rest =>
    match f.at? place with
    | none => .error .notFound
    | some (.file _) => .error .notDirectory
    | some .directory =>
      if name == [] || name == [0x2E] then walk f place rest
      else if name == [0x2E, 0x2E] then walk f place.dropLast rest
      else if 255 < name.length then .error .nameTooLong
      else walk f (place ++ [name]) rest

/-- Where a path leads, whether or not there is anything. -/
def locate (f : Files) (path : Bytes) : Except FileError Place :=
  if path.contains 0 then .error .zeroByte
  else if path.isEmpty then .error .notFound
  else if 4096 ≤ path.length then .error .nameTooLong
  else
    let start := if path.head? == some 0x2F then [] else f.workingDirectory
    f.walk start (path.splitOn 0x2F)

/-- The contents of the file that a path leads to. -/
def read (f : Files) (path : Bytes) : Except FileError Bytes :=
  match f.locate path with
  | .error e => .error e
  | .ok place =>
    match f.at? place with
    | some (.file content) => .ok content
    | some .directory => .error .isDirectory
    | none => .error .notFound

/-- The text of the file that a path leads to. -/
def readText (f : Files) (path : String) : Except FileError String :=
  match f.read (Text.encode path) with
  | .error e => .error e
  | .ok content =>
    match Text.decode content with
    | .ok s => .ok s
    | .error _ => .error .notText

/-- Whether a path leads to a file, or to a place in a directory where one can be made. -/
def canHold (f : Files) (path : Bytes) : Bool :=
  match f.locate path with
  | .error _ => false
  | .ok place => f.at? place != some .directory && f.at? place.dropLast == some .directory

end Files

end SqlMetrics
