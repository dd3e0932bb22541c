import SqlMetrics.Files
import SqlMetrics.KeyMap
import SqlMetrics.Text.Blank
import SqlMetrics.Url.Parser

/-!
# Indirect values

A value may be written as a URL whose scheme has a driver; it then stands for what the driver gets
from there.  A registry has the drivers by scheme.  The first registration of a scheme counts and a
second one is refused.
-/

namespace SqlMetrics

/-- Why a value could not be fetched, or a driver not be registered. -/
inductive FetchError where
  /-- The scheme has a driver already. -/
  | duplicate (scheme : String)
  /-- The scheme has no driver. -/
  | notRegistered (scheme : String)
  /-- The driver cannot do anything with the URL. -/
  | invalidUrl (url : String)
  /-- A file could not be read. -/
  | file (path : Bytes) (cause : FileError)
deriving DecidableEq, Repr

namespace FetchError

/-- The text of the error. -/
def message : FetchError → String
  | .duplicate scheme => "driver " ++ scheme ++ " registered twice"
  | .notRegistered scheme => scheme ++ " driver not registered"
  | .invalidUrl url => "cannot fetch " ++ url
  | .file path cause => "failed to read " ++ Text.decodeLossy path ++ ": " ++ cause.message

/-- The texts of what caused the error, the nearest first. -/
def causes : FetchError → List String
  | .file _ cause => [cause.message]
  | .duplicate _ | .notRegistered _ | .invalidUrl _ => []

end FetchError

/-- What gets the bytes that a URL refers to. -/
abbrev FetchDriver := Url → Except FetchError Bytes

/-- Reads the file at a path. -/
def readFile (files : Files) (path : Bytes) : Except FetchError Bytes :=
  match files.read path with
  | .ok content => .ok content
  | .error e => .error (.file path e)

/-- The driver for URLs of files. -/
def fileDriver (files : Files) : FetchDriver := fun url =>
  match url.filePath? with
  | some path => readFile files path
  | none => .error (.invalidUrl url.text)

/-- The drivers by scheme. -/
structure Registry where
  drivers : List (String × FetchDriver)

namespace Registry

/-- A registry without drivers. -/
def empty : Registry := ⟨[]⟩

/-- The driver of a scheme. -/
def driver? (r : Registry) (scheme : String) : Option FetchDriver :=
  (r.drivers.find? fun d => d.1 == scheme).map Prod.snd

/-- Whether a scheme has a driver. -/
def isRegistered (r : Registry) (scheme : String) : Bool :=
  (r.driver? scheme).isSome

/-- Registers a driver for a scheme that has none. -/
def register (r : Registry) (scheme : String) (driver : FetchDriver) :
    Except FetchError Registry :=
  if r.isRegistered scheme then .error (.duplicate scheme)
  else .ok ⟨r.drivers ++ [(scheme, driver)]⟩

/-- The registry with the drivers that are always there. -/
def builtin (files : Files) : Registry := ⟨[("file", fileDriver files)]⟩

/-- Gets what a URL refers to. -/
def fetch (r : Registry) (url : Url) : Except FetchError Bytes :=
  match r.driver? url.scheme with
  | some driver => driver url
  | none => .error (.notRegistered url.scheme)

/-- The URL that a value is, if its scheme has a driver. -/
def registeredUrl? (r : Registry) (value : String) : Option Url :=
  (Url.parse? value).filter fun url => r.isRegistered url.scheme

/-- The value itself, or what it refers to, as trimmed text. -/
def resolve (r : Registry) (value : String) : Except FetchError String :=
  match r.registeredUrl? value with
  | none => .ok value
  | some url =>
    match r.fetch url with
    | .error e => .error e
    | .ok content => .ok (Text.trim (Text.decodeLossy content))

/-- The document at a location, which is a URL whose scheme has a driver, or else a path. -/
def readLocation (r : Registry) (files : Files) (location : String) : Except FetchError Bytes :=
  match r.registeredUrl? location with
  | some url => r.fetch url
  | none => readFile files (Text.encode location)

end Registry

end SqlMetrics
