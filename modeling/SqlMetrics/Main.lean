import SqlMetrics.Session
import Std.Time.DateTime.Timestamp

/-!
# The program

The outer layer: it gives a session the arguments, the variables, the files, the input and the time
that it asks for, and writes what the session says.  A session tells by its effects what it has
read; what it has not been given yet is looked for, and the session is started again with it.
-/

namespace SqlMetrics.Program

open Startup (Effect)

/-- The variables of the environment that the program looks at. -/
def variableNames : List String :=
  Session.filterVariable :: CommandLine.ValueOption.all.filterMap CommandLine.ValueOption.fallback?

/-- The variables that are set. -/
def readEnvironment : IO CommandLine.Environment := do
  let given ← variableNames.mapM fun name => do
    return (← IO.getEnv name).map (name, ·)
  return given.filterMap id

/-- The paths that an effect leads to. -/
def pathOf? : Effect → Option Bytes
  | .settingsRead path => some (Text.encode path)
  | .fetched url => url.filePath?
  | .queriesRead location =>
    match (Registry.builtin ⟨[], [], []⟩).registeredUrl? location with
    | some url => url.filePath?
    | none => some (Text.encode location)
  | .sourceOpened (.sqlite path) => some (Text.encode path)
  | _ => none

/-- Whether an effect is the reading of the input. -/
def isInputRead : Effect → Bool
  | .inputRead => true
  | _ => false

/-- The place that a name leads to from another. -/
def follow (place : Place) (name : Bytes) : Place :=
  if name.isEmpty || name == [0x2E] then place
  else if name == [0x2E, 0x2E] then place.dropLast
  else place ++ [name]

/-- The place that a path leads to from a directory. -/
def placeOf (directory : Place) (path : Bytes) : Place :=
  (path.splitOn 0x2F).foldl follow (if path.head? == some 0x2F then [] else directory)

/-- The path that leads to a place. -/
def pathText (place : Place) : String :=
  String.join (place.map fun name => "/" ++ Text.decodeLossy name)

/-- The files with what there is at a path, and at the places on the way there. -/
def look (files : Files) (path : Bytes) : IO Files := do
  let place := placeOf files.workingDirectory path
  let root ← IO.currentDir
  let mut found := files
  for n in [0:place.length + 1] do
    let here := place.take n
    let file := root / pathText here
    if ← file.isDir then found := { found with directories := found.directories ++ [here] }
    else if ← file.pathExists then
      let content ← IO.FS.readBinFile file
      found := { found with contents := found.contents ++ [(here, content.toList)] }
  return found

/-- What reading the standard input to its end comes to. -/
def readInput : IO (Except FileError Bytes) := do
  try
    let content ← (← IO.getStdin).readBinToEnd
    return .ok content.toList
  catch e => return .error (.refused e.toString)

/-- How many times a session is started at most: each time it reads one thing more. -/
def mostStarts : Nat := 16

/-- Starts a session again and again, until it has been given everything that it reads. -/
def gather (args : List String) (environment : CommandLine.Environment) (clock : Int64) :
    IO Session := do
  let directory := placeOf [] (Text.encode (← IO.currentDir).toString)
  let mut files : Files := ⟨[[], directory], [], directory⟩
  let mut input : Option (Except FileError Bytes) := none
  let mut looked : List Bytes := []
  let mut session := Session.start (.offline environment files [] clock) args
  for _ in [0:mostStarts] do
    let wanted := (session.effects.filterMap pathOf?).filter fun p => !looked.contains p
    let wantsInput := input.isNone && session.effects.any isInputRead
    if wanted.isEmpty && !wantsInput then break
    for path in wanted do
      files ← look files path
    looked := looked ++ wanted
    if wantsInput then
      input := some (← readInput)
    let host := Host.offline environment files [] clock
    session := Session.start { host with input := input.getD (.ok []) } args
  return session

/-- Runs the program. -/
def run (args : List String) : IO UInt32 := do
  let now ← Std.Time.Timestamp.now
  let clock := Int64.ofInt now.toSecondsSinceUnixEpoch.val
  let session ← gather args (← readEnvironment) clock
  IO.print session.output
  IO.eprint session.errorOutput
  return UInt32.ofNat session.exitCode

end SqlMetrics.Program

def main (args : List String) : IO UInt32 :=
  SqlMetrics.Program.run args
