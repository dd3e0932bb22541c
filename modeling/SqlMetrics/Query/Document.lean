import SqlMetrics.Query
import SqlMetrics.Yaml.Node
import SqlMetrics.Yaml.Resolution

/-!
# Query documents

The queries that a YAML document lists.  A query is a mapping with fields of fixed names; other
fields are passed over, and a known field may be given only once.  Where a collection belongs,
nothing at all counts as an empty one.

Aliases are followed where a value is needed.  A document that is small and means much by repeating
itself is refused: following is limited to a hundred times the number of events.
-/

namespace SqlMetrics.QueryDocument

open Number (Double)
open Yaml

/-- Reading a document; the number counts the aliases that have been followed. -/
abbrev Decode := StateT Nat (Except YamlError)

/-- Ends the reading. -/
def refuse {α : Type} (e : YamlError) : Decode α :=
  fun _ => .error e

/-- The node itself, or the one that it refers to. -/
def follow (d : Document) (n : Node) : Decode Node := do
  match n with
  | .alias place =>
    modify (· + 1)
    if d.events.length * 100 < (← get) then refuse .tooManyAliases
    else
      match d.node? place with
      | some target => return target
      | none => refuse .unknownAnchor
  | n => return n

/-- The tags that YAML itself defines start with this. -/
def coreTag (name : String) : Option String :=
  some ("tag:yaml.org,2002:" ++ name)

/-- The text of a scalar, however it is written. -/
def text (d : Document) (n : Node) : Decode String := do
  match ← follow d n with
  | .scalar _ _ s => return s
  | _ => refuse .wrongKind

/-- The text of a scalar that may be missing: a plain null stands for none. -/
def optionalText (d : Document) (n : Node) : Decode (Option String) := do
  match ← follow d n with
  | .scalar tag style s =>
    if style != .plain then return some s
    else
      match tag with
      -- With a tag even the plain word for null is text, unless the tag says that it is null.
      | some _ =>
        if tag == coreTag "null" then
          if spellsNull s then return none else refuse .wrongKind
        else return some s
      | none => return (if s.isEmpty || spellsNull s then none else some s)
  | _ => refuse .wrongKind

/-- The double that a scalar spells.  A quoted one is text. -/
def double (d : Document) (n : Node) : Decode Double := do
  match ← follow d n with
  | .scalar tag style s =>
    if style == .plain || (style == .literal && tag == coreTag "float") then
      match spelledDouble? s with
      | some x => return x
      | none => refuse .wrongKind
    else refuse .wrongKind
  | _ => refuse .wrongKind

/-- The parameter that an integer stands for; one beyond the signed integers is a double. -/
def paramOfInt (n : Int) : Decode Param :=
  match integerKind? n with
  | some (.int n) =>
    if Number.fitsInt64 n then return .int (Int64.ofInt n) else return .float (Double.ofInt n)
  | _ => refuse .wrongKind

/-- The parameter that a plain scalar without a tag stands for. -/
def paramOfPlain (s : String) : Decode Param :=
  match resolvePlain s with
  | .null => return .null
  | .bool b => return .bool b
  | .int n => paramOfInt n
  | .bigInt => refuse .wrongKind
  | .float x => return .float x
  | .text => return .text s

/-- The parameter that a scalar with a tag stands for.  A tag of the document's own names a kind
that no parameter has. -/
def paramOfTagged (tag : String) (s : String) : Decode Param :=
  if tag.startsWith "!" then refuse .wrongKind
  else if some tag == coreTag "bool" then
    match spelledBool? s with
    | some b => return .bool b
    | none => refuse .wrongKind
  else if some tag == coreTag "int" then
    match spelledInt? s with
    | some n => paramOfInt n
    | none => refuse .wrongKind
  else if some tag == coreTag "float" then
    match spelledDouble? s with
    | some x => return .float x
    | none => refuse .wrongKind
  else if some tag == coreTag "null" then
    if spellsNull s then return .null else refuse .wrongKind
  else return .text s

/-- The parameter that a node stands for. -/
def param (d : Document) (n : Node) : Decode Param := do
  match ← follow d n with
  | .scalar (some tag) _ s => paramOfTagged tag s
  | .scalar none .plain s => paramOfPlain s
  | .scalar none _ s => return .text s
  | _ => refuse .wrongKind

/-- The items of a sequence. -/
def items (d : Document) (n : Node) : Decode (List Node) := do
  match ← follow d n with
  | .sequence _ items => return items
  | .scalar _ .plain "" => return []
  | _ => refuse .wrongKind

/-- The entries of a mapping. -/
def entries (d : Document) (n : Node) : Decode (List (Node × Node)) := do
  match ← follow d n with
  | .mapping _ entries => return entries
  | .scalar _ .plain "" => return []
  | _ => refuse .wrongKind

/-- A mapping from text; of equal keys the last one counts. -/
def keyMap {α : Type} (d : Document) (value : Node → Decode α) (n : Node) :
    Decode (KeyMap α) := do
  let pairs ← (← entries d n).mapM fun entry => do
    let key ← text d entry.1
    return (key, ← value entry.2)
  return KeyMap.ofList pairs

/-- The names of the fields of a query. -/
def fieldNames : List String :=
  ["keyPrefix", "valueKey", "defaultValue", "sql", "params", "service", "time"]

/-- The query with one of its fields set. -/
def setField (d : Document) (q : Query) (name : String) (value : Node) : Decode Query := do
  match name with
  | "keyPrefix" => return { q with keyPrefix := ← optionalText d value }
  | "valueKey" => return { q with valueKey := ← keyMap d (text d) value }
  | "defaultValue" => return { q with defaultValue := ← keyMap d (double d) value }
  | "sql" => return { q with sql := ← text d value }
  | "params" => return { q with params := ← (← items d value).mapM (param d) }
  | "service" => return { q with service := ← optionalText d value }
  | "time" => return { q with time := ← optionalText d value }
  | _ => return q

/-- The query with the fields of a mapping set, where some have been given before. -/
def setFields (d : Document) : List String → Query → List (Node × Node) → Decode Query
  | _, q, [] => return q
  | given, q, (key, value) :: rest => do
    let name ← text d key
    -- The value of a field that comes again is not looked at.
    if given.contains name then refuse (.duplicateField name)
    else
      let q ← setField d q name value
      setFields d (if fieldNames.contains name then name :: given else given) q rest

/-- The query that a node stands for. -/
def query (d : Document) (n : Node) : Decode Query := do
  setFields d [] {} (← entries d n)

/-- The queries of a document. -/
def queries (d : Document) : Decode (List Query) := do
  match d.node? 0 with
  | some root => (← items d root).mapM (query d)
  | none => return []

/-- The queries that a text lists. -/
def parse (text : String) : Except YamlError (List Query) := do
  match ← document text with
  | some d => return (← (queries d).run 0).1
  | none => return []

end SqlMetrics.QueryDocument
