import SqlMetrics.Number.Double

/-!
# TOML tables

The values of a TOML document and the rules by which its lines build up a table.  A key may be set
once.  A table may be opened by a header once, and may be filled by dotted keys only where it was
not opened by a header; a table that only stands on the way to another one may still be opened.
-/

namespace SqlMetrics.Toml

open Number (Double)

/-- What a key of a TOML table holds. -/
inductive Item where
  | string (text : String)
  | integer (n : Int64)
  | float (x : Double)
  | boolean (b : Bool)
  | dateTime
  | array (items : List Item)
  /-- A table in braces, to which nothing can be added. -/
  | inlineTable (entries : List (String × Item))
  /-- A table; `implicit` says that no header opened it, and `dotted` that dotted keys made it. -/
  | table (implicit dotted : Bool) (entries : List (String × Item))
  /-- A list of tables, each opened by a header in double brackets. -/
  | tables (elements : List (List (String × Item)))
deriving Repr, Inhabited

/-- A table: keys in the order in which they were set. -/
abbrev Table := List (String × Item)

/-- What a key of a table holds. -/
def lookUp (t : Table) (key : String) : Option Item :=
  (t.find? fun e => e.1 == key).map Prod.snd

/-- The table with another item under a key that it has. -/
def replace (t : Table) (key : String) (item : Item) : Table :=
  t.map fun e => if e.1 == key then (key, item) else e

/-- Changes the table at the end of a path.  Tables on the way that are not there are made; the last
table of a list stands for the list.  With `dotted`, the path is that of a dotted key.  The change
is told whether the table was made by dotted keys. -/
def descend (dotted : Bool) (change : Bool → Table → Option Table) :
    List String → Bool → Table → Option Table
  | [], isDotted, t => change isDotted t
  | key :: path, _, t =>
    match lookUp t key with
    | none =>
      (descend dotted change path dotted []).map fun inner =>
        t ++ [(key, .table true dotted inner)]
    | some (.table implicit isDotted inner) =>
      if dotted && !implicit then none
      else
        (descend dotted change path isDotted inner).map fun inner =>
          replace t key (.table implicit isDotted inner)
    | some (.tables elements) =>
      match elements.getLast? with
      | none => none
      | some last =>
        (descend dotted change path false last).map fun last =>
          replace t key (.tables (elements.dropLast ++ [last]))
    | some _ => none

/-- Sets a dotted key of a table. -/
def setKey (path : List String) (key : String) (item : Item) (isDotted : Bool) (t : Table) :
    Option Table :=
  descend true (fun isDotted inner =>
    if isDotted == path.isEmpty || (lookUp inner key).isSome then none
    else some (inner ++ [(key, item)])) path isDotted t

/-- Opens a table by a header. -/
def openTable (key : String) (_ : Bool) (t : Table) : Option Table :=
  match lookUp t key with
  | none => some (t ++ [(key, .table false false [])])
  | some (.table true false inner) => some (replace t key (.table false false inner))
  | some _ => none

/-- Adds a table to a list by a header. -/
def openElement (key : String) (_ : Bool) (t : Table) : Option Table :=
  match lookUp t key with
  | none => some (t ++ [(key, .tables [[]])])
  | some (.tables elements) => some (replace t key (.tables (elements ++ [[]])))
  | some _ => none

/-- The table that the keys in braces make. -/
def inlineOf (pairs : List (List String × String × Item)) : Option Table :=
  pairs.foldlM (fun t (path, key, item) => setKey path key item false t) []

end SqlMetrics.Toml
