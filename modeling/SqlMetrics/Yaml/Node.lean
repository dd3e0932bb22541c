import SqlMetrics.Yaml.Event

/-!
# Nodes of YAML

A document as a tree.  An alias stands in the tree as the place of the event that it refers to, so
that a node may be looked at without following the aliases inside it.

Anchors are numbered when they begin: an anchor has the number of names that were in use before it.
An alias refers to the number that its name had last, and of several anchors with one number the
last one of the document counts.
-/

namespace SqlMetrics.Yaml

/-- A node. -/
inductive Node where
  | alias (place : Nat)
  | scalar (tag : Option String) (style : ScalarStyle) (text : String)
  | sequence (tag : Option String) (items : List Node)
  | mapping (tag : Option String) (entries : List (Node × Node))

/-- A document: its events, with aliases that know their places. -/
structure Document where
  events : List (Event Nat)

namespace Document

/-- The anchors met so far: the number of each name, and the place of each number. -/
structure Anchors where
  numbers : List (String × Nat) := []
  places : List (Nat × Nat) := []

/-- The anchors after one more at a place. -/
def Anchors.add (a : Anchors) (name : String) (place : Nat) : Anchors :=
  let number := a.numbers.length
  let others := a.numbers.filter fun entry => entry.1 != name
  ⟨(name, number) :: others, (number, place) :: a.places⟩

/-- The anchors after an event. -/
def Anchors.note {Reference : Type} (a : Anchors) (place : Nat) : Event Reference → Anchors
  | .scalar p _ _ | .sequenceStart p | .mappingStart p =>
    match p.anchor with
    | some name => a.add name place
    | none => a
  | .alias _ | .sequenceEnd | .mappingEnd => a

/-- The event with its alias replaced. -/
def mapAlias {A B : Type} (f : A → Except YamlError B) : Event A → Except YamlError (Event B)
  | .alias target => (f target).map .alias
  | .scalar p style text => .ok (.scalar p style text)
  | .sequenceStart p => .ok (.sequenceStart p)
  | .sequenceEnd => .ok .sequenceEnd
  | .mappingStart p => .ok (.mappingStart p)
  | .mappingEnd => .ok .mappingEnd

/-- Replaces the names of aliases by the numbers that they have there. -/
def numberAliases : Anchors → Nat → List (Event String) →
    Except YamlError (Anchors × List (Event Nat))
  | a, _, [] => .ok (a, [])
  | a, place, event :: rest => do
    let find (name : String) : Except YamlError Nat :=
      match a.numbers.lookup name with
      | some number => .ok number
      | none => .error .unknownAnchor
    let numbered ← mapAlias find event
    let (last, more) ← numberAliases (a.note place event) (place + 1) rest
    return (last, numbered :: more)

/-- The document of some events. -/
def ofEvents (events : List (Event String)) : Except YamlError Document := do
  let (anchors, numbered) ← numberAliases {} 0 events
  let find (number : Nat) : Except YamlError Nat :=
    match anchors.places.lookup number with
    | some place => .ok place
    | none => .error .unknownAnchor
  return ⟨← numbered.mapM (mapAlias find)⟩

mutual

/-- The node that some events start with, and the events after it. -/
def nodeOf : Nat → List (Event Nat) → Option (Node × List (Event Nat))
  | 0, _ => none
  | fuel + 1, es =>
    match es with
    | .alias place :: rest => some (.alias place, rest)
    | .scalar p style text :: rest => some (.scalar p.tag style text, rest)
    | .sequenceStart p :: rest => (itemsOf fuel rest).map fun r => (.sequence p.tag r.1, r.2)
    | .mappingStart p :: rest => (entriesOf fuel rest).map fun r => (.mapping p.tag r.1, r.2)
    | _ => none

/-- The nodes up to the end of a sequence. -/
def itemsOf : Nat → List (Event Nat) → Option (List Node × List (Event Nat))
  | 0, _ => none
  | fuel + 1, es =>
    match es with
    | .sequenceEnd :: rest => some ([], rest)
    | _ =>
      (nodeOf fuel es).bind fun item =>
        (itemsOf fuel item.2).map fun r => (item.1 :: r.1, r.2)

/-- The pairs of nodes up to the end of a mapping. -/
def entriesOf : Nat → List (Event Nat) → Option (List (Node × Node) × List (Event Nat))
  | 0, _ => none
  | fuel + 1, es =>
    match es with
    | .mappingEnd :: rest => some ([], rest)
    | _ =>
      (nodeOf fuel es).bind fun key =>
        (nodeOf fuel key.2).bind fun value =>
          (entriesOf fuel value.2).map fun r => ((key.1, value.1) :: r.1, r.2)

end

/-- The node that begins at a place. -/
def node? (d : Document) (place : Nat) : Option Node :=
  (nodeOf (d.events.length + 1) (d.events.drop place)).map (·.1)

end Document

/-- The only document of a text; `none` if the text holds none. -/
def document (text : String) : Except YamlError (Option Document) := do
  match ← Event.ofTokens (← tokens text) with
  | some events => return some (← Document.ofEvents events)
  | none => return none

end SqlMetrics.Yaml
