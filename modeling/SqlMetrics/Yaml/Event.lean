import SqlMetrics.Yaml.Scanner

/-!
# Events of YAML

A document as a sequence of events: scalars and aliases, and the starts and ends of collections.
The grammar is read by recursion over the tokens.  A collection without an entry where one belongs
has an empty plain scalar there.
-/

namespace SqlMetrics.Yaml

/-- What may be said of a node before its content. -/
structure Properties where
  anchor : Option String := none
  tag : Option String := none
deriving DecidableEq, Repr

/-- An event.  An alias refers to an anchor in some way: by name in a text, and by place once the
anchors are known. -/
inductive Event (Reference : Type) where
  | alias (target : Reference)
  | scalar (properties : Properties) (style : ScalarStyle) (text : String)
  | sequenceStart (properties : Properties)
  | sequenceEnd
  | mappingStart (properties : Properties)
  | mappingEnd
deriving DecidableEq, Repr

namespace Event

/-- The empty scalar. -/
def empty {Reference : Type} (p : Properties) : Event Reference :=
  .scalar p .plain ""

/-- The tag handles of a document with their prefixes. -/
abbrev TagHandles := List (String × String)

/-- The handles that need no directive. -/
def standardHandles : TagHandles :=
  [("!", "!"), ("!!", "tag:yaml.org,2002:")]

/-- What reading some events comes to: the events and the tokens after them. -/
abbrev Parsed := Except YamlError (List (Event String) × List Token)

/-- The full text of a tag. -/
def resolveTag (handles : TagHandles) (t : TagToken) : Except YamlError String :=
  if t.handle.isEmpty then .ok t.suffix
  else
    match handles.lookup t.handle with
    | some p => .ok (p ++ t.suffix)
    | none => .error .undefinedTagHandle

/-- Reads the anchor and the tag of a node, in either order. -/
def properties (handles : TagHandles) (ts : List Token) :
    Except YamlError (Properties × List Token) :=
  match ts with
  | .anchor a :: .tag t :: rest | .tag t :: .anchor a :: rest =>
    (resolveTag handles t).map fun tag => (⟨some a, some tag⟩, rest)
  | .anchor a :: rest => .ok (⟨some a, none⟩, rest)
  | .tag t :: rest => (resolveTag handles t).map fun tag => (⟨none, some tag⟩, rest)
  | _ => .ok ({}, ts)

/-- A scalar with its properties; the tag of one exclamation mark counts as none. -/
def scalarOf (p : Properties) (style : ScalarStyle) (text : String) :
    Event String :=
  .scalar (if p.tag == some "!" then { p with tag := none } else p) style text

/-- Puts events in front of others. -/
def before (es : List (Event String)) : Parsed → Parsed
  | .ok (more, ts) => .ok (es ++ more, ts)
  | .error e => .error e

mutual

/-- Reads a node.  `block` allows for block collections, and `indentless` for a sequence whose
dashes stand no deeper than the keys of the mapping around it. -/
def node (handles : TagHandles) : Nat → Bool → Bool → List Token → Parsed
  | 0, _, _, _ => .error .unexpectedToken
  | fuel + 1, block, indentless, ts =>
    match ts with
    | .alias name :: rest => .ok ([.alias name], rest)
    | _ =>
      match properties handles ts with
      | .error e => .error e
      | .ok (p, ts) =>
        match ts with
        | .blockEntry :: _ =>
          if indentless then before [.sequenceStart p] (indentlessEntries handles fuel ts)
          else if p != {} then .ok ([empty p], ts)
          else .error .unexpectedToken
        | .scalar style text :: rest => .ok ([scalarOf p style text], rest)
        | .flowSequenceStart :: rest =>
          before [.sequenceStart p] (flowSequence handles fuel true rest)
        | .flowMappingStart :: rest =>
          before [.mappingStart p] (flowMapping handles fuel true rest)
        | .blockSequenceStart :: rest =>
          if block then before [.sequenceStart p] (blockEntries handles fuel rest)
          else if p != {} then .ok ([empty p], ts)
          else .error .unexpectedToken
        | .blockMappingStart :: rest =>
          if block then before [.mappingStart p] (blockPairs handles fuel rest)
          else if p != {} then .ok ([empty p], ts)
          else .error .unexpectedToken
        | _ => if p != {} then .ok ([empty p], ts) else .error .unexpectedToken

/-- Reads the rest of a block sequence. -/
def blockEntries (handles : TagHandles) : Nat → List Token → Parsed
  | 0, _ => .error .unexpectedToken
  | fuel + 1, ts =>
    match ts with
    | .blockEntry :: .blockEntry :: rest =>
      before [empty {}] (blockEntries handles fuel (.blockEntry :: rest))
    | .blockEntry :: .blockEnd :: rest => .ok ([empty {}, .sequenceEnd], rest)
    | .blockEntry :: rest =>
      match node handles fuel true false rest with
      | .error e => .error e
      | .ok (es, ts) => before es (blockEntries handles fuel ts)
    | .blockEnd :: rest => .ok ([.sequenceEnd], rest)
    | _ => .error .unexpectedToken

/-- Reads the rest of a sequence that is no deeper than the mapping around it. -/
def indentlessEntries (handles : TagHandles) : Nat → List Token → Parsed
  | 0, _ => .error .unexpectedToken
  | fuel + 1, ts =>
    match ts with
    | .blockEntry :: rest =>
      match rest with
      | .blockEntry :: _ | .key :: _ | .value :: _ | .blockEnd :: _ =>
        before [empty {}] (indentlessEntries handles fuel rest)
      | _ =>
        match node handles fuel true false rest with
        | .error e => .error e
        | .ok (es, ts) => before es (indentlessEntries handles fuel ts)
    | _ => .ok ([.sequenceEnd], ts)

/-- Reads the rest of a block mapping, from a key on. -/
def blockPairs (handles : TagHandles) : Nat → List Token → Parsed
  | 0, _ => .error .unexpectedToken
  | fuel + 1, ts =>
    match ts with
    | .key :: rest =>
      match rest with
      | .key :: _ | .value :: _ | .blockEnd :: _ =>
        before [empty {}] (blockValue handles fuel rest)
      | _ =>
        match node handles fuel true true rest with
        | .error e => .error e
        | .ok (es, ts) => before es (blockValue handles fuel ts)
    | .blockEnd :: rest => .ok ([.mappingEnd], rest)
    | _ => .error .unexpectedToken

/-- Reads the rest of a block mapping, from a value on. -/
def blockValue (handles : TagHandles) : Nat → List Token → Parsed
  | 0, _ => .error .unexpectedToken
  | fuel + 1, ts =>
    match ts with
    | .value :: rest =>
      match rest with
      | .key :: _ | .value :: _ | .blockEnd :: _ =>
        before [empty {}] (blockPairs handles fuel rest)
      | _ =>
        match node handles fuel true true rest with
        | .error e => .error e
        | .ok (es, ts) => before es (blockPairs handles fuel ts)
    | _ => before [empty {}] (blockPairs handles fuel ts)

/-- Reads the rest of a flow sequence. -/
def flowSequence (handles : TagHandles) : Nat → Bool → List Token → Parsed
  | 0, _, _ => .error .unexpectedToken
  | fuel + 1, first, ts =>
    match ts with
    | .flowSequenceEnd :: rest => .ok ([.sequenceEnd], rest)
    | _ =>
      let entry? : Option (List Token) :=
        match first, ts with
        | true, _ => some ts
        | false, .flowEntry :: rest => some rest
        | false, _ => none
      match entry? with
      | none => .error .unexpectedToken
      | some (.flowSequenceEnd :: rest) => .ok ([.sequenceEnd], rest)
      | some (.key :: rest) => before [.mappingStart {}] (flowPairKey handles fuel rest)
      | some ts =>
        match node handles fuel false false ts with
        | .error e => .error e
        | .ok (es, ts) => before es (flowSequence handles fuel false ts)

/-- Reads the key of a single pair in a flow sequence. -/
def flowPairKey (handles : TagHandles) : Nat → List Token → Parsed
  | 0, _ => .error .unexpectedToken
  | fuel + 1, ts =>
    match ts with
    | .value :: rest | .flowEntry :: rest | .flowSequenceEnd :: rest =>
      before [empty {}] (flowPairValue handles fuel rest)
    | _ =>
      match node handles fuel false false ts with
      | .error e => .error e
      | .ok (es, ts) => before es (flowPairValue handles fuel ts)

/-- Reads the value of a single pair in a flow sequence. -/
def flowPairValue (handles : TagHandles) : Nat → List Token → Parsed
  | 0, _ => .error .unexpectedToken
  | fuel + 1, ts =>
    match ts with
    | .value :: rest =>
      match rest with
      | .flowEntry :: _ | .flowSequenceEnd :: _ =>
        before [empty {}, .mappingEnd] (flowSequence handles fuel false rest)
      | _ =>
        match node handles fuel false false rest with
        | .error e => .error e
        | .ok (es, ts) => before (es ++ [.mappingEnd]) (flowSequence handles fuel false ts)
    | _ => before [empty {}, .mappingEnd] (flowSequence handles fuel false ts)

/-- Reads the rest of a flow mapping, from a key on. -/
def flowMapping (handles : TagHandles) : Nat → Bool → List Token → Parsed
  | 0, _, _ => .error .unexpectedToken
  | fuel + 1, first, ts =>
    match ts with
    | .flowMappingEnd :: rest => .ok ([.mappingEnd], rest)
    | _ =>
      let entry? : Option (List Token) :=
        match first, ts with
        | true, _ => some ts
        | false, .flowEntry :: rest => some rest
        | false, _ => none
      match entry? with
      | none => .error .unexpectedToken
      | some (.flowMappingEnd :: rest) => .ok ([.mappingEnd], rest)
      | some (.key :: rest) =>
        match rest with
        | .value :: _ | .flowEntry :: _ | .flowMappingEnd :: _ =>
          before [empty {}] (flowValue handles fuel rest)
        | _ =>
          match node handles fuel false false rest with
          | .error e => .error e
          | .ok (es, ts) => before es (flowValue handles fuel ts)
      | some ts =>
        match node handles fuel false false ts with
        | .error e => .error e
        | .ok (es, ts) => before (es ++ [empty {}]) (flowMapping handles fuel false ts)

/-- Reads the rest of a flow mapping, from a value on. -/
def flowValue (handles : TagHandles) : Nat → List Token → Parsed
  | 0, _ => .error .unexpectedToken
  | fuel + 1, ts =>
    match ts with
    | .value :: rest =>
      match rest with
      | .flowEntry :: _ | .flowMappingEnd :: _ =>
        before [empty {}] (flowMapping handles fuel false rest)
      | _ =>
        match node handles fuel false false rest with
        | .error e => .error e
        | .ok (es, ts) => before es (flowMapping handles fuel false ts)
    | _ => before [empty {}] (flowMapping handles fuel false ts)

end

/-- Reads the directives before a document: the tag handles, and whether there was any directive. -/
def directives : Bool → TagHandles → List Token → Except YamlError (TagHandles × List Token)
  | versioned, handles, .version major minor :: rest =>
    if versioned || major != 1 || !(minor == 1 || minor == 2) then .error .badDirective
    else directives true handles rest
  | versioned, handles, .tagDirective handle tagPrefix :: rest =>
    if (handles.lookup handle).isSome then .error .badDirective
    else directives versioned (handles ++ [(handle, tagPrefix)]) rest
  | _, handles, ts => .ok (handles ++ standardHandles, ts)

/-- Reads the root node of a document that has been started; nothing stands for an empty scalar. -/
def root (handles : TagHandles) (ts : List Token) : Parsed :=
  match ts with
  | .version _ _ :: _ | .tagDirective _ _ :: _ | .documentStart :: _ | .documentEnd :: _
  | .streamEnd :: _ => .ok ([empty {}], ts)
  | _ => node handles (4 * ts.length + 4) true false ts

/-- The events of the only document that tokens hold; `none` if they hold no document. -/
def ofTokens (ts : List Token) : Except YamlError (Option (List (Event String))) :=
  match ts with
  | [.streamEnd] => .ok none
  | _ => do
    let (handles, rest) ← directives false [] ts
    let (events, rest) ←
      match rest with
      | .documentStart :: rest => root handles rest
      | _ =>
        if rest.length == ts.length then node handles (4 * ts.length + 4) true false ts
        else .error .unexpectedToken
    match rest.dropWhile (· == .documentEnd) with
    | [.streamEnd] => return some events
    | _ => throw .severalDocuments

end Event

end SqlMetrics.Yaml
