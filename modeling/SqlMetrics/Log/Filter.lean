import SqlMetrics.Log

/-!
# Filters of the log

A filter is a list of directives.  A directive gives a threshold to the entries whose target starts
with its own; the most specific directive for an entry decides, and where no directive is for an
entry the entry does not pass.

Directives are written with commas between them.  One is a level (`warn`), a target with a level
(`app::db=debug`) or a target alone, which stands for every level.  A target may be followed by a
part in brackets; such a directive is about spans, of which there are none here, so it lets nothing
pass and stops nothing.
-/

namespace SqlMetrics.Log

/-- The least important level that passes; nothing passes without one. -/
abbrev Threshold := Option Level

/-- Whether a level passes a threshold. -/
def Threshold.passes (t : Threshold) (level : Level) : Bool :=
  match t with
  | some least => least.rank ≤ level.rank
  | none => false

/-- A threshold for the entries whose target starts with the given one. -/
structure Directive where
  target : String
  threshold : Threshold
deriving DecidableEq, Repr

/-- A filter of the log. -/
structure Filter where
  directives : List Directive
deriving DecidableEq, Repr

/-! ## Which entries pass -/

/-- Whether a directive is for an entry. -/
def Directive.isFor (d : Directive) (e : Entry) : Bool :=
  d.target.toList.isPrefixOf e.target.toList

/-- The more specific of two directives for the same entry; of two for the same target,
the later. -/
def Directive.moreSpecific (earlier later : Directive) : Directive :=
  if later.target.length < earlier.target.length then earlier else later

/-- The directive that decides about an entry. -/
def Filter.directive? (f : Filter) (e : Entry) : Option Directive :=
  match f.directives.filter (·.isFor e) with
  | [] => none
  | d :: rest => some (rest.foldl Directive.moreSpecific d)

/-- Whether an entry passes. -/
def Filter.passes (f : Filter) (e : Entry) : Bool :=
  (f.directive? e).any fun d => d.threshold.passes e.level

/-- The filter with one threshold for everything. -/
def Filter.everything (t : Threshold) : Filter := ⟨[⟨"", t⟩]⟩

/-! ## Reading -/

/-- The threshold that a number stands for; greater numbers let more pass. -/
def Threshold.ofNat? : Nat → Option Threshold
  | 0 => some none
  | 1 => some (some .error)
  | 2 => some (some .warn)
  | 3 => some (some .info)
  | 4 => some (some .debug)
  | 5 => some (some .trace)
  | _ => none

/-- The threshold that a word stands for, in small or capital letters. -/
def Threshold.ofWord? (s : String) : Option Threshold :=
  let word := s.toUpper
  if word == "OFF" then some none
  else (Level.all.find? fun level => level.name == word).map some

/-- The threshold that a number or a word stands for. -/
def Threshold.parse? (s : String) : Option Threshold :=
  let digits := match s.toList with
    | '+' :: rest => rest
    | cs => cs
  if !digits.isEmpty && digits.all Char.isDigit then
    Threshold.ofNat? (Number.digitsValue digits)
  else Threshold.ofWord? s

/-- Whether a directive may start with a character.  Every character beyond ASCII is taken for a
letter. -/
def startsDirective (c : Char) : Bool :=
  c.isAlphanum || c == '-' || c == ':' || c == '_' || 128 ≤ c.toNat

/-- The threshold after a target, which need not be there. -/
def readThreshold (cs : List Char) : Option Threshold :=
  if cs.isEmpty then some (some .trace) else Threshold.parse? (String.ofList cs)

/-- Whether characters are the rest of a directive after the opening bracket. -/
def isSpanPart (cs : List Char) : Bool :=
  match cs.dropWhile (· != ']') with
  | _ :: [] => true
  | _ :: '=' :: level => (readThreshold level).isSome
  | _ => false

/-- Reads one directive; there may be none in it that is about entries. -/
def readDirective (cs : List Char) : Option (List Directive) :=
  let inner := cs.dropWhile Text.isBlank
  let isIndented := inner.length < cs.length
  match inner with
  | [] => none
  | '[' :: rest => if isSpanPart rest then some [] else none
  | c :: _ =>
    if !startsDirective c then none
    else
      let target := String.ofList (cs.takeWhile fun c => c != '=' && c != '[')
      match cs.dropWhile fun c => c != '=' && c != '[' with
      | [] =>
        match Threshold.parse? target with
        | some t => some [⟨"", t⟩]
        | none => some [⟨target, some .trace⟩]
      | '[' :: rest => if isSpanPart rest then some [] else none
      | _ :: level =>
        if isIndented then none else (readThreshold level).map fun t => [⟨target, t⟩]

/-- Reads a filter.  Where nothing is written, only errors pass. -/
def Filter.parse? (s : String) : Option Filter :=
  let parts := (s.toList.splitOn ',').filter (!·.isEmpty)
  if parts.isEmpty then some (.everything (some .error))
  else (parts.mapM readDirective).map fun ds => ⟨ds.flatten⟩

/-- The filter that is written, if it can be read, and else the one for a level. -/
def Filter.choose (written : Option String) (level : String) : Filter :=
  match written.bind Filter.parse? with
  | some f => f
  | none => .everything ((Threshold.parse? level).getD none)

end SqlMetrics.Log
