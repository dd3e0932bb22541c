/-!
# Maps keyed by text

A finite map from text to values, kept as a list of entries whose keys ascend.  Text is ordered by
code points, which is the order of the UTF-8 bytes.  The order is part of the type, so walking the
entries meets each key once and in ascending order.
-/

namespace SqlMetrics

/-- A finite map keyed by text, in ascending order of the keys. -/
structure KeyMap (α : Type) where
  entries : List (String × α)
  ascending : entries.Pairwise fun a b => a.1 < b.1

namespace KeyMap

variable {α : Type}

/-- The map without entries. -/
def empty : KeyMap α :=
  ⟨[], List.Pairwise.nil⟩

instance : Inhabited (KeyMap α) := ⟨empty⟩

/-- Puts an entry into a list of entries: over an equal key, or before the first greater one. -/
def insertEntry (key : String) (value : α) : List (String × α) → List (String × α)
  | [] => [(key, value)]
  | entry :: rest =>
    if key < entry.1 then (key, value) :: entry :: rest
    else if key = entry.1 then (key, value) :: rest
    else entry :: insertEntry key value rest

/-- Every key after an insertion is the new key or an old one. -/
theorem key_mem_insertEntry {key : String} {value : α} {l : List (String × α)}
    {entry : String × α} (h : entry ∈ insertEntry key value l) :
    entry.1 = key ∨ entry ∈ l := by
  induction l with
  | nil => simp [insertEntry] at h; simp [h]
  | cons first rest ih =>
    rw [insertEntry] at h
    split at h
    · rcases List.mem_cons.1 h with h | h
      · exact .inl (by simp [h])
      · exact .inr h
    · split at h
      · rcases List.mem_cons.1 h with h | h
        · exact .inl (by simp [h])
        · exact .inr (List.mem_cons_of_mem _ h)
      · rcases List.mem_cons.1 h with h | h
        · exact .inr (by simp [h])
        · exact (ih h).imp id (List.mem_cons_of_mem _)

/-- An insertion keeps the keys ascending. -/
theorem ascending_insertEntry (key : String) (value : α) {l : List (String × α)}
    (h : l.Pairwise fun a b => a.1 < b.1) :
    (insertEntry key value l).Pairwise fun a b => a.1 < b.1 := by
  induction l with
  | nil => simp [insertEntry]
  | cons first rest ih =>
    obtain ⟨first_lt, rest_ascending⟩ := List.pairwise_cons.1 h
    rw [insertEntry]
    split
    case isTrue key_lt =>
      refine List.pairwise_cons.2 ⟨fun entry mem => ?_, h⟩
      rcases List.mem_cons.1 mem with eq | mem
      · exact eq ▸ key_lt
      · exact String.lt_trans key_lt (first_lt entry mem)
    case isFalse not_lt =>
      split
      case isTrue eq =>
        exact List.pairwise_cons.2 ⟨fun entry mem => eq ▸ first_lt entry mem, rest_ascending⟩
      case isFalse ne =>
        refine List.pairwise_cons.2 ⟨fun entry mem => ?_, ih rest_ascending⟩
        rcases key_mem_insertEntry mem with eq | mem
        · rw [eq]
          exact Decidable.byContradiction fun not_lt' =>
            ne (String.le_antisymm (String.not_lt.1 not_lt') (String.not_lt.1 not_lt))
        · exact first_lt entry mem

/-- The map with an entry added, or replaced if the key is there. -/
def insert (m : KeyMap α) (key : String) (value : α) : KeyMap α :=
  ⟨insertEntry key value m.entries, ascending_insertEntry key value m.ascending⟩

/-- The value of a key. -/
def get? (m : KeyMap α) (key : String) : Option α :=
  m.entries.lookup key

/-- Nothing is found in the map without entries. -/
@[simp]
theorem get?_empty (key : String) : (empty : KeyMap α).get? key = none :=
  rfl

/-- A look-up steps over an entry with another key. -/
theorem lookup_cons_eq_ite (key : String) (entry : String × α) (l : List (String × α)) :
    (entry :: l).lookup key = if key = entry.1 then some entry.2 else l.lookup key := by
  obtain ⟨entryKey, value⟩ := entry
  by_cases same : key = entryKey
  · simp [same]
  · simp [List.lookup_cons, beq_eq_false_iff_ne.2 same, same]

/-- After an insertion into a list of entries the key has the new value and every other key its
old one. -/
theorem lookup_insertEntry (key other : String) (value : α) (l : List (String × α)) :
    (insertEntry key value l).lookup other =
      if other = key then some value else l.lookup other := by
  induction l with
  | nil => simp only [insertEntry, lookup_cons_eq_ite]
  | cons first rest ih =>
    rw [insertEntry]
    split
    case isTrue => simp only [lookup_cons_eq_ite]
    case isFalse =>
      split
      case isTrue eq => grind [lookup_cons_eq_ite]
      case isFalse ne => grind [lookup_cons_eq_ite]

/-- After an insertion the key has the new value and every other key its old one. -/
theorem get?_insert (m : KeyMap α) (key other : String) (value : α) :
    (m.insert key value).get? other = if other = key then some value else m.get? other :=
  lookup_insertEntry key other value m.entries

/-- The map of a list of entries; of several with one key the last one counts. -/
def ofList (l : List (String × α)) : KeyMap α :=
  l.foldl (fun m entry => m.insert entry.1 entry.2) empty

/-- After several insertions a key has the value of its last entry, or what it had before if it has
none. -/
theorem get?_foldl_insert (l : List (String × α)) (m : KeyMap α) (key : String) :
    (l.foldl (fun m entry => m.insert entry.1 entry.2) m).get? key =
      ((l.filter fun entry => entry.1 = key).getLast?.map Prod.snd).or (m.get? key) := by
  induction l generalizing m with
  | nil => rfl
  | cons first rest ih =>
    rw [List.foldl_cons, ih, get?_insert, List.filter_cons]
    by_cases same : key = first.1
    · rw [if_pos same, if_pos (by simp [same]), List.getLast?_cons]
      cases (rest.filter fun entry => entry.1 = key).getLast? with
      | none => rfl
      | some last => rfl
    · rw [if_neg same, if_neg (by simpa using Ne.symm same)]

/-- In the map of a list of entries a key has the value of its last entry. -/
theorem get?_ofList (l : List (String × α)) (key : String) :
    (ofList l).get? key = (l.filter fun entry => entry.1 = key).getLast?.map Prod.snd := by
  rw [ofList, get?_foldl_insert, get?_empty, Option.or_none]

/-- The entries in ascending order of the keys. -/
def toList (m : KeyMap α) : List (String × α) :=
  m.entries

end KeyMap

end SqlMetrics
