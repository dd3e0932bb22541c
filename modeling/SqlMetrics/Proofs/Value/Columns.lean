import Mathlib
import SqlMetrics.Query.Execution

/-!
# Columns of one name

A row may have several columns of one name, as a join does.  The typed row has one value for each
name, that of the last column of the name, and all that is read from a row is read from there.

- **Maps**: a map is known by what is found in it (`KeyMap.eq_of_get?`).
- **Last columns**: `mem_toList_ofRaw_iff` says what a typed row holds.
- **Rearranging**: `Rearranged` moves columns past columns of other names and drops columns whose
  name comes again; `columns_rearranged` states that no extraction can tell.
-/

namespace SqlMetrics

/-! ## Maps -/

namespace KeyMap

variable {α : Type}

/-- In ascending entries a key has one value. -/
theorem lookup_eq_some_iff {l : List (String × α)} (hAscending : l.Pairwise fun a b => a.1 < b.1)
    {key : String} {value : α} : l.lookup key = some value ↔ (key, value) ∈ l := by
  induction l with
  | nil => simp
  | cons first rest ih =>
    obtain ⟨hFirst, hRest⟩ := List.pairwise_cons.mp hAscending
    rw [lookup_cons_eq_ite, List.mem_cons]
    by_cases hSame : key = first.1
    · -- The keys behind it are greater.
      have hNot : (key, value) ∉ rest := fun hMem =>
        String.lt_irrefl first.1 (hSame ▸ hFirst _ hMem)
      rw [if_pos hSame, or_iff_left hNot, Prod.ext_iff, Option.some.injEq]
      exact ⟨fun hValue => ⟨hSame, hValue.symm⟩, fun hBoth => hBoth.2.symm⟩
    · rw [if_neg hSame, ih hRest, or_iff_right fun hFirst => hSame (congrArg Prod.fst hFirst)]

theorem mem_toList_iff {m : KeyMap α} {key : String} {value : α} :
    (key, value) ∈ m.toList ↔ m.get? key = some value :=
  (lookup_eq_some_iff m.ascending).symm

/-- **A map is known by what is found in it.** -/
theorem eq_of_get? {m m' : KeyMap α} (h : ∀ key, m.get? key = m'.get? key) : m = m' := by
  have hMem (entry : String × α) : entry ∈ m.entries ↔ entry ∈ m'.entries := by
    obtain ⟨key, value⟩ := entry
    exact mem_toList_iff.trans (h key ▸ mem_toList_iff.symm)
  let ascends : String × α → String × α → Prop := fun a b => a.1 < b.1
  have : Std.Irrefl ascends := ⟨fun a => String.lt_irrefl a.1⟩
  have : Std.Antisymm ascends := ⟨fun _ _ hLess hMore => absurd hMore (String.lt_asymm hLess)⟩
  have hEntries : m.entries = m'.entries :=
    List.Pairwise.eq_of_mem_iff (r := ascends) m.ascending m'.ascending hMem
  obtain ⟨entries, hAscending⟩ := m
  obtain ⟨entries', hAscending'⟩ := m'
  obtain rfl : entries = entries' := hEntries
  rfl

end KeyMap

/-! ## Last columns -/

/-- The values of the columns of one name, in order. -/
def columnValues (raw : RawRow) (name : String) : List RawValue :=
  (raw.filter fun column => column.1 = name).map Prod.snd

/-- Whether the last column of the name has this value. -/
def IsLastColumn (raw : RawRow) (name : String) (value : RawValue) : Prop :=
  ∃ before after, raw = before ++ (name, value) :: after ∧ name ∉ after.map Prod.fst

section LastColumn

variable {raw : RawRow} {name : String} {value : RawValue}

@[simp] theorem columnValues_cons (column : String × RawValue) (raw : RawRow) (name : String) :
    columnValues (column :: raw) name =
      if column.1 = name then column.2 :: columnValues raw name else columnValues raw name := by
  by_cases hSame : column.1 = name <;> simp [columnValues, hSame]

theorem columnValues_eq_nil_iff : columnValues raw name = [] ↔ name ∉ raw.map Prod.fst := by
  simp [columnValues, List.filter_eq_nil_iff]
  grind

theorem isLastColumn_cons_iff {column : String × RawValue} :
    IsLastColumn (column :: raw) name value ↔
      IsLastColumn raw name value ∨ (column = (name, value) ∧ name ∉ raw.map Prod.fst) := by
  constructor
  · rintro ⟨before, after, hSplit, hNone⟩
    rcases List.cons_eq_append_iff.mp hSplit with ⟨-, hHere⟩ | ⟨rest, rfl, rfl⟩
    · cases hHere
      exact .inr ⟨rfl, hNone⟩
    · exact .inl ⟨rest, after, rfl, hNone⟩
  · rintro (⟨before, after, rfl, hNone⟩ | ⟨rfl, hNone⟩)
    · exact ⟨column :: before, after, rfl, hNone⟩
    · exact ⟨[], raw, rfl, hNone⟩

/-- The last of the values of a name is that of its last column. -/
theorem getLast?_columnValues_eq_some_iff :
    (columnValues raw name).getLast? = some value ↔ IsLastColumn raw name value := by
  induction raw with
  | nil => simp [columnValues, IsLastColumn]
  | cons column rest ih =>
    rw [isLastColumn_cons_iff, ← ih, ← columnValues_eq_nil_iff, columnValues_cons]
    by_cases hSame : column.1 = name
    · rw [if_pos hSame, List.getLast?_cons]
      cases hRest : (columnValues rest name).getLast? with
      | none =>
        have hNil := List.getLast?_eq_none_iff.mp hRest
        obtain ⟨key, raw⟩ := column
        obtain rfl : key = name := hSame
        simp [hNil]
      | some last =>
        have hNotNil : columnValues rest name ≠ [] := by
          rintro hNil
          simp [hNil] at hRest
        simp [hNotNil]
    · rw [if_neg hSame, or_iff_left]
      rintro ⟨rfl, -⟩
      exact hSame rfl

end LastColumn

/-- What is found in a typed row is the value of the last column of the name. -/
theorem Row.get?_ofRaw (raw : RawRow) (name : String) :
    (Row.ofRaw raw).get? name = (columnValues raw name).getLast?.map RawValue.coerce := by
  rw [Row.ofRaw, KeyMap.get?_ofList, columnValues, List.getLast?_map, List.filter_map,
    List.getLast?_map, Option.map_map, Option.map_map]
  rfl

/-- A typed row holds the names of the columns, each with the value of its last column. -/
theorem Row.mem_toList_ofRaw_iff {raw : RawRow} {name : String} {value : Value} :
    (name, value) ∈ (Row.ofRaw raw).toList ↔
      ∃ rawValue, IsLastColumn raw name rawValue ∧ rawValue.coerce = value := by
  rw [KeyMap.mem_toList_iff, Row.get?_ofRaw, Option.map_eq_some_iff]
  simp only [getLast?_columnValues_eq_some_iff]

/-- Rows that end each name with the same value are typed alike. -/
theorem Row.ofRaw_congr {raw raw' : RawRow}
    (h : ∀ name, (columnValues raw name).getLast? = (columnValues raw' name).getLast?) :
    Row.ofRaw raw = Row.ofRaw raw' :=
  KeyMap.eq_of_get? fun name => by rw [Row.get?_ofRaw, Row.get?_ofRaw, h]

/-! ## Rearranging -/

/-- Whether two rows have the same columns, in an order that is the same for columns of one name. -/
def Reordered (raw raw' : RawRow) : Prop :=
  raw.Perm raw' ∧ ∀ name, columnValues raw name = columnValues raw' name

/-- The row without the columns of a name, except for the last. -/
def dropEarlier (name : String) : RawRow → RawRow
  | [] => []
  | column :: rest =>
    if column.1 = name ∧ name ∈ rest.map Prod.fst then dropEarlier name rest
    else column :: dropEarlier name rest

/-- Of the columns of the name the last one stays, and the columns of other names all do. -/
theorem columnValues_dropEarlier (name : String) (raw : RawRow) (other : String) :
    columnValues (dropEarlier name raw) other =
      if other = name then (columnValues raw name).getLast?.toList else columnValues raw other := by
  induction raw with
  | nil => simp [dropEarlier, columnValues]
  | cons column rest ih =>
    rw [dropEarlier]
    split
    case isTrue hAgain =>
      obtain ⟨rfl, hMem⟩ := hAgain
      have hNotNil : columnValues rest column.1 ≠ [] := fun hNil =>
        columnValues_eq_nil_iff.mp hNil hMem
      obtain ⟨last, hLast⟩ := Option.ne_none_iff_exists'.mp
        (List.getLast?_eq_none_iff.not.mpr hNotNil)
      rw [ih]
      by_cases hSame : other = column.1
      · simp [hSame, List.getLast?_cons, hLast]
      · simp [hSame, Ne.symm hSame]
    case isFalse hKept =>
      rw [columnValues_cons, ih]
      by_cases hSame : column.1 = name
      · -- It is the last one of the name.
        have hNil : columnValues rest name = [] :=
          columnValues_eq_nil_iff.mpr fun hMem => hKept ⟨hSame, hMem⟩
        by_cases hOther : other = name
        · simp [hSame, hOther, hNil]
        · simp [hSame, hOther, Ne.symm hOther]
      · by_cases hOther : other = name
        · simp [hSame, hOther]
        · simp [hOther]

/-- Whether a row comes from another one by rearranging: columns are moved, those of one name in
their order, or the columns of a name are dropped except for the last, any number of times and
forth as well as back. -/
inductive Rearranged : RawRow → RawRow → Prop where
  | reorder {raw raw' : RawRow} (hReordered : Reordered raw raw') : Rearranged raw raw'
  | dropEarlier (name : String) (raw : RawRow) : Rearranged raw (dropEarlier name raw)
  | symm {raw raw' : RawRow} (h : Rearranged raw raw') : Rearranged raw' raw
  | trans {raw raw' raw'' : RawRow} (h : Rearranged raw raw') (h' : Rearranged raw' raw'') :
      Rearranged raw raw''

/-- Rearranging keeps the value of the last column of each name. -/
theorem Rearranged.getLast?_eq {raw raw' : RawRow} (h : Rearranged raw raw') (name : String) :
    (columnValues raw name).getLast? = (columnValues raw' name).getLast? := by
  induction h with
  | reorder hReordered => rw [hReordered.2]
  | dropEarlier dropped raw =>
    rw [columnValues_dropEarlier]
    by_cases hSame : name = dropped
    · rw [if_pos hSame, hSame]
      cases (columnValues raw dropped).getLast? <;> rfl
    · rw [if_neg hSame]
  | symm _ ih => exact ih.symm
  | trans _ _ ih ih' => exact ih.trans ih'

theorem Rearranged.ofRaw_eq {raw raw' : RawRow} (h : Rearranged raw raw') :
    Row.ofRaw raw = Row.ofRaw raw' :=
  Row.ofRaw_congr h.getLast?_eq

/-- Rows that are rearranged one by one are typed alike. -/
theorem map_ofRaw_eq {raws raws' : List RawRow} (h : List.Forall₂ Rearranged raws raws') :
    raws.map Row.ofRaw = raws'.map Row.ofRaw := by
  induction h with
  | nil => rfl
  | cons hFirst _ ih => rw [List.map_cons, List.map_cons, hFirst.ofRaw_eq, ih]

/-- **The last column of a name is the one that counts.**
1. A typed row holds the names of the columns of its raw row and no others, each with the typed value
   of its last column.
2. If rows are rearranged one by one, every query extracts the same points from them, with the same
   notes, or ends with the same error, whatever it reads from the columns; and a query whose data
   source answers with such rows executes alike. -/
theorem columns_rearranged :
    (∀ (raw : RawRow) (name : String) (value : Value),
      (name, value) ∈ (Row.ofRaw raw).toList ↔
        ∃ rawValue, IsLastColumn raw name rawValue ∧ rawValue.coerce = value) ∧
    ∀ raws raws' : List RawRow, List.Forall₂ Rearranged raws raws' →
      ∀ (q : Query) (now : Int64),
        q.extract (raws.map Row.ofRaw) now = q.extract (raws'.map Row.ofRaw) now ∧
        ∀ (shell : Param.ShellBehaviour) (fires cancelled : Bool),
          q.execute shell (fun _ => .answered (.ok raws) fires) now cancelled =
            q.execute shell (fun _ => .answered (.ok raws') fires) now cancelled := by
  refine ⟨fun _ _ _ => Row.mem_toList_ofRaw_iff, fun raws raws' hRearranged q now => ?_⟩
  have hTyped := map_ofRaw_eq hRearranged
  refine ⟨by rw [hTyped], fun shell fires cancelled => ?_⟩
  simp only [Query.execute, Execution.resumeAnswer, hTyped]

/-- A query whose value column, placeholder and time column all come twice: it extracts the same
point from the row as it is and from the row with one column of each name, in another order. -/
theorem columns_rearranged_repeated :
    let q : Query := { valueKey := .ofList [("cpu.#\x7bhost\x7d", "load")], time := some "at" }
    let raw : RawRow := [("load", .int 1), ("host", .text "a"), ("at", .int 5),
      ("load", .int 2), ("host", .text "b"), ("at", .int 6)]
    let raw' : RawRow := [("at", .int 6), ("load", .int 2), ("host", .text "b")]
    List.Forall₂ Rearranged [raw] [raw'] ∧
      q.extract [Row.ofRaw raw] 0 = q.extract [Row.ofRaw raw'] 0 ∧
      q.extract [Row.ofRaw raw'] 0 = ⟨[], .ok [⟨"cpu.b", 6, .int 2⟩]⟩ := by
  intro q raw raw'
  let last : RawRow := [("load", .int 2), ("host", .text "b"), ("at", .int 6)]
  have hDropped : dropEarlier "at" (dropEarlier "host" (dropEarlier "load" raw)) = last := by
    simp [raw, last, dropEarlier]
  have hReordered : Reordered last raw' := by
    refine ⟨by decide, fun name => ?_⟩
    by_cases hAt : "at" = name <;> by_cases hLoad : "load" = name <;>
      by_cases hHost : "host" = name <;> grind [columnValues_cons]
  have hRearranged : Rearranged raw raw' := by
    refine .trans (.dropEarlier "load" raw) (.trans (.dropEarlier "host" _) ?_)
    refine .trans (.dropEarlier "at" _) ?_
    rw [hDropped]
    exact .reorder hReordered
  have hRows : List.Forall₂ Rearranged [raw] [raw'] := .cons hRearranged .nil
  obtain ⟨hSame, -⟩ := columns_rearranged.2 _ _ hRows q 0
  simp only [List.map_cons, List.map_nil] at hSame
  exact ⟨hRows, hSame, by cbv⟩

end SqlMetrics
