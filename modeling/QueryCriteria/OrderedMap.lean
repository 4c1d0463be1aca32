/-!
# Maps in insertion order

A map from names to values that remembers the order in which its names were first inserted.
Inserting under a name that is there replaces the value and keeps its place. Lookup after insert
is `get?_insert`; the names after insert are `keys_insert`.
-/

namespace QueryCriteria

/-- Pairs of a name and a value, in order; no name occurs twice. -/
@[ext] structure OrderedMap (α : Type) where
  entries : List (String × α)
  nodup : (entries.map (·.1)).Nodup
deriving Repr, DecidableEq

namespace OrderedMap

variable {α : Type}

/-! ## Pairs -/

/-- Replaces the value under a name that is among the pairs, or puts the pair behind them. -/
def insertPair (name : String) (value : α) : List (String × α) → List (String × α)
  | [] => [(name, value)]
  | (n, v) :: rest =>
    if n = name then (name, value) :: rest else (n, v) :: insertPair name value rest

/-- The names after an insert among pairs. -/
theorem map_fst_insertPair (name : String) (value : α) (entries : List (String × α)) :
    (insertPair name value entries).map (·.1) =
      if name ∈ entries.map (·.1) then entries.map (·.1) else entries.map (·.1) ++ [name] := by
  induction entries with
  | nil => simp [insertPair]
  | cons entry rest ih =>
    obtain ⟨n, v⟩ := entry
    by_cases h : n = name
    · simp [insertPair, h]
    · have h' : ¬ name = n := fun e => h e.symm
      simp only [insertPair, h, if_false, List.map_cons, ih, List.mem_cons, h', false_or]
      by_cases hm : name ∈ rest.map (·.1) <;> simp [hm]

/-- A name that is not there goes behind the others. -/
theorem insertPair_of_notMem {name : String} {value : α} {entries : List (String × α)}
    (h : name ∉ entries.map (·.1)) : insertPair name value entries = entries ++ [(name, value)] := by
  induction entries with
  | nil => rfl
  | cons entry rest ih =>
    simp only [List.map_cons, List.mem_cons, not_or] at h
    have hne : ¬ entry.1 = name := fun e => h.1 e.symm
    simp [insertPair, hne, ih h.2]

/-- An insert brings no pair but its own. -/
theorem eq_or_mem_of_mem_insertPair {name : String} {value : α} {entries : List (String × α)}
    {entry : String × α} (h : entry ∈ insertPair name value entries) :
    entry = (name, value) ∨ entry ∈ entries := by
  induction entries with
  | nil => exact .inl (by simpa [insertPair] using h)
  | cons first rest ih =>
    obtain ⟨n, v⟩ := first
    by_cases hn : n = name
    · rcases (by simpa [insertPair, hn] using h : entry = (name, value) ∨ entry ∈ rest) with h | h
      · exact .inl h
      · exact .inr (.tail _ h)
    · rcases (by simpa [insertPair, hn] using h :
        entry = (n, v) ∨ entry ∈ insertPair name value rest) with h | h
      · exact .inr (h ▸ .head _)
      · exact (ih h).imp_right (.tail _)

/-- Names stay distinct. -/
theorem nodup_insertPair {name : String} {value : α} {entries : List (String × α)}
    (h : (entries.map (·.1)).Nodup) : ((insertPair name value entries).map (·.1)).Nodup := by
  rw [map_fst_insertPair]
  split
  · exact h
  · next hnew =>
    refine List.nodup_append.2 ⟨h, by simp, fun a ha b hb => ?_⟩
    rw [List.mem_singleton.1 hb]
    exact fun e => hnew (e ▸ ha)

/-- Among names in the order of their first occurrences, a further one goes to the end if it is
new. -/
theorem eraseDups_concat {β : Type} [BEq β] [LawfulBEq β] [DecidableEq β] (names : List β)
    (name : β) : (names ++ [name]).eraseDups =
      if name ∈ names then names.eraseDups else names.eraseDups ++ [name] := by
  rw [List.eraseDups_append]
  by_cases h : name ∈ names <;> simp [List.removeAll, List.eraseDups_cons, h]

/-! ## Maps -/

/-- The map without entries. -/
def empty : OrderedMap α := ⟨[], List.nodup_nil⟩

/-- The map with a value under a name. -/
def insert (m : OrderedMap α) (name : String) (value : α) : OrderedMap α :=
  ⟨insertPair name value m.entries, nodup_insertPair m.nodup⟩

/-- The value under a name. -/
def get? (m : OrderedMap α) (name : String) : Option α :=
  (m.entries.find? fun entry => entry.1 = name).map (·.2)

/-- The names, in order. -/
def keys (m : OrderedMap α) : List String := m.entries.map (·.1)

/-- The values, in order. -/
def values (m : OrderedMap α) : List α := m.entries.map (·.2)

/-- The number of names. -/
def size (m : OrderedMap α) : Nat := m.entries.length

/-- Whether there are no names. -/
def isEmpty (m : OrderedMap α) : Bool := m.entries.isEmpty

/-- Inserts pairs in order. -/
def ofList (pairs : List (String × α)) : OrderedMap α :=
  pairs.foldl (fun m pair => m.insert pair.1 pair.2) empty

@[simp] theorem entries_empty : (empty : OrderedMap α).entries = [] := rfl

@[simp] theorem entries_insert (m : OrderedMap α) (name : String) (value : α) :
    (m.insert name value).entries = insertPair name value m.entries := rfl

/-- The names after an insert: the same, with the new one at the end if it was not there. -/
theorem keys_insert (m : OrderedMap α) (name : String) (value : α) :
    (m.insert name value).keys = if name ∈ m.keys then m.keys else m.keys ++ [name] :=
  map_fst_insertPair name value m.entries

/-- What is found after an insert: the new value under its name, the old one elsewhere. -/
theorem get?_insert (m : OrderedMap α) (name other : String) (value : α) :
    (m.insert name value).get? other = if name = other then some value else m.get? other := by
  simp only [get?, entries_insert]
  induction m.entries with
  | nil => by_cases h : name = other <;> simp [insertPair, h]
  | cons entry rest ih =>
    obtain ⟨n, v⟩ := entry
    by_cases h : n = name
    · subst h
      by_cases h' : n = other <;> simp [insertPair, h']
    · simp only [insertPair, h, if_false, List.find?_cons]
      by_cases h' : n = other
      · have : ¬ name = other := fun e => h (h'.trans e.symm)
        simp [h', this]
      · simpa [h'] using ih

/-- A value that is found stands in the entry of its name. -/
theorem mem_entries_of_get? {m : OrderedMap α} {name : String} {value : α}
    (h : m.get? name = some value) : (name, value) ∈ m.entries := by
  obtain ⟨⟨n, v⟩, hfind, rfl⟩ := Option.map_eq_some_iff.1 h
  obtain rfl : n = name := by simpa using List.find?_some hfind
  exact List.mem_of_find?_eq_some hfind

/-- The value in the entry of a name is found. -/
theorem get?_of_mem_entries {m : OrderedMap α} {name : String} {value : α}
    (h : (name, value) ∈ m.entries) : m.get? name = some value := by
  obtain ⟨entries, hnodup⟩ := m
  simp only [get?]
  induction entries with
  | nil => cases h
  | cons entry rest ih =>
    obtain ⟨hfresh, hnodup⟩ := List.nodup_cons.1 hnodup
    rcases List.mem_cons.1 h with rfl | h
    · simp
    · have hne : ¬ entry.1 = name := by
        rintro rfl
        exact hfresh (List.mem_map.2 ⟨_, h, rfl⟩)
      simpa [hne] using ih hnodup h

/-- A name that finds an entry is among the names. -/
theorem mem_keys_of_get? {m : OrderedMap α} {name : String} {value : α}
    (h : m.get? name = some value) : name ∈ m.keys :=
  List.mem_map_of_mem (mem_entries_of_get? h)

end OrderedMap

end QueryCriteria
