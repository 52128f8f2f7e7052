/-!
# Maps that keep their order

Attributes, headers, queries and filter options are maps whose order shows in the output. A map
here is its list of entries with a proof that no key occurs twice. Writing a key that is already
there replaces its value and keeps its place; a new key goes to the end.

## Main results

* `get?_insert` — a written key reads as the new value and every other key as before.
* `get?_mapValues` — a key reads as its changed value.
* `keys_insert_of_mem`, `keys_insert_of_not_mem` — the order of the keys after a write.
* `ofList_entries` — building a map from its own entries gives the map back.
-/

namespace PagePress

universe u v

/-- A map in insertion order. -/
structure OrderedMap (α : Type u) where
  /-- Keys with their values, first written first. -/
  entries : List (String × α)
  /-- No key occurs twice. -/
  distinct : (entries.map Prod.fst).Nodup

namespace OrderedMap

variable {α : Type u} {β : Type v}

/-! ## Entry lists -/

/-- Writes a key into an entry list: in place when it is there, else at the end. -/
def write (key : String) (value : α) : List (String × α) → List (String × α)
  | [] => [(key, value)]
  | entry :: rest =>
    if entry.1 = key then (key, value) :: rest else entry :: write key value rest

theorem keys_write_of_mem {key : String} {value : α} {entries : List (String × α)}
    (h : key ∈ entries.map Prod.fst) :
    (write key value entries).map Prod.fst = entries.map Prod.fst := by
  induction entries with
  | nil => simp at h
  | cons entry rest ih =>
    simp only [write]
    split
    · rename_i hk
      simp [hk]
    · rename_i hk
      have hr : key ∈ rest.map Prod.fst := by
        rcases List.mem_cons.1 (by simpa using h : key ∈ entry.1 :: rest.map Prod.fst) with h | h
        · exact absurd h.symm hk
        · exact h
      simp [ih hr]

theorem keys_write_of_not_mem {key : String} {value : α} {entries : List (String × α)}
    (h : key ∉ entries.map Prod.fst) : write key value entries = entries ++ [(key, value)] := by
  induction entries with
  | nil => rfl
  | cons entry rest ih =>
    have hk : entry.1 ≠ key := fun hk => h (by simp [hk])
    have hr : key ∉ rest.map Prod.fst := fun hr => h (by
      rw [List.map_cons]
      exact List.mem_cons_of_mem _ hr)
    simp [write, hk, ih hr]

theorem nodup_write {key : String} {value : α} {entries : List (String × α)}
    (h : (entries.map Prod.fst).Nodup) : ((write key value entries).map Prod.fst).Nodup := by
  by_cases hm : key ∈ entries.map Prod.fst
  · rw [keys_write_of_mem hm]
    exact h
  · rw [keys_write_of_not_mem hm, List.map_append, List.nodup_append]
    refine ⟨h, by simp, ?_⟩
    intro a ha b hb
    have hb' : b = key := by simpa using hb
    subst hb'
    exact fun hab => hm (hab ▸ ha)

/-! ## Maps -/

/-- The map without entries. -/
def empty : OrderedMap α := ⟨[], by simp⟩

instance : Inhabited (OrderedMap α) := ⟨empty⟩

instance : EmptyCollection (OrderedMap α) := ⟨empty⟩

/-- The value of a key. -/
def get? (m : OrderedMap α) (key : String) : Option α :=
  m.entries.lookup key

/-- Writes a key. -/
def insert (m : OrderedMap α) (key : String) (value : α) : OrderedMap α :=
  ⟨write key value m.entries, nodup_write m.distinct⟩

/-- The map of an entry list: of entries with one key the last gives the value and the first the
place. -/
def ofList (entries : List (String × α)) : OrderedMap α :=
  entries.foldl (fun m entry => m.insert entry.1 entry.2) empty

/-- The keys in order. -/
def keys (m : OrderedMap α) : List String := m.entries.map Prod.fst

/-- The values in order. -/
def values (m : OrderedMap α) : List α := m.entries.map Prod.snd

/-- Whether there is no entry. -/
def isEmpty (m : OrderedMap α) : Bool := m.entries.isEmpty

/-- The same keys with their values changed. -/
def mapValues (f : α → β) (m : OrderedMap α) : OrderedMap β :=
  ⟨m.entries.map fun entry => (entry.1, f entry.2), by
    have h : (m.entries.map fun entry => (entry.1, f entry.2)).map Prod.fst =
        m.entries.map Prod.fst := by simp
    rw [h]
    exact m.distinct⟩

/-- The entries that a test keeps. -/
def filter (p : String → α → Bool) (m : OrderedMap α) : OrderedMap α :=
  ⟨m.entries.filter fun entry => p entry.1 entry.2,
    m.distinct.sublist ((List.filter_sublist).map Prod.fst)⟩

/-! ## Laws -/

theorem ext {m n : OrderedMap α} (h : m.entries = n.entries) : m = n := by
  cases m
  cases n
  cases h
  rfl

@[simp] theorem entries_insert (m : OrderedMap α) (key : String) (value : α) :
    (m.insert key value).entries = write key value m.entries := rfl

theorem keys_insert_of_mem {m : OrderedMap α} {key : String} {value : α} (h : key ∈ m.keys) :
    (m.insert key value).keys = m.keys :=
  keys_write_of_mem h

theorem keys_insert_of_not_mem {m : OrderedMap α} {key : String} {value : α} (h : key ∉ m.keys) :
    (m.insert key value).keys = m.keys ++ [key] := by
  simp [keys, keys_write_of_not_mem h]

theorem lookup_cons_eq_ite (key other : String) (value : α) (entries : List (String × α)) :
    ((key, value) :: entries).lookup other =
      if other = key then some value else entries.lookup other := by
  by_cases h : other = key
  · simp [h]
  · have hb : (other == key) = false := by simpa using h
    simp [List.lookup_cons, h, hb]

theorem lookup_write (key other : String) (value : α) (entries : List (String × α)) :
    (write key value entries).lookup other =
      if other = key then some value else entries.lookup other := by
  induction entries with
  | nil => rw [write, lookup_cons_eq_ite]
  | cons entry rest ih =>
    obtain ⟨k, w⟩ := entry
    simp only [write]
    split
    · rename_i hk
      subst hk
      rw [lookup_cons_eq_ite, lookup_cons_eq_ite]
      by_cases h : other = k <;> simp [h]
    · rename_i hk
      rw [lookup_cons_eq_ite, lookup_cons_eq_ite, ih]
      by_cases h : other = k
      · subst h
        simp [hk]
      · simp [h]

theorem get?_insert (m : OrderedMap α) (key other : String) (value : α) :
    (m.insert key value).get? other = if other = key then some value else m.get? other :=
  lookup_write key other value m.entries

theorem lookup_mapValues (f : α → β) (key : String) (entries : List (String × α)) :
    (entries.map fun entry => (entry.1, f entry.2)).lookup key = (entries.lookup key).map f := by
  induction entries with
  | nil => rfl
  | cons entry rest ih =>
    obtain ⟨k, w⟩ := entry
    rw [List.map_cons, lookup_cons_eq_ite, lookup_cons_eq_ite, ih]
    split <;> rfl

theorem get?_mapValues (f : α → β) (m : OrderedMap α) (key : String) :
    (m.mapValues f).get? key = (m.get? key).map f :=
  lookup_mapValues f key m.entries

theorem entries_foldl_insert (entries : List (String × α)) (m : OrderedMap α)
    (h : ((m.entries ++ entries).map Prod.fst).Nodup) :
    (entries.foldl (fun m entry => m.insert entry.1 entry.2) m).entries = m.entries ++ entries := by
  induction entries generalizing m with
  | nil => simp
  | cons entry rest ih =>
    have hm : entry.1 ∉ m.entries.map Prod.fst := by
      intro hm
      rw [List.map_append, List.nodup_append] at h
      exact h.2.2 entry.1 hm entry.1 (by simp) rfl
    have he : (m.insert entry.1 entry.2).entries = m.entries ++ [entry] :=
      keys_write_of_not_mem hm
    have hn : (((m.insert entry.1 entry.2).entries ++ rest).map Prod.fst).Nodup := by
      rw [he]
      simpa using h
    rw [List.foldl_cons, ih _ hn, he]
    simp

theorem ofList_entries (m : OrderedMap α) : ofList m.entries = m :=
  ext (entries_foldl_insert m.entries empty m.distinct)

end OrderedMap

end PagePress
