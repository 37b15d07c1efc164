/-!
# Maps that keep the order of insertion

A finite map whose entries are listed in the order in which their keys were first inserted.
Inserting a present key replaces its value in place and moves nothing.

The view of a map is `entries`. `insert` either rebinds one entry or appends one, which is what
`keys_insert_of_mem` and `keys_insert_of_not_mem` say; so the keys of every map that is built by
insertions are distinct (`nodup_ofList`).
-/

namespace ScriptBridge

/-- A finite map, its entries in insertion order. -/
structure OrderedMap (κ α : Type) where
  entries : List (κ × α)
deriving Repr, DecidableEq

namespace OrderedMap

variable {κ α : Type}

/-- The map without entries. -/
def empty : OrderedMap κ α := ⟨[]⟩

instance : Inhabited (OrderedMap κ α) := ⟨empty⟩

/-- The keys in insertion order. -/
def keys (m : OrderedMap κ α) : List κ := m.entries.map (·.1)

/-- The number of entries. -/
def size (m : OrderedMap κ α) : Nat := m.entries.length

/-- There are no entries. -/
def isEmpty (m : OrderedMap κ α) : Bool := m.entries.isEmpty

variable [DecidableEq κ]

/-- The value under a key. -/
def get? (m : OrderedMap κ α) (key : κ) : Option α := m.entries.lookup key

/-- Whether there is a value under the key. -/
def contains (m : OrderedMap κ α) (key : κ) : Bool := (m.get? key).isSome

/-- Rebind the key in a list of entries, at the end if it is new. -/
def insertEntry (key : κ) (value : α) : List (κ × α) → List (κ × α)
  | [] => [(key, value)]
  | entry :: rest =>
    if entry.1 = key then (key, value) :: rest else entry :: insertEntry key value rest

/-- Bind the key to the value: in place if the key is present, at the end otherwise. -/
def insert (m : OrderedMap κ α) (key : κ) (value : α) : OrderedMap κ α :=
  ⟨insertEntry key value m.entries⟩

/-- The entries whose keys pass the test. -/
def filterKeys (m : OrderedMap κ α) (keep : κ → Bool) : OrderedMap κ α :=
  ⟨m.entries.filter (keep ·.1)⟩

/-- The map without the key. -/
def erase (m : OrderedMap κ α) (key : κ) : OrderedMap κ α := m.filterKeys (· ≠ key)

/-- Insert the entries of a list one after the other. -/
def insertAll (m : OrderedMap κ α) (entries : List (κ × α)) : OrderedMap κ α :=
  entries.foldl (fun m entry => m.insert entry.1 entry.2) m

/-- The map built from a list of entries, later ones replacing earlier ones in place. -/
def ofList (entries : List (κ × α)) : OrderedMap κ α := empty.insertAll entries

/-! ## Insertion through the view -/

theorem map_fst_insertEntry (key : κ) (value : α) (entries : List (κ × α)) :
    (insertEntry key value entries).map (·.1) =
      if key ∈ entries.map (·.1) then entries.map (·.1) else entries.map (·.1) ++ [key] := by
  induction entries with
  | nil => simp [insertEntry]
  | cons entry rest ih =>
    by_cases h : entry.1 = key
    · simp [insertEntry, h]
    · simp only [insertEntry, h, if_false, List.map_cons, ih, List.mem_cons, Ne.symm h, false_or]
      split <;> simp

theorem lookup_cons_eq (key key' : κ) (value : α) (rest : List (κ × α)) :
    List.lookup key' ((key, value) :: rest) =
      if key' = key then some value else rest.lookup key' := by
  by_cases h : key' = key
  · simp [h]
  · simp [List.lookup_cons, h, beq_eq_false_iff_ne.2 h]

theorem lookup_insertEntry (key key' : κ) (value : α) (entries : List (κ × α)) :
    (insertEntry key value entries).lookup key' =
      if key' = key then some value else entries.lookup key' := by
  induction entries with
  | nil => simp only [insertEntry, lookup_cons_eq]
  | cons entry rest ih =>
    obtain ⟨k, v⟩ := entry
    simp only [insertEntry]
    split
    · next hk =>
      simp only [lookup_cons_eq]
      split <;> simp_all
    · next hk =>
      simp only [lookup_cons_eq, ih]
      split <;> simp_all

theorem keys_insert_of_mem {m : OrderedMap κ α} {key : κ} (h : key ∈ m.keys) (value : α) :
    (m.insert key value).keys = m.keys := by
  simpa [keys, insert, map_fst_insertEntry] using h

theorem keys_insert_of_not_mem {m : OrderedMap κ α} {key : κ} (h : key ∉ m.keys) (value : α) :
    (m.insert key value).keys = m.keys ++ [key] := by
  simp only [keys] at h
  simp [keys, insert, map_fst_insertEntry, h]

@[simp]
theorem get?_insert (m : OrderedMap κ α) (key key' : κ) (value : α) :
    (m.insert key value).get? key' = if key' = key then some value else m.get? key' :=
  lookup_insertEntry key key' value m.entries

@[simp]
theorem get?_empty (key : κ) : (empty : OrderedMap κ α).get? key = none := rfl

theorem nodup_insert {m : OrderedMap κ α} (h : m.keys.Nodup) (key : κ) (value : α) :
    (m.insert key value).keys.Nodup := by
  by_cases hk : key ∈ m.keys
  · rwa [keys_insert_of_mem hk]
  · rw [keys_insert_of_not_mem hk, List.nodup_append]
    refine ⟨h, by simp, ?_⟩
    intro a ha b hb
    simp only [List.mem_singleton] at hb
    subst hb
    exact fun hab => hk (hab ▸ ha)

theorem nodup_insertAll {m : OrderedMap κ α} (h : m.keys.Nodup) (entries : List (κ × α)) :
    (m.insertAll entries).keys.Nodup := by
  induction entries generalizing m with
  | nil => exact h
  | cons entry rest ih => exact ih (nodup_insert h entry.1 entry.2)

theorem nodup_ofList (entries : List (κ × α)) : (ofList entries).keys.Nodup :=
  nodup_insertAll (by simp [empty, keys]) entries

end OrderedMap

end ScriptBridge
