import ScriptBridge.OrderedMap

/-!
# Looking up in ordered maps

What a lookup gives after several insertions, and after entries are taken out.

* `latest?` — the value that a list of entries leaves under a key when they are inserted one after
  the other: that of the last entry with the key.
* `get?_insertAll` — a lookup after several insertions finds the latest value, or what was there.
* `keys_insertAll` — the keys after several insertions, the new ones in the order of their first
  occurrences.
* `get?_filterKeys`, `get?_erase` — a lookup after entries are taken out.
* `ofList_of_nodup` — entries with distinct keys stay as they are listed.
-/

namespace ScriptBridge

namespace OrderedMap

variable {κ α : Type} [DecidableEq κ]

/-- The value of the last entry with the key. -/
def latest? (m : OrderedMap κ α) (key : κ) : Option α := m.entries.reverse.lookup key

theorem not_mem_map_fst_iff {entries : List (κ × α)} {key : κ} :
    key ∉ entries.map (·.1) ↔ ∀ entry ∈ entries, (key != entry.1) = true := by
  rw [List.mem_map, not_exists]
  refine forall_congr' fun entry => ?_
  rw [not_and, bne_iff_ne]
  exact imp_congr_right fun _ => ne_comm

theorem lookup_eq_none_of_not_mem {entries : List (κ × α)} {key : κ}
    (h : key ∉ entries.map (·.1)) : entries.lookup key = none :=
  List.lookup_eq_none_iff.mpr (not_mem_map_fst_iff.mp h)

theorem mem_entries_of_get? {m : OrderedMap κ α} {key : κ} {value : α}
    (h : m.get? key = some value) : (key, value) ∈ m.entries := by
  obtain ⟨before, after, hentries, _⟩ := List.lookup_eq_some_iff.mp h
  rw [hentries]
  exact List.mem_append_right before List.mem_cons_self

theorem mem_keys_iff {m : OrderedMap κ α} {key : κ} :
    key ∈ m.keys ↔ ∃ value, m.get? key = some value := by
  constructor
  · intro hmem
    cases hget : m.get? key with
    | some value => exact ⟨value, rfl⟩
    | none =>
      obtain ⟨entry, hentry, rfl⟩ := List.mem_map.mp hmem
      have hne := List.lookup_eq_none_iff.mp hget entry hentry
      simp at hne
  · rintro ⟨value, hget⟩
    exact List.mem_map.mpr ⟨(key, value), mem_entries_of_get? hget, rfl⟩

/-- In a map with distinct keys, the entries are what lookups find. -/
theorem get?_eq_some_iff {m : OrderedMap κ α} (h : m.keys.Nodup) {key : κ} {value : α} :
    m.get? key = some value ↔ (key, value) ∈ m.entries := by
  refine ⟨mem_entries_of_get?, fun hmem => ?_⟩
  obtain ⟨before, after, hentries⟩ := List.append_of_mem hmem
  refine List.lookup_eq_some_iff.mpr ⟨before, after, hentries, fun entry hentry => ?_⟩
  -- An earlier entry with the key would repeat it.
  rw [keys, hentries, List.map_append, List.map_cons, List.nodup_append] at h
  have hne := h.2.2 entry.1 (List.mem_map_of_mem hentry) key List.mem_cons_self
  simpa using Ne.symm hne

/-- The latest value is that of the last entry with the key. -/
theorem latest?_eq_some_iff {m : OrderedMap κ α} {key : κ} {value : α} :
    m.latest? key = some value ↔
      ∃ before after, m.entries = before ++ (key, value) :: after ∧ key ∉ after.map (·.1) := by
  rw [latest?, List.lookup_eq_some_iff]
  constructor
  · rintro ⟨after, before, hentries, hafter⟩
    refine ⟨before.reverse, after.reverse, ?_, ?_⟩
    · rw [← m.entries.reverse_reverse, hentries]
      simp
    · rw [not_mem_map_fst_iff]
      exact fun entry hentry => hafter entry (List.mem_reverse.mp hentry)
  · rintro ⟨before, after, hentries, hafter⟩
    rw [not_mem_map_fst_iff] at hafter
    refine ⟨after.reverse, before.reverse, ?_, ?_⟩
    · rw [hentries]
      simp
    · exact fun entry hentry => hafter entry (List.mem_reverse.mp hentry)

theorem mem_entries_of_latest? {m : OrderedMap κ α} {key : κ} {value : α}
    (h : m.latest? key = some value) : (key, value) ∈ m.entries := by
  obtain ⟨before, after, hentries, _⟩ := latest?_eq_some_iff.mp h
  rw [hentries]
  exact List.mem_append_right before List.mem_cons_self

theorem latest?_eq_none_iff {m : OrderedMap κ α} {key : κ} :
    m.latest? key = none ↔ key ∉ m.keys := by
  rw [latest?, List.lookup_eq_none_iff, keys, not_mem_map_fst_iff]
  simp only [List.mem_reverse]

/-- In a map with distinct keys, the last entry with a key is the only one. -/
theorem latest?_eq_get? {m : OrderedMap κ α} (h : m.keys.Nodup) (key : κ) :
    m.latest? key = m.get? key := by
  obtain ⟨entries⟩ := m
  show entries.reverse.lookup key = entries.lookup key
  change (entries.map (·.1)).Nodup at h
  induction entries with
  | nil => rfl
  | cons entry rest ih =>
    rw [List.map_cons, List.nodup_cons] at h
    rw [List.reverse_cons, List.lookup_append, ih h.2, lookup_cons_eq, lookup_cons_eq]
    by_cases hkey : key = entry.1
    · rw [if_pos hkey, if_pos hkey, hkey, lookup_eq_none_of_not_mem h.1]
      rfl
    · rw [if_neg hkey, if_neg hkey]
      exact Option.or_none

/-- The first entry counts only if no later one has its key. -/
theorem latest?_cons (entry : κ × α) (rest : List (κ × α)) (key : κ) :
    (⟨entry :: rest⟩ : OrderedMap κ α).latest? key =
      ((⟨rest⟩ : OrderedMap κ α).latest? key).or (if key = entry.1 then some entry.2 else none) := by
  rw [latest?, List.reverse_cons, List.lookup_append, lookup_cons_eq]
  rfl

theorem get?_insertAll (m : OrderedMap κ α) (entries : List (κ × α)) (key : κ) :
    (m.insertAll entries).get? key =
      ((⟨entries⟩ : OrderedMap κ α).latest? key).or (m.get? key) := by
  induction entries generalizing m with
  | nil => rfl
  | cons entry rest ih =>
    have hrest : (m.insertAll (entry :: rest)).get? key =
        ((⟨rest⟩ : OrderedMap κ α).latest? key).or ((m.insert entry.1 entry.2).get? key) :=
      ih (m.insert entry.1 entry.2)
    rw [hrest, latest?_cons, get?_insert, Option.or_assoc]
    split <;> rfl

/-- The keys after several insertions: those that were there, then the new ones in the order of
their first occurrences. -/
theorem keys_insertAll (m : OrderedMap κ α) (entries : List (κ × α)) :
    (m.insertAll entries).keys =
      m.keys ++ ((entries.map (·.1)).filter (· ∉ m.keys)).eraseDups := by
  induction entries generalizing m with
  | nil => simp [insertAll]
  | cons entry rest ih =>
    have hrest := ih (m.insert entry.1 entry.2)
    show ((m.insert entry.1 entry.2).insertAll rest).keys = _
    rw [hrest, List.map_cons]
    by_cases hmem : entry.1 ∈ m.keys
    · rw [keys_insert_of_mem hmem, List.filter_cons_of_neg (by simpa using hmem)]
    · -- The first key is new; later occurrences of it do not count any more.
      have hnew : ∀ key : κ, decide (key ∉ m.keys ++ [entry.1]) =
          (!key == entry.1 && decide (key ∉ m.keys)) := by
        intro key
        by_cases hkey : key = entry.1 <;> simp [hkey]
      rw [keys_insert_of_not_mem hmem, List.filter_cons_of_pos (by simpa using hmem),
        List.eraseDups_cons, List.filter_filter, List.append_assoc, List.singleton_append]
      simp only [hnew]

theorem get?_filterKeys (m : OrderedMap κ α) (keep : κ → Bool) (key : κ) :
    (m.filterKeys keep).get? key = if keep key then m.get? key else none := by
  obtain ⟨entries⟩ := m
  show (entries.filter (keep ·.1)).lookup key = if keep key then entries.lookup key else none
  induction entries with
  | nil => exact (ite_self none).symm
  | cons entry rest ih =>
    rw [List.filter_cons, lookup_cons_eq]
    by_cases hkey : key = entry.1
    · -- The first entry decides, unless it is taken out; then so are all others with its key.
      rw [if_pos hkey, ← hkey]
      split
      · rw [lookup_cons_eq, if_pos hkey]
      · next hkeep => rw [ih, if_neg hkeep]
    · rw [if_neg hkey]
      split
      · rw [lookup_cons_eq, if_neg hkey, ih]
      · exact ih

theorem get?_erase (m : OrderedMap κ α) (erased key : κ) :
    (m.erase erased).get? key = if key = erased then none else m.get? key := by
  rw [erase, get?_filterKeys]
  by_cases h : key = erased <;> simp [h]

/-- What is in a map that is built from entries is one of the entries. -/
theorem mem_of_mem_entries_ofList {entries : List (κ × α)} {entry : κ × α}
    (h : entry ∈ (ofList entries).entries) : entry ∈ entries := by
  have hget := (get?_eq_some_iff (nodup_ofList entries)).mpr h
  rw [ofList, get?_insertAll, get?_empty, Option.or_none] at hget
  exact mem_entries_of_latest? hget

/-! ## Entries with distinct keys -/

theorem insertEntry_of_not_mem {entries : List (κ × α)} {key : κ} (h : key ∉ entries.map (·.1))
    (value : α) : insertEntry key value entries = entries ++ [(key, value)] := by
  induction entries with
  | nil => rfl
  | cons entry rest ih =>
    rw [List.map_cons, List.mem_cons, not_or] at h
    rw [insertEntry, if_neg (Ne.symm h.1), ih h.2, List.cons_append]

theorem insertAll_of_nodup {m : OrderedMap κ α} {entries : List (κ × α)}
    (h : (m.keys ++ entries.map (·.1)).Nodup) : m.insertAll entries = ⟨m.entries ++ entries⟩ := by
  induction entries generalizing m with
  | nil => rw [List.append_nil]; rfl
  | cons entry rest ih =>
    rw [List.map_cons, List.append_cons] at h
    have hnew : entry.1 ∉ m.keys := by
      have hkeys := (List.nodup_append.mp (List.nodup_append.mp h).1).2.2
      exact fun hmem => hkeys entry.1 hmem entry.1 (List.mem_singleton_self _) rfl
    have hinsert : m.insert entry.1 entry.2 = ⟨m.entries ++ [entry]⟩ := by
      rw [insert, insertEntry_of_not_mem hnew]
    have hrest : (m.insert entry.1 entry.2).insertAll rest =
        ⟨(m.insert entry.1 entry.2).entries ++ rest⟩ := by
      refine ih ?_
      rwa [keys_insert_of_not_mem hnew]
    show (m.insert entry.1 entry.2).insertAll rest = _
    rw [hrest, hinsert, ← List.append_cons]

/-- A map that is built from entries with distinct keys has just these entries. -/
theorem ofList_of_nodup {entries : List (κ × α)} (h : (entries.map (·.1)).Nodup) :
    ofList entries = ⟨entries⟩ :=
  insertAll_of_nodup h

end OrderedMap

end ScriptBridge
