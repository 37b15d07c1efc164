import Mathlib.Data.Finset.Card
import ScriptBridge.Bridge.Catalogue
import ScriptBridge.Proofs.OrderedMap

/-!
# Objects by their construction

Script objects, global scopes, value bags, stored props and measurements are all built in one way:
by setting one property after the other, starting from nothing. So an object is determined by the
list of the entries that were set, in which keys may repeat. Where a key stands is decided by its
first occurrence, what it is bound to by its last.

* `Object.Assembled` — an object and the entries that were set, one insertion at a time.
* `Object.Collects` — what is in an object, as seen from the list of entries.
* `Object.SetsProperty` — what setting one more property changes.
* `ordered_object_law` — every object that can be built is of this kind, whichever way it is built.
-/

namespace ScriptBridge

namespace OrderedMap

variable {κ α : Type} [DecidableEq κ]

/-! ## One insertion more -/

theorem ofList_concat (entries : List (κ × α)) (entry : κ × α) :
    ofList (entries ++ [entry]) = (ofList entries).insert entry.1 entry.2 :=
  List.foldl_concat _ _ _ _

theorem keys_ofList (entries : List (κ × α)) :
    (ofList entries).keys = (entries.map (·.1)).eraseDups := by
  have hall : ∀ key ∈ entries.map (·.1), decide (key ∉ (empty : OrderedMap κ α).keys) = true :=
    fun key _ => decide_eq_true List.not_mem_nil
  rw [ofList, keys_insertAll, List.filter_eq_self.mpr hall]
  exact List.nil_append _

theorem get?_ofList (entries : List (κ × α)) (key : κ) :
    (ofList entries).get? key = (⟨entries⟩ : OrderedMap κ α).latest? key := by
  rw [ofList, get?_insertAll, get?_empty, Option.or_none]

theorem mem_keys_ofList {entries : List (κ × α)} {key : κ} :
    key ∈ (ofList entries).keys ↔ key ∈ entries.map (·.1) := by
  rw [keys_ofList, List.mem_eraseDups]

theorem contains_iff_mem_keys {m : OrderedMap κ α} {key : κ} :
    m.contains key = true ↔ key ∈ m.keys := by
  rw [mem_keys_iff, contains, Option.isSome_iff_exists]

/-- Keys stand in the order of their first occurrences. An insertion either leaves the keys as they
are, or adds one whose first occurrence comes after all others. -/
theorem pairwise_idxOf_ofList (entries : List (κ × α)) :
    (ofList entries).keys.Pairwise fun a b =>
      (entries.map (·.1)).idxOf a < (entries.map (·.1)).idxOf b := by
  induction entries using List.reverseRecOn with
  | nil => exact List.Pairwise.nil
  | append_singleton entries entry ih =>
    have hidx : ∀ key ∈ (ofList entries).keys,
        (entries.map (·.1) ++ [entry.1]).idxOf key = (entries.map (·.1)).idxOf key :=
      fun key hkey => List.idxOf_append_of_mem (mem_keys_ofList.mp hkey)
    have hbefore : (ofList entries).keys.Pairwise fun a b =>
        (entries.map (·.1) ++ [entry.1]).idxOf a < (entries.map (·.1) ++ [entry.1]).idxOf b := by
      refine ih.imp_of_mem fun {a b} ha hb hab => ?_
      rwa [hidx a ha, hidx b hb]
    rw [ofList_concat, List.map_append, List.map_singleton]
    by_cases hmem : entry.1 ∈ (ofList entries).keys
    · rwa [keys_insert_of_mem hmem]
    · rw [keys_insert_of_not_mem hmem]
      refine List.pairwise_append.mpr ⟨hbefore, List.pairwise_singleton _ _, ?_⟩
      intro a ha b hb
      obtain rfl := List.mem_singleton.mp hb
      have hnew : entry.1 ∉ entries.map (·.1) := fun h => hmem (mem_keys_ofList.mpr h)
      rw [hidx a ha, List.idxOf_append_of_notMem hnew, List.idxOf_cons_self, Nat.add_zero]
      exact List.idxOf_lt_length_of_mem (mem_keys_ofList.mp ha)

theorem size_ofList (entries : List (κ × α)) :
    (ofList entries).size = (entries.map (·.1)).toFinset.card := by
  have hkeys : (ofList entries).keys.toFinset = (entries.map (·.1)).toFinset := by
    ext key
    rw [List.mem_toFinset, List.mem_toFinset, mem_keys_ofList]
  rw [← hkeys, List.toFinset_card_of_nodup (nodup_ofList entries), keys, List.length_map, size]

/-- A present key is rebound where it stands. -/
theorem insertEntry_of_mem {before after : List (κ × α)} {key : κ} {old : α}
    (h : key ∉ before.map (·.1)) (value : α) :
    insertEntry key value (before ++ (key, old) :: after) = before ++ (key, value) :: after := by
  induction before with
  | nil => exact if_pos rfl
  | cons entry rest ih =>
    rw [List.map_cons, List.mem_cons, not_or] at h
    rw [List.cons_append, insertEntry, if_neg (Ne.symm h.1), ih h.2, List.cons_append]

end OrderedMap

namespace Object

/-! ## Building objects -/

/-- An object that is built by setting properties one after the other, and what was set. -/
inductive Assembled : List (String × Value) → Object → Prop
  | empty : Assembled [] .empty
  | set {entries : List (String × Value)} {o : Object} (key : String) (value : Value) :
      Assembled entries o → Assembled (entries ++ [(key, value)]) (o.insert key value)

theorem assembled_ofList (entries : List (String × Value)) :
    Assembled entries (.ofList entries) := by
  induction entries using List.reverseRecOn with
  | nil => exact .empty
  | append_singleton entries entry ih =>
    rw [OrderedMap.ofList_concat]
    exact .set entry.1 entry.2 ih

/-- Collecting entries is setting them one after the other. -/
theorem assembled_iff {entries : List (String × Value)} {o : Object} :
    Assembled entries o ↔ o = .ofList entries := by
  constructor
  · intro h
    induction h with
    | empty => rfl
    | set key value _ ih => rw [ih, OrderedMap.ofList_concat]
  · rintro rfl
    exact assembled_ofList entries

/-! ## What is in an object -/

/-- What is in an object that was built from a list of entries, and what its views show of it. -/
structure Collects (entries : List (String × Value)) (o : Object) : Prop where
  distinct : o.keys.Nodup
  occur : ∀ key, key ∈ o.keys ↔ key ∈ entries.map (·.1)
  /-- Keys stand in the order of their first occurrences. -/
  order : o.keys.Pairwise fun a b =>
    (entries.map (·.1)).idxOf a < (entries.map (·.1)).idxOf b
  /-- The last occurrence of a key gives the value. -/
  last : ∀ before key value after, entries = before ++ (key, value) :: after →
    key ∉ after.map (·.1) → (key, value) ∈ o.entries
  /-- There are as many properties as distinct keys. -/
  size : o.size = (entries.map (·.1)).toFinset.card
  has : ∀ key, o.contains key = true ↔ key ∈ o.keys
  get : ∀ key value, o.get? key = some value ↔ (key, value) ∈ o.entries
  number : ∀ key x, o.number? key = some x ↔ (key, .number x) ∈ o.entries
  /-- Entries with distinct keys are listed as they are. -/
  plain : (entries.map (·.1)).Nodup → o.entries = entries
  /-- The entries of the object rebuild it. -/
  rebuilt : .ofList o.entries = o

theorem number?_eq_some_iff {o : Object} {key : String} {x : Binary64} :
    o.number? key = some x ↔ o.get? key = some (.number x) := by
  rw [OrderedMap.number?, Option.bind_eq_some_iff]
  constructor
  · rintro ⟨value, hget, hnumber⟩
    cases value with
    | number y => rw [hget, Option.some.inj hnumber]
    | _ => cases hnumber
  · exact fun hget => ⟨.number x, hget, rfl⟩

theorem collects_ofList (entries : List (String × Value)) :
    Collects entries (.ofList entries) := by
  have hnodup : (OrderedMap.ofList entries).keys.Nodup := OrderedMap.nodup_ofList entries
  constructor
  case distinct => exact hnodup
  case occur => exact fun key => OrderedMap.mem_keys_ofList
  case order => exact OrderedMap.pairwise_idxOf_ofList entries
  case last =>
    intro before key value after hsplit hlast
    apply OrderedMap.mem_entries_of_get?
    rw [OrderedMap.get?_ofList, OrderedMap.latest?_eq_some_iff]
    exact ⟨before, after, hsplit, hlast⟩
  case size => exact OrderedMap.size_ofList entries
  case has => exact fun key => OrderedMap.contains_iff_mem_keys
  case get => exact fun key value => OrderedMap.get?_eq_some_iff hnodup
  case number =>
    intro key x
    rw [number?_eq_some_iff, OrderedMap.get?_eq_some_iff hnodup]
  case plain => exact fun hplain => congrArg OrderedMap.entries (OrderedMap.ofList_of_nodup hplain)
  case rebuilt => exact OrderedMap.ofList_of_nodup hnodup

/-- What setting a property does: it changes the value under its own key at most, and it adds the
key at the end only if it was absent. -/
structure SetsProperty (o : Object) (key : String) (value : Value) (after : Object) : Prop where
  present : ∀ front old back, o.entries = front ++ (key, old) :: back →
    after.entries = front ++ (key, value) :: back
  absent : key ∉ o.keys → after.entries = o.entries ++ [(key, value)]

/-- Objects with distinct keys have one place for each key. -/
theorem setsProperty_insert {o : Object} (h : o.keys.Nodup) (key : String) (value : Value) :
    SetsProperty o key value (o.insert key value) := by
  constructor
  case present =>
    intro front old back hsplit
    have hfront : key ∉ front.map (·.1) := by
      rw [OrderedMap.keys, hsplit, List.map_append, List.map_cons, List.nodup_append] at h
      exact fun hmem => h.2.2 key hmem key List.mem_cons_self rfl
    rw [OrderedMap.insert, hsplit]
    exact OrderedMap.insertEntry_of_mem hfront value
  case absent => exact fun habsent => OrderedMap.insertEntry_of_not_mem habsent value

end Object

/-- Binding globals one after the other sets properties of the scope. -/
theorem Runtime.assembled_setGlobal (id : RuntimeId) (kind : RuntimeKind)
    (entries : List (String × Value)) :
    Object.Assembled entries
      (entries.foldl (fun rt entry => rt.setGlobal entry.1 entry.2) (Runtime.new id kind)).global := by
  induction entries using List.reverseRecOn with
  | nil => exact .empty
  | append_singleton entries entry ih =>
    rw [List.foldl_concat]
    exact .set entry.1 entry.2 ih

/-- **Objects are what was set.** For every list of entries, in which keys may repeat, one object
can be built by setting them in this order, and it is the one that is collected from the list; it
lists each key once, in the order of the first occurrences and with the values of the last ones, and
all lookups show this listing. Setting one more property touches no other entry. Measurements are
collected from their named numbers, and a global scope from all that was bound in it. -/
theorem ordered_object_law (entries : List (String × Value)) :
    (∀ o, Object.Assembled entries o ↔ o = .ofList entries) ∧
    Object.Collects entries (.ofList entries) ∧
    (∀ key value, Object.SetsProperty (.ofList entries) key value
      ((OrderedMap.ofList entries).insert key value)) ∧
    (∀ pairs : List (String × Binary64),
      Object.Collects (pairs.map fun pair => (pair.1, .number pair.2)) (measurementObject pairs)) ∧
    ∀ id kind, Object.Collects entries
      (entries.foldl (fun rt entry => rt.setGlobal entry.1 entry.2)
        (Runtime.new id kind)).global := by
  refine ⟨fun o => Object.assembled_iff, Object.collects_ofList entries, ?_, ?_, ?_⟩
  · intro key value
    exact Object.setsProperty_insert (OrderedMap.nodup_ofList entries) key value
  · exact fun pairs => Object.collects_ofList _
  · intro id kind
    rw [Object.assembled_iff.mp (Runtime.assembled_setGlobal id kind entries)]
    exact Object.collects_ofList entries

/-- The first occurrence gives the place, the last one the value. -/
example : (OrderedMap.ofList [("x", Value.null), ("y", .null), ("x", .bool true)]).entries =
    [("x", .bool true), ("y", .null)] :=
  rfl

end ScriptBridge
