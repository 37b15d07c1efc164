import Mathlib.Data.List.Forall2
import Mathlib.Data.List.Perm.Subperm
import ScriptBridge.Proofs.Installation
import ScriptBridge.Proofs.OrderedMap
import ScriptBridge.Value.Equality

/-!
# What equality of values is

Equality of script values is a partial equivalence: symmetric and transitive, and reflexive exactly
where no not-a-number occurs. It does not see the order of properties.

Objects are compared by a search from one side and a count. That this is symmetric rests on
distinct keys, so the theory is about well-formed values; those are the ones that insertion builds
(`wellFormed_object_iff_exists_ofList`).

* `Value.array_same_iff`, `Value.object_same_iff` — what an array and an object are equal to. The
  laws are derived from these.
* `Value.same_object_iff` — the comparison of objects as a statement about keys and lookups.
* `Value.HoldsNaN`, `Value.same_self_iff` — what differs from itself.
* `Value.Rearranged` — permuted properties, at any depth.
* `Value.equality_law` — all of it.
-/

namespace ScriptBridge

namespace Value

/-- Exactly the objects that are built by insertions of well-formed values are well-formed. -/
theorem wellFormed_object_iff_exists_ofList {o : Object} :
    (object o).WellFormed ↔
      ∃ entries, o = .ofList entries ∧ ∀ entry ∈ entries, entry.2.WellFormed := by
  rw [wellFormed_object_iff]
  constructor
  · rintro ⟨hkeys, hvalues⟩
    exact ⟨o.entries, (OrderedMap.ofList_of_nodup hkeys).symm, hvalues⟩
  · rintro ⟨entries, rfl, hvalues⟩
    refine ⟨OrderedMap.nodup_ofList entries, fun entry hentry => hvalues entry ?_⟩
    exact OrderedMap.mem_of_mem_entries_ofList hentry

/-! ## Arrays and objects -/

theorem sameItems_iff_forall₂ {items items' : List Value} :
    sameItems items items' = true ↔ List.Forall₂ (fun v w => v.same w = true) items items' := by
  rw [sameItems_iff, List.forall₂_iff_zip]
  refine and_congr_right fun _ => ⟨fun h a b hab => h (a, b) hab, fun h pair hpair => h hpair⟩

/-- What an array is equal to. -/
theorem array_same_iff {items : List Value} {v : Value} :
    (array items).same v = true ↔
      ∃ items', v = array items' ∧ List.Forall₂ (fun v w => v.same w = true) items items' := by
  cases v with
  | array items' =>
    show sameItems items items' = true ↔ _
    rw [sameItems_iff_forall₂]
    simp
  | _ => simp [same]

/-- What an object is equal to. -/
theorem object_same_iff {o : Object} {v : Value} :
    (object o).same v = true ↔
      ∃ o', v = object o' ∧ o.size = o'.size ∧
        ∀ entry ∈ o.entries, ∃ other, o'.get? entry.1 = some other ∧
          entry.2.same other = true := by
  cases v with
  | object o' =>
    show (o.entries.length == o'.size && foundIn o.entries o') = true ↔ _
    rw [Bool.and_eq_true, beq_iff_eq, foundIn_iff]
    simp [OrderedMap.size]
  | _ => simp [same]

/-- With distinct keys on both sides the one-sided search is symmetric: as many keys, all of them
found, are the same keys. -/
theorem mem_keys_iff_of_found {o o' : Object} (ho : o.keys.Nodup) (hsize : o.size = o'.size)
    (hfound : ∀ entry ∈ o.entries, ∃ other, o'.get? entry.1 = some other ∧
      entry.2.same other = true) (key : String) :
    key ∈ o.keys ↔ key ∈ o'.keys := by
  have hsubset : o.keys ⊆ o'.keys := by
    intro key hkey
    obtain ⟨entry, hentry, rfl⟩ := List.mem_map.mp hkey
    obtain ⟨other, hother, _⟩ := hfound entry hentry
    exact OrderedMap.mem_keys_iff.mpr ⟨other, hother⟩
  have hlength : o'.keys.length ≤ o.keys.length := by
    simp only [OrderedMap.keys, List.length_map]
    exact Nat.le_of_eq hsize.symm
  exact ((List.subperm_of_subset ho hsubset).perm_of_length_le hlength).mem_iff

/-- **Objects are equal when they have the same keys and equal values under each of them**, in
whatever order. -/
theorem same_object_iff {o o' : Object} (ho : o.keys.Nodup) (ho' : o'.keys.Nodup) :
    (object o).same (object o') = true ↔
      (∀ key, key ∈ o.keys ↔ key ∈ o'.keys) ∧
        ∀ key v w, o.get? key = some v → o'.get? key = some w → v.same w = true := by
  rw [object_same_iff]
  constructor
  · rintro ⟨_, heq, hsize, hfound⟩
    obtain rfl := Value.object.inj heq
    refine ⟨mem_keys_iff_of_found ho hsize hfound, fun key v w hv hw => ?_⟩
    obtain ⟨other, hother, hsame⟩ := hfound (key, v) (OrderedMap.mem_entries_of_get? hv)
    rw [hw] at hother
    obtain rfl := Option.some.inj hother
    exact hsame
  · rintro ⟨hkeys, hvalues⟩
    have hperm := (List.perm_ext_iff_of_nodup ho ho').mpr hkeys
    have hsize : o.size = o'.size := by
      have hlength := hperm.length_eq
      rwa [OrderedMap.keys, OrderedMap.keys, List.length_map, List.length_map] at hlength
    refine ⟨o', rfl, hsize, fun entry hentry => ?_⟩
    have hkey : entry.1 ∈ o'.keys := (hkeys entry.1).mp (List.mem_map_of_mem hentry)
    obtain ⟨w, hw⟩ := OrderedMap.mem_keys_iff.mp hkey
    exact ⟨w, hw, hvalues entry.1 entry.2 w ((OrderedMap.get?_eq_some_iff ho).mpr hentry) hw⟩

/-! ## Symmetry and transitivity -/

theorem same_symm {v w : Value} (hv : v.WellFormed) (hw : w.WellFormed) (h : v.same w = true) :
    w.same v = true := by
  induction v using Value.inductionOn generalizing w with
  | object o ih =>
    obtain ⟨o', rfl, _⟩ := object_same_iff.mp h
    obtain ⟨ho, hvalues⟩ := wellFormed_object_iff.mp hv
    obtain ⟨ho', hvalues'⟩ := wellFormed_object_iff.mp hw
    rw [same_object_iff ho ho'] at h
    rw [same_object_iff ho' ho]
    refine ⟨fun key => (h.1 key).symm, fun key y x hy hx => ?_⟩
    have hmem := OrderedMap.mem_entries_of_get? hx
    have hmem' := OrderedMap.mem_entries_of_get? hy
    exact ih (key, x) hmem (hvalues _ hmem) (hvalues' _ hmem') (h.2 key x y hx hy)
  | array items ih =>
    obtain ⟨items', rfl, hitems⟩ := array_same_iff.mp h
    refine array_same_iff.mpr ⟨items, rfl, ?_⟩
    rw [wellFormed_array_iff] at hv hw
    clear h
    induction hitems with
    | nil => exact .nil
    | cons hfirst _ ihs =>
      rw [List.forall_mem_cons] at ih hv hw
      exact .cons (ih.1 hv.1 hw.1 hfirst) (ihs ih.2 hv.2 hw.2)
  | number x =>
    cases w with
    | number y => exact (x.same_comm y).symm.trans h
    | _ => cases h
  | undefined | null | bool b | string s | function f | node handle =>
    cases w <;> simp_all [same]

theorem same_comm {v w : Value} (hv : v.WellFormed) (hw : w.WellFormed) :
    v.same w = w.same v := by
  rw [Bool.eq_iff_iff]
  exact ⟨same_symm hv hw, same_symm hw hv⟩

theorem same_trans {u v w : Value} (huv : u.same v = true) (hvw : v.same w = true) :
    u.same w = true := by
  induction u using Value.inductionOn generalizing v w with
  | object o ih =>
    obtain ⟨o', rfl, hsize, hfound⟩ := object_same_iff.mp huv
    obtain ⟨o'', rfl, hsize', hfound'⟩ := object_same_iff.mp hvw
    refine object_same_iff.mpr ⟨o'', rfl, hsize.trans hsize', fun entry hentry => ?_⟩
    obtain ⟨other, hother, hsame⟩ := hfound entry hentry
    obtain ⟨last, hlast, hsame'⟩ := hfound' _ (OrderedMap.mem_entries_of_get? hother)
    exact ⟨last, hlast, ih entry hentry hsame hsame'⟩
  | array items ih =>
    obtain ⟨items', rfl, hitems⟩ := array_same_iff.mp huv
    obtain ⟨items'', rfl, hitems'⟩ := array_same_iff.mp hvw
    refine array_same_iff.mpr ⟨items'', rfl, ?_⟩
    clear huv hvw
    induction hitems generalizing items'' with
    | nil => exact hitems'
    | cons hfirst _ ihs =>
      cases hitems' with
      | cons hfirst' hrest' =>
        rw [List.forall_mem_cons] at ih
        exact .cons (ih.1 hfirst hfirst') (ihs ih.2 _ hrest')
  | number x =>
    cases v with
    | number y =>
      cases w with
      | number z => exact Binary64.same_trans huv hvw
      | _ => cases hvw
    | _ => cases huv
  | undefined | null | bool b | string s | function f | node handle =>
    cases v <;> cases w <;> simp_all [same]

/-! ## What is equal to itself -/

/-- A not-a-number occurs in the value, at any depth. -/
inductive HoldsNaN : Value → Prop
  | number {x : Binary64} : x.isNaN = true → HoldsNaN (number x)
  | property {o : Object} {entry : String × Value} : entry ∈ o.entries → HoldsNaN entry.2 →
      HoldsNaN (object o)
  | item {items : List Value} {v : Value} : v ∈ items → HoldsNaN v → HoldsNaN (array items)

theorem not_holdsNaN_object_iff {o : Object} :
    ¬ (object o).HoldsNaN ↔ ∀ entry ∈ o.entries, ¬ entry.2.HoldsNaN := by
  constructor
  · exact fun h entry hentry hnan => h (.property hentry hnan)
  · rintro h (_ | ⟨hentry, hnan⟩ | _)
    exact h _ hentry hnan

theorem not_holdsNaN_array_iff {items : List Value} :
    ¬ (array items).HoldsNaN ↔ ∀ item ∈ items, ¬ item.HoldsNaN := by
  constructor
  · exact fun h item hitem hnan => h (.item hitem hnan)
  · rintro h (_ | _ | ⟨hitem, hnan⟩)
    exact h _ hitem hnan

/-- **A value is equal to itself unless a not-a-number is in it.** -/
theorem same_self_iff {v : Value} (hv : v.WellFormed) : v.same v = true ↔ ¬ v.HoldsNaN := by
  induction v using Value.inductionOn with
  | object o ih =>
    obtain ⟨ho, hvalues⟩ := wellFormed_object_iff.mp hv
    rw [same_object_iff ho ho, not_holdsNaN_object_iff]
    constructor
    · rintro ⟨_, hsame⟩ entry hentry
      have hget := (OrderedMap.get?_eq_some_iff ho).mpr hentry
      exact (ih entry hentry (hvalues entry hentry)).mp (hsame entry.1 _ _ hget hget)
    · intro hnan
      refine ⟨fun key => Iff.rfl, fun key v w hv hw => ?_⟩
      rw [hv] at hw
      obtain rfl := Option.some.inj hw
      have hentry := OrderedMap.mem_entries_of_get? hv
      exact (ih (key, v) hentry (hvalues _ hentry)).mpr (hnan _ hentry)
  | array items ih =>
    rw [wellFormed_array_iff] at hv
    rw [not_holdsNaN_array_iff, array_same_iff]
    simp only [array.injEq, exists_eq_left', List.forall₂_same]
    exact forall₂_congr fun item hitem => ih item hitem (hv item hitem)
  | number x =>
    show x.same x = true ↔ _
    rw [x.same_self]
    constructor
    · rintro hx (hnan | _ | _)
      simp [hnan] at hx
    · intro h
      cases hx : x.isNaN with
      | true => exact absurd (.number hx) h
      | false => rfl
  | undefined | null | bool b | string s | function f | node handle =>
    exact ⟨fun _ => nofun, fun _ => by simp [same]⟩

/-! ## Rearranged objects -/

/-- The second value comes from the first one by permuting the properties of objects, at any depth
and any number of times. -/
inductive Rearranged : Value → Value → Prop
  | refl (v : Value) : Rearranged v v
  | trans {u v w : Value} : Rearranged u v → Rearranged v w → Rearranged u w
  | permute {o o' : Object} : o.entries.Perm o'.entries → Rearranged (object o) (object o')
  | property (key : String) (before after : List (String × Value)) {v v' : Value} :
      Rearranged v v' →
      Rearranged (object ⟨before ++ (key, v) :: after⟩) (object ⟨before ++ (key, v') :: after⟩)
  | item (before after : List Value) {v v' : Value} : Rearranged v v' →
      Rearranged (array (before ++ v :: after)) (array (before ++ v' :: after))

theorem Rearranged.wellFormed {v v' : Value} (h : v.Rearranged v') (hv : v.WellFormed) :
    v'.WellFormed := by
  induction h with
  | refl => exact hv
  | trans _ _ ih ih' => exact ih' (ih hv)
  | permute hperm =>
    obtain ⟨ho, hvalues⟩ := wellFormed_object_iff.mp hv
    refine .object _ ((hperm.map _).nodup_iff.mp ho) fun entry hentry => ?_
    exact hvalues entry (hperm.mem_iff.mpr hentry)
  | property key before after _ ih =>
    obtain ⟨ho, hvalues⟩ := wellFormed_object_iff.mp hv
    simp only [OrderedMap.keys, List.map_append, List.map_cons] at ho
    rw [List.forall_mem_append, List.forall_mem_cons] at hvalues
    refine .object _ ?_ ?_
    · simpa only [OrderedMap.keys, List.map_append, List.map_cons] using ho
    · rw [List.forall_mem_append, List.forall_mem_cons]
      exact ⟨hvalues.1, ih hvalues.2.1, hvalues.2.2⟩
  | item before after _ ih =>
    rw [wellFormed_array_iff, List.forall_mem_append, List.forall_mem_cons] at hv
    rw [wellFormed_array_iff, List.forall_mem_append, List.forall_mem_cons]
    exact ⟨hv.1, ih hv.2.1, hv.2.2⟩

/-- One item may be replaced by another that is related to the same values. -/
theorem forall₂_replace {R : Value → Value → Prop} {v v' : Value} (h : ∀ w, R v w ↔ R v' w)
    (before after items : List Value) :
    List.Forall₂ R (before ++ v :: after) items ↔ List.Forall₂ R (before ++ v' :: after) items := by
  induction before generalizing items with
  | nil => cases items <;> simp [h]
  | cons first rest ih => cases items <;> simp [ih]

/-- Rearranging the left side of a comparison does not change the outcome. -/
theorem Rearranged.same_left {v v' : Value} (h : v.Rearranged v') (w : Value) :
    v.same w = v'.same w := by
  induction h generalizing w with
  | refl => rfl
  | trans _ _ ih ih' => exact (ih w).trans (ih' w)
  | permute hperm =>
    rw [Bool.eq_iff_iff, object_same_iff, object_same_iff]
    simp only [OrderedMap.size, hperm.length_eq, hperm.mem_iff]
  | property key before after _ ih =>
    rw [Bool.eq_iff_iff, object_same_iff, object_same_iff]
    simp only [OrderedMap.size, List.length_append, List.length_cons, List.forall_mem_append,
      List.forall_mem_cons, ih]
  | item before after _ ih =>
    rw [Bool.eq_iff_iff, array_same_iff, array_same_iff]
    have hreplace := forall₂_replace (R := fun v w => v.same w = true)
      fun w => Bool.eq_iff_iff.mp (ih w)
    simp only [hreplace before after]

/-- **Rearranging does not change the outcome of a comparison**, on either side. -/
theorem Rearranged.same_eq {v v' w w' : Value} (hv : v.WellFormed) (hw : w.WellFormed)
    (h : v.Rearranged v') (h' : w.Rearranged w') : v'.same w' = v.same w := by
  calc v'.same w' = v.same w' := (h.same_left w').symm
    _ = w'.same v := same_comm hv (h'.wellFormed hw)
    _ = w.same v := (h'.same_left v).symm
    _ = v.same w := same_comm hw hv

/-! ## The law -/

/-- Of functions that are made one after the other, each is equal to itself only. -/
theorem same_function_iff {table : FunctionTable} {recipes : List (String × Code)} {i j : Nat}
    {f g : Function} (hf : (table.defineAll recipes).1[i]? = some f)
    (hg : (table.defineAll recipes).1[j]? = some g) :
    (function f).same (function g) = true ↔ i = j := by
  rw [FunctionTable.getElem?_defineAll, Option.map_eq_some_iff] at hf hg
  obtain ⟨_, _, rfl⟩ := hf
  obtain ⟨_, _, rfl⟩ := hg
  show ((table.codes.length + i == table.codes.length + j) = true) ↔ i = j
  rw [beq_iff_eq, Nat.add_left_cancel_iff]

/--
**The law of equality.** Equality of script values is symmetric and transitive.
* A value is equal to itself exactly if no not-a-number occurs in it.
* Objects are equal exactly if they have the same keys and equal values under each of them.
* The order of properties does not matter, at whatever depth.
* Functions are equal exactly if they come from one making, whatever their names.
-/
theorem equality_law {u v : Value} (hu : u.WellFormed) (hv : v.WellFormed) :
    (u.same v = true → v.same u = true) ∧
    (∀ w, u.same v = true → v.same w = true → u.same w = true) ∧
    (v.same v = true ↔ ¬ v.HoldsNaN) ∧
    (∀ o o', u = object o → v = object o' →
      (u.same v = true ↔
        (∀ key, key ∈ o.keys ↔ key ∈ o'.keys) ∧
          ∀ key x y, o.get? key = some x → o'.get? key = some y → x.same y = true)) ∧
    (∀ u' v', u.Rearranged u' → v.Rearranged v' → u'.same v' = u.same v) ∧
    ∀ (table : FunctionTable) (recipes : List (String × Code)) (i j : Nat) (f g : Function),
      (table.defineAll recipes).1[i]? = some f → (table.defineAll recipes).1[j]? = some g →
        ((function f).same (function g) = true ↔ i = j) := by
  refine ⟨same_symm hu hv, fun w => same_trans, same_self_iff hv, ?objects,
    fun u' v' => Rearranged.same_eq hu hv, fun table recipes i j f g => same_function_iff⟩
  case objects =>
    rintro o o' rfl rfl
    exact same_object_iff (wellFormed_object_iff.mp hu).1 (wellFormed_object_iff.mp hv).1

/-- Two objects with one function and frames that differ in the sign of a zero, their properties
inserted in different orders. -/
theorem reordered_frames_are_equal :
    let done : Value := function ⟨"done", 0⟩
    let u := object (.ofList [("frame", array [number ⟨0⟩, undefined]), ("done", done)])
    let v := object (.ofList
      [("done", done), ("frame", array [number ⟨0x8000000000000000⟩, undefined])])
    u.WellFormed ∧ v.WellFormed ∧ u.same v = true ∧ v.same u = true := by
  intro done u v
  have hframe : ∀ x, (array [number x, undefined]).WellFormed := fun x =>
    wellFormed_array_iff.mpr (by simp [WellFormed.number, WellFormed.undefined])
  have hdone : done.WellFormed := .function _
  have hu : u.WellFormed :=
    wellFormed_object_iff_exists_ofList.mpr ⟨_, rfl, by simp [hframe, hdone]⟩
  have hv : v.WellFormed :=
    wellFormed_object_iff_exists_ofList.mpr ⟨_, rfl, by simp [hframe, hdone]⟩
  have hsame : u.same v = true := by decide
  exact ⟨hu, hv, hsame, (equality_law hu hv).1 hsame⟩

end Value

end ScriptBridge
