import ScriptBridge.Proofs.JsonComparison
import ScriptBridge.Proofs.Utf8Order
import ScriptBridge.Proofs.ValueEquality
import ScriptBridge.Value.JsonView

/-!
# What the JSON view shows

The view of a value keeps its structure, except that the order of properties is replaced by the
order of their keys. So equal values have equal views, and even the same text, as long as no
negative zero is in them, which a comparison does not tell from zero.

* `Json.perm_sortMembers`, `Json.pairwise_sortMembers` — sorting members.
* `Value.Within`, `Value.NamedBy` — what occurs in a value, and what names its functions have.
* `Value.map_fst_members_eq` — the views of equal objects list the same keys.
* `Value.same_toJson` — equal values have equal views.
* `Value.within_toJson_iff` — the numbers of a view.
* `Value.view_law` — all of it.
-/

namespace ScriptBridge

/-! ## Sorted members -/

namespace Json

theorem perm_insertMember (member : String × Json) (members : List (String × Json)) :
    (insertMember member members).Perm (member :: members) := by
  induction members with
  | nil => exact .refl _
  | cons other rest ih =>
    rw [insertMember]
    split
    · exact .refl _
    · exact (ih.cons other).trans (.swap member other rest)

theorem perm_sortMembers (members : List (String × Json)) :
    (sortMembers members).Perm members := by
  induction members with
  | nil => exact .refl _
  | cons member rest ih =>
    exact (perm_insertMember member (sortMembers rest)).trans (ih.cons member)

theorem pairwise_insertMember (member : String × Json) {members : List (String × Json)}
    (h : members.Pairwise fun a b => a.1 ≤ b.1) :
    (insertMember member members).Pairwise fun a b => a.1 ≤ b.1 := by
  induction members with
  | nil => exact List.pairwise_singleton _ _
  | cons other rest ih =>
    obtain ⟨hfirst, hrest⟩ := List.pairwise_cons.mp h
    rw [insertMember]
    split
    · next hlt =>
      have hle : member.1 ≤ other.1 := String.not_lt.mp (String.lt_asymm hlt)
      refine List.pairwise_cons.mpr ⟨List.forall_mem_cons.mpr ⟨hle, fun next hnext => ?_⟩, h⟩
      exact String.le_trans hle (hfirst next hnext)
    · next hnot =>
      refine List.pairwise_cons.mpr ⟨fun next hnext => ?_, ih hrest⟩
      rcases List.mem_cons.mp ((perm_insertMember member rest).mem_iff.mp hnext) with rfl | hmem
      · exact String.not_lt.mp hnot
      · exact hfirst next hmem

theorem pairwise_le_sortMembers (members : List (String × Json)) :
    (sortMembers members).Pairwise fun a b => a.1 ≤ b.1 := by
  induction members with
  | nil => exact .nil
  | cons member rest ih => exact pairwise_insertMember member ih

/-- Members with distinct keys are listed in strictly increasing order. -/
theorem pairwise_sortMembers {members : List (String × Json)} (h : (members.map (·.1)).Nodup) :
    ((sortMembers members).map (·.1)).Pairwise (· < ·) := by
  have hdistinct : ((sortMembers members).map (·.1)).Nodup :=
    ((perm_sortMembers members).map (·.1)).nodup_iff.mpr h
  rw [List.pairwise_map]
  exact ((pairwise_le_sortMembers members).and (List.pairwise_map.mp hdistinct)).imp
    fun h => Std.lt_of_le_of_ne h.1 h.2

end Json

namespace Value

/-- A value that occurs in another one, at any depth. -/
inductive Within : Value → Value → Prop
  | self (v : Value) : Within v v
  | property {o : Object} {entry : String × Value} {v : Value} : entry ∈ o.entries →
      Within v entry.2 → Within v (object o)
  | item {items : List Value} {item v : Value} : item ∈ items → Within v item →
      Within v (array items)

theorem within_object_iff {v : Value} {o : Object} :
    Within v (object o) ↔ v = object o ∨ ∃ entry ∈ o.entries, Within v entry.2 := by
  constructor
  · rintro (_ | ⟨hmem, hwithin⟩ | _)
    · exact .inl rfl
    · exact .inr ⟨_, hmem, hwithin⟩
  · rintro (rfl | ⟨entry, hmem, hwithin⟩)
    · exact .self _
    · exact .property hmem hwithin

theorem within_array_iff {v : Value} {items : List Value} :
    Within v (array items) ↔ v = array items ∨ ∃ item ∈ items, Within v item := by
  constructor
  · rintro (_ | _ | ⟨hmem, hwithin⟩)
    · exact .inl rfl
    · exact .inr ⟨_, hmem, hwithin⟩
  · rintro (rfl | ⟨item, hmem, hwithin⟩)
    · exact .self _
    · exact .item hmem hwithin

/-- Every function inside the value has the name that functions of its identity were made with.
Copies of a function keep the name, so all values of a program share these names. -/
def NamedBy (names : Nat → String) (v : Value) : Prop :=
  ∀ f, Within (function f) v → f.name = names f.identity

/-! ## The view of an object -/

variable {o : Object}

/-- The members of the view of an object, in increasing order of their keys. -/
def members (o : Object) : List (String × Json) := Json.sortMembers (membersToJson o.entries)

theorem toJson_object (o : Object) : (object o).toJson = .object (members o) := by
  obtain ⟨entries⟩ := o
  rw [toJson, members]

theorem map_fst_membersToJson (o : Object) : (membersToJson o.entries).map (·.1) = o.keys := by
  rw [membersToJson_eq_map, List.map_map]
  rfl

theorem perm_keys_members (o : Object) : ((members o).map (·.1)).Perm o.keys := by
  rw [← map_fst_membersToJson]
  exact (Json.perm_sortMembers _).map _

theorem pairwise_keys_members (ho : o.keys.Nodup) :
    ((members o).map (·.1)).Pairwise (· < ·) :=
  Json.pairwise_sortMembers (by rwa [map_fst_membersToJson])

theorem mem_members_iff {key : String} {json : Json} :
    (key, json) ∈ members o ↔ ∃ v, (key, v) ∈ o.entries ∧ v.toJson = json := by
  rw [members, (Json.perm_sortMembers _).mem_iff, membersToJson_eq_map]
  simp

/-- The members of the views of equal objects stand side by side: the sorting undoes the
differences in order. -/
theorem map_fst_members_eq {o o' : Object} (ho : o.keys.Nodup) (ho' : o'.keys.Nodup)
    (h : ∀ key, key ∈ o.keys ↔ key ∈ o'.keys) :
    (members o).map (·.1) = (members o').map (·.1) := by
  have hperm : ((members o).map (·.1)).Perm ((members o').map (·.1)) := calc
    ((members o).map (·.1)).Perm o.keys := perm_keys_members o
    List.Perm _ o'.keys := (List.perm_ext_iff_of_nodup ho ho').mpr h
    List.Perm _ ((members o').map (·.1)) := (perm_keys_members o').symm
  exact hperm.eq_of_pairwise (fun _ _ _ _ hlt hgt => absurd hgt (String.lt_asymm hlt))
    (pairwise_keys_members ho) (pairwise_keys_members ho')

/-! ## Equal values -/

variable {v w : Value} {names : Nat → String}

theorem same_ofNumber {x y : Binary64} (h : x.same y = true) :
    (Json.ofNumber x).same (.ofNumber y) = true := by
  have hmagnitude : x.magnitude = y.magnitude := Binary64.magnitude_eq_of_same h
  by_cases hfinite : x.isFinite = true
  · have hfinite' : y.isFinite = true := by rwa [Binary64.isFinite, ← hmagnitude]
    rw [Json.ofNumber, if_pos hfinite, Json.ofNumber, if_pos hfinite']
    exact h
  · have hfinite' : ¬ y.isFinite = true := by rwa [Binary64.isFinite, ← hmagnitude]
    rw [Json.ofNumber, if_neg hfinite, Json.ofNumber, if_neg hfinite']
    rfl

/-- **Equal values have equal views.** -/
theorem same_toJson (hv : v.WellFormed) (hw : w.WellFormed) (hnv : v.NamedBy names)
    (hnw : w.NamedBy names) (h : v.same w = true) : v.toJson.same w.toJson = true := by
  induction v using Value.inductionOn generalizing w with
  | object o ih =>
    obtain ⟨o', rfl, _⟩ := object_same_iff.mp h
    obtain ⟨ho, hvalues⟩ := wellFormed_object_iff.mp hv
    obtain ⟨ho', hvalues'⟩ := wellFormed_object_iff.mp hw
    obtain ⟨hkeys, hsame⟩ := (same_object_iff ho ho').mp h
    rw [toJson_object, toJson_object]
    rw [Json.same, Json.sameMembers_iff_forall₂]
    refine Json.forall₂_of_keys_eq (R := fun a b => a.same b = true)
      (map_fst_members_eq ho ho' hkeys) fun key a b ha hb => ?_
    obtain ⟨x, hx, rfl⟩ := mem_members_iff.mp ha
    obtain ⟨y, hy, rfl⟩ := mem_members_iff.mp hb
    refine ih _ hx (hvalues _ hx) (hvalues' _ hy) (fun f hf => hnv f (.property hx hf))
      (fun f hf => hnw f (.property hy hf)) (hsame key x y ?_ ?_)
    · exact (OrderedMap.get?_eq_some_iff ho).mpr hx
    · exact (OrderedMap.get?_eq_some_iff ho').mpr hy
  | array items ih =>
    obtain ⟨items', rfl, hitems⟩ := array_same_iff.mp h
    rw [wellFormed_array_iff] at hv hw
    rw [toJson, toJson, itemsToJson_eq_map, itemsToJson_eq_map, Json.same,
      Json.sameItems_iff_forall₂, List.forall₂_map_left_iff, List.forall₂_map_right_iff]
    obtain ⟨hlength, hpairs⟩ := List.forall₂_iff_zip.mp hitems
    refine List.forall₂_iff_zip.mpr ⟨hlength, fun {x y} hpair => ?_⟩
    obtain ⟨hx, hy⟩ := List.of_mem_zip hpair
    exact ih x hx (hv x hx) (hw y hy) (fun f hf => hnv f (.item hx hf))
      (fun f hf => hnw f (.item hy hf)) (hpairs hpair)
  | number x =>
    cases w with
    | number y => exact same_ofNumber h
    | _ => cases h
  | function f =>
    cases w with
    | function g =>
      have hidentity : f.identity = g.identity := beq_iff_eq.mp h
      have hname : f.name = g.name := by rw [hnv f (.self _), hnw g (.self _), hidentity]
      rw [toJson, toJson, Function.label, Function.label, hname]
      exact beq_self_eq_true _
    | _ => cases h
  | undefined | null | bool b | string s | node handle =>
    cases w <;> simp_all [same, toJson, Json.same]

/-! ## Numbers -/

/-- **The numbers of a view** are the finite numbers of the value. -/
theorem within_toJson_iff {x : Binary64} :
    Json.Within (.number x) v.toJson ↔ Within (number x) v ∧ x.isFinite = true := by
  induction v using Value.inductionOn with
  | object o ih =>
    rw [toJson_object, Json.within_object_iff, within_object_iff]
    constructor
    · rintro (heq | ⟨⟨key, json⟩, hmember, hwithin⟩)
      · cases heq
      · obtain ⟨u, hu, rfl⟩ := mem_members_iff.mp hmember
        obtain ⟨hnumber, hfinite⟩ := (ih _ hu).mp hwithin
        exact ⟨.inr ⟨_, hu, hnumber⟩, hfinite⟩
    · rintro ⟨heq | ⟨entry, hentry, hnumber⟩, hfinite⟩
      · cases heq
      · refine .inr ⟨(entry.1, entry.2.toJson), ?_, (ih entry hentry).mpr ⟨hnumber, hfinite⟩⟩
        exact mem_members_iff.mpr ⟨entry.2, hentry, rfl⟩
  | array items ih =>
    rw [toJson, itemsToJson_eq_map, Json.within_array_iff, within_array_iff]
    constructor
    · rintro (heq | ⟨json, hjson, hwithin⟩)
      · cases heq
      · obtain ⟨item, hitem, rfl⟩ := List.mem_map.mp hjson
        obtain ⟨hnumber, hfinite⟩ := (ih item hitem).mp hwithin
        exact ⟨.inr ⟨item, hitem, hnumber⟩, hfinite⟩
    · rintro ⟨heq | ⟨item, hitem, hnumber⟩, hfinite⟩
      · cases heq
      · exact .inr ⟨_, List.mem_map_of_mem hitem, (ih item hitem).mpr ⟨hnumber, hfinite⟩⟩
  | number y =>
    rw [toJson, Json.ofNumber]
    constructor
    · intro hwithin
      split at hwithin
      · next hfinite =>
        cases hwithin with
        | self => exact ⟨.self _, hfinite⟩
      · cases hwithin
    · rintro ⟨hnumber, hfinite⟩
      cases hnumber with
      | self =>
        rw [if_pos hfinite]
        exact .self _
  | undefined | null | bool b | string s | function f | node handle =>
    rw [toJson]
    exact ⟨fun hwithin => (nomatch hwithin), fun h => (nomatch h.1)⟩

/-- **Equal values without a negative zero have the same text.** -/
theorem render_toJson_eq (hv : v.WellFormed) (hw : w.WellFormed) (hnv : v.NamedBy names)
    (hnw : w.NamedBy names) (h : v.same w = true) (hzv : ¬ Within (number .negativeZero) v)
    (hzw : ¬ Within (number .negativeZero) w) : v.toJson.render = w.toJson.render := by
  refine congrArg Json.render (Json.eq_of_same (same_toJson hv hw hnv hnw h) ?_ ?_)
  · exact fun hwithin => hzv (within_toJson_iff.mp hwithin).1
  · exact fun hwithin => hzw (within_toJson_iff.mp hwithin).1

/-! ## The law -/

/-- The functions that are made one after the other have names of their own: a function is found
under its identity. -/
theorem namedBy_of_defineAll {table : FunctionTable} {recipes : List (String × Code)}
    (hv : ∀ f, Within (function f) v → f ∈ (table.defineAll recipes).1) :
    v.NamedBy fun identity =>
      (recipes[identity - table.codes.length]?.map (·.1)).getD "" := by
  intro f hf
  obtain ⟨i, hi⟩ := List.mem_iff_getElem?.mp (hv f hf)
  rw [FunctionTable.getElem?_defineAll, Option.map_eq_some_iff] at hi
  obtain ⟨recipe, hrecipe, rfl⟩ := hi
  simp [hrecipe]

/--
**The law of the view.** Let the functions in two values be named by what they were made with.
* Equal values have equal views, and without a negative zero in them the same text.
* The view of an object has the keys of the object, in increasing order of their bytes, and under
  each of them the view of the value that the object has there.
* The view of an array has the views of the items, in order.
* The numbers of a view are those of the value that are finite.
-/
theorem view_law (hv : v.WellFormed) (hw : w.WellFormed) (hnv : v.NamedBy names)
    (hnw : w.NamedBy names) :
    (v.same w = true →
      v.toJson.same w.toJson = true ∧
        (¬ Within (number .negativeZero) v → ¬ Within (number .negativeZero) w →
          v.toJson.render = w.toJson.render)) ∧
    (∀ o, v = object o →
      ∃ members, v.toJson = .object members ∧
        (members.map (·.1)).Perm o.keys ∧
        ((members.map (·.1)).Pairwise fun key key' => Utf8.bytes key < Utf8.bytes key') ∧
        ∀ key json, (key, json) ∈ members ↔ ∃ u, o.get? key = some u ∧ json = u.toJson) ∧
    (∀ items, v = array items → v.toJson = .array (items.map toJson)) ∧
    ∀ x, Json.Within (.number x) v.toJson ↔ Within (number x) v ∧ x.isFinite = true := by
  refine ⟨fun h => ⟨same_toJson hv hw hnv hnw h, render_toJson_eq hv hw hnv hnw h⟩, ?objects,
    ?arrays, fun x => within_toJson_iff⟩
  case objects =>
    rintro o rfl
    have ho := (wellFormed_object_iff.mp hv).1
    refine ⟨members o, toJson_object o, perm_keys_members o, ?_, fun key json => ?_⟩
    · exact (pairwise_keys_members ho).imp Utf8.bytes_lt_bytes_iff.mpr
    · rw [mem_members_iff]
      simp only [OrderedMap.get?_eq_some_iff ho, eq_comm]
  case arrays =>
    rintro items rfl
    rw [toJson, itemsToJson_eq_map]

/-- What occurs in an object whose properties are a number and a function. -/
theorem within_pair {x : Binary64} {f : Function} {u : Value}
    (ho : ∀ entry ∈ o.entries, entry.2 = number x ∨ entry.2 = function f)
    (h : Within u (object o)) : u = object o ∨ u = number x ∨ u = function f := by
  rcases within_object_iff.mp h with heq | ⟨entry, hentry, hu⟩
  · exact .inl heq
  · rcases ho entry hentry with heq | heq <;> rw [heq] at hu <;> cases hu
    · exact .inr (.inl rfl)
    · exact .inr (.inr rfl)

/-- A number and a function, inserted in different orders. -/
theorem reordered_animations_have_one_text :
    let duration : String × Value := ("duration", number ⟨0x4072C00000000000⟩)
    let done : String × Value := ("done", function ⟨"done", 0⟩)
    let u := object (.ofList [duration, done])
    let v := object (.ofList [done, duration])
    u.WellFormed ∧ v.WellFormed ∧ u.NamedBy (fun _ => "done") ∧ v.NamedBy (fun _ => "done") ∧
      u.same v = true ∧ ¬ Within (number .negativeZero) u ∧ ¬ Within (number .negativeZero) v ∧
      u.toJson.render = v.toJson.render := by
  intro duration done u v
  have hduration : duration.2.WellFormed := .number _
  have hdone : done.2.WellFormed := .function _
  have hu : u.WellFormed :=
    wellFormed_object_iff_exists_ofList.mpr ⟨_, rfl, by simp [hduration, hdone]⟩
  have hv : v.WellFormed :=
    wellFormed_object_iff_exists_ofList.mpr ⟨_, rfl, by simp [hduration, hdone]⟩
  have hnamed : ∀ o : Object, (∀ entry ∈ o.entries, entry.2 = duration.2 ∨ entry.2 = done.2) →
      NamedBy (fun _ => "done") (object o) := by
    intro o ho f hf
    rcases within_pair ho hf with heq | heq | heq
    · cases heq
    · cases heq
    · rw [function.inj heq]
  have hzero : ∀ o : Object, (∀ entry ∈ o.entries, entry.2 = duration.2 ∨ entry.2 = done.2) →
      ¬ Within (number .negativeZero) (object o) := by
    intro o ho hz
    rcases within_pair ho hz with heq | heq | heq
    · cases heq
    · exact absurd (number.inj heq) (by decide)
    · cases heq
  have hpartsU : ∀ entry ∈ [duration, done], entry.2 = duration.2 ∨ entry.2 = done.2 := by simp
  have hpartsV : ∀ entry ∈ [done, duration], entry.2 = duration.2 ∨ entry.2 = done.2 := by simp
  have hsame : u.same v = true := by decide
  have hlaw := view_law hu hv (hnamed _ hpartsU) (hnamed _ hpartsV)
  exact ⟨hu, hv, hnamed _ hpartsU, hnamed _ hpartsV, hsame, hzero _ hpartsU, hzero _ hpartsV,
    (hlaw.1 hsame).2 (hzero _ hpartsU) (hzero _ hpartsV)⟩

end Value

end ScriptBridge
