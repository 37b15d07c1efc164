import Mathlib.Data.List.Forall2
import ScriptBridge.Proofs.JsonDocuments

/-!
# Records in JSON objects

What an object says about the fields of a record: which members have the name of a field, and what
their values are read as. Only the members under known names count, in whatever order they stand.

* `Named` — the members of an object with the text that their keys spell, so that two spellings of
  one key are the same key.
* `FieldIs` — a field that is missing and has its default, or that is given once and is read.
* `valuesOf_perm` — the order of the members does not matter, nor do those under other names.
-/

namespace ScriptBridge

namespace Json

/-! ## Keys -/

/-- The members of an object, with the text that their keys spell. -/
abbrev Named (members : List (List Piece × Raw)) (named : List (String × Raw)) : Prop :=
  List.Forall₂ (fun member entry => Spells member.1 entry.1.toList ∧ entry.2 = member.2)
    members named

theorem map_ofList_assemble_eq_some_iff {pieces : List Piece} {s : String} :
    (assemble pieces).map String.ofList = some s ↔ Spells pieces s.toList := by
  rw [Option.map_eq_some_iff, ← assemble_eq_some_iff]
  constructor
  · rintro ⟨cs, hcs, rfl⟩
    rw [hcs, String.toList_ofList]
  · intro h
    exact ⟨s.toList, h, String.ofList_toList⟩

theorem decodeKeys_of_named {members : List (List Piece × Raw)} {named : List (String × Raw)}
    (h : Named members named) : Raw.decodeKeys members = some named := by
  induction h with
  | nil => rfl
  | @cons member entry members named hentry _ ih =>
    obtain ⟨hkey, hvalue⟩ := hentry
    have hassemble := assemble_eq_some_iff.mpr hkey
    rw [Raw.decodeKeys] at ih ⊢
    simp [hassemble, ih, ← hvalue]

/-- A text of an object with these members, whose keys are all well-formed. -/
def ObjectText (named : List (String × Raw)) (text : String) : Prop :=
  ∃ members, DocumentText (.object members) text.toList ∧ Named members named

/-! ## Fields -/

/-- What an object says about a field that is read by `Reads`: nothing, and it has its default, or
one thing, which is read. -/
inductive FieldIs {α : Type} (named : List (String × Raw)) (name : String)
    (Reads : Raw → α → Prop) (default : α) : α → Prop
  | missing (h : ∀ entry ∈ named, entry.1 ≠ name) : FieldIs named name Reads default default
  | present (before after : List (String × Raw)) {raw : Raw} {a : α}
      (hnamed : named = before ++ (name, raw) :: after)
      (hbefore : ∀ entry ∈ before, entry.1 ≠ name) (hafter : ∀ entry ∈ after, entry.1 ≠ name)
      (hreads : Reads raw a) : FieldIs named name Reads default a

variable {α : Type} {named named' : List (String × Raw)} {name : String}
  {Reads : Raw → α → Prop} {default a : α}

theorem valuesOf_eq_nil_iff :
    Raw.valuesOf name named = [] ↔ ∀ entry ∈ named, entry.1 ≠ name := by
  simp [Raw.valuesOf]

theorem valuesOf_eq_singleton_iff {raw : Raw} :
    Raw.valuesOf name named = [raw] ↔ ∃ before after, named = before ++ (name, raw) :: after ∧
      (∀ entry ∈ before, entry.1 ≠ name) ∧ ∀ entry ∈ after, entry.1 ≠ name := by
  rw [Raw.valuesOf, List.map_eq_singleton_iff]
  constructor
  · rintro ⟨⟨key, value⟩, hfilter, rfl⟩
    obtain ⟨before, after, rfl, hbefore, hkey, hafter⟩ := List.filter_eq_cons_iff.mp hfilter
    obtain rfl : key = name := by simpa using hkey
    exact ⟨before, after, rfl, by simpa using hbefore, by simpa using hafter⟩
  · rintro ⟨before, after, rfl, hbefore, hafter⟩
    refine ⟨(name, raw), List.filter_eq_cons_iff.mpr ⟨before, after, rfl, ?_, by simp, ?_⟩, rfl⟩
    · simpa using hbefore
    · simpa using hafter

theorem fieldIs_iff : FieldIs named name Reads default a ↔
    (Raw.valuesOf name named = [] ∧ a = default) ∨
      ∃ raw, Raw.valuesOf name named = [raw] ∧ Reads raw a := by
  constructor
  · rintro (h | ⟨_, _, hnamed, hbefore, hafter, hreads⟩)
    · exact Or.inl ⟨valuesOf_eq_nil_iff.mpr h, rfl⟩
    · exact Or.inr ⟨_, valuesOf_eq_singleton_iff.mpr ⟨_, _, hnamed, hbefore, hafter⟩, hreads⟩
  · rintro (⟨hnil, rfl⟩ | ⟨raw, hone, hreads⟩)
    · exact .missing (valuesOf_eq_nil_iff.mp hnil)
    · obtain ⟨before, after, hnamed, hbefore, hafter⟩ := valuesOf_eq_singleton_iff.mp hone
      exact .present before after hnamed hbefore hafter hreads

theorem FieldIs.of_perm (hperm : (Raw.valuesOf name named).Perm (Raw.valuesOf name named'))
    (h : FieldIs named name Reads default a) : FieldIs named' name Reads default a := by
  rw [fieldIs_iff] at h ⊢
  rcases h with ⟨hnil, rfl⟩ | ⟨raw, hone, hreads⟩
  · rw [hnil] at hperm
    exact Or.inl ⟨hperm.nil_eq.symm, rfl⟩
  · rw [hone] at hperm
    exact Or.inr ⟨raw, List.perm_singleton.mp hperm.symm, hreads⟩

/-! ## Order and unknown members -/

/-- The members with one of these names, in their order. -/
def known (names : List String) (named : List (String × Raw)) : List (String × Raw) :=
  named.filter fun entry => decide (entry.1 ∈ names)

theorem valuesOf_known {names : List String} (h : name ∈ names) (named : List (String × Raw)) :
    Raw.valuesOf name (known names named) = Raw.valuesOf name named := by
  rw [Raw.valuesOf, Raw.valuesOf, known, List.filter_filter]
  congr 2
  funext entry
  by_cases heq : entry.1 = name <;> simp [heq, h]

theorem valuesOf_perm {names : List String} (h : name ∈ names)
    (hperm : (known names named).Perm (known names named')) :
    (Raw.valuesOf name named).Perm (Raw.valuesOf name named') := by
  rw [← valuesOf_known h named, ← valuesOf_known h named']
  exact (hperm.filter _).map _

end Json

end ScriptBridge
