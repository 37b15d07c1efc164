import Mathlib.Data.List.Forall2
import ScriptBridge.Json.Equality

/-!
# What equality of documents is

Documents are equal when they have the same structure and equal numbers in it. Only the two zeros
are equal numbers with different texts, so equal documents without a negative zero are the same.

* `Json.sameItems_iff_forall₂`, `Json.sameMembers_iff_forall₂` — what the loops decide.
* `Json.Within` — what occurs in a document, at any depth.
* `Binary64.eq_of_same` — equal numbers have the same bits, up to the sign of zero.
* `Json.eq_of_same` — equal documents without a negative zero are one document.
-/

namespace ScriptBridge

namespace Json

/-! ## Side by side -/

/-- Members that are listed by the same keys are related side by side if those with the same key
are. -/
theorem forall₂_of_keys_eq {R : Json → Json → Prop} {members members' : List (String × Json)}
    (hkeys : members.map (·.1) = members'.map (·.1))
    (hrelated : ∀ key a b, (key, a) ∈ members → (key, b) ∈ members' → R a b) :
    List.Forall₂ (fun m m' => m.1 = m'.1 ∧ R m.2 m'.2) members members' := by
  induction members generalizing members' with
  | nil =>
    rw [List.map_nil, eq_comm, List.map_eq_nil_iff] at hkeys
    rw [hkeys]
    exact .nil
  | cons member rest ih =>
    cases members' with
    | nil => cases hkeys
    | cons member' rest' =>
      obtain ⟨key, a⟩ := member
      obtain ⟨key', b⟩ := member'
      obtain ⟨hkey, hrest⟩ := List.cons.inj hkeys
      obtain rfl : key = key' := hkey
      refine .cons ⟨rfl, hrelated key a b List.mem_cons_self List.mem_cons_self⟩ (ih hrest ?_)
      intro key a b ha hb
      exact hrelated key a b (List.mem_cons_of_mem _ ha) (List.mem_cons_of_mem _ hb)

theorem sameItems_iff_forall₂ {items items' : List Json} :
    sameItems items items' = true ↔ List.Forall₂ (fun a b => a.same b = true) items items' := by
  induction items generalizing items' with
  | nil => cases items' <;> simp [sameItems]
  | cons item rest ih => cases items' <;> simp [sameItems, ih]

theorem sameMembers_iff_forall₂ {members members' : List (String × Json)} :
    sameMembers members members' = true ↔
      List.Forall₂ (fun m m' => m.1 = m'.1 ∧ m.2.same m'.2 = true) members members' := by
  induction members generalizing members' with
  | nil => cases members' <;> simp [sameMembers]
  | cons member rest ih => cases members' <;> simp [sameMembers, ih, and_assoc]

/-! ## Documents in documents -/

/-- A document that occurs in another one, at any depth. -/
inductive Within : Json → Json → Prop
  | self (json : Json) : Within json json
  | item {items : List Json} {item json : Json} : item ∈ items → Within json item →
      Within json (array items)
  | member {members : List (String × Json)} {member : String × Json} {json : Json} :
      member ∈ members → Within json member.2 → Within json (object members)

/-- Induction over documents. -/
theorem inductionOn {P : Json → Prop} (null : P null) (bool : ∀ b, P (bool b))
    (natural : ∀ n, P (natural n)) (number : ∀ x, P (number x)) (string : ∀ s, P (string s))
    (array : ∀ items, (∀ item ∈ items, P item) → P (array items))
    (object : ∀ members, (∀ member ∈ members, P member.2) → P (object members)) (json : Json) :
    P json :=
  @Json.rec P (fun items => ∀ item ∈ items, P item) (fun members => ∀ member ∈ members, P member.2)
    (fun member => P member.2) null bool natural number string array object
    (by simp) (fun _ _ ih ihs => List.forall_mem_cons.2 ⟨ih, ihs⟩)
    (by simp) (fun _ _ ih ihs => List.forall_mem_cons.2 ⟨ih, ihs⟩) (fun _ _ ih => ih) json

theorem within_array_iff {json : Json} {items : List Json} :
    Within json (array items) ↔ json = array items ∨ ∃ item ∈ items, Within json item := by
  constructor
  · rintro (_ | ⟨hmem, hwithin⟩ | _)
    · exact .inl rfl
    · exact .inr ⟨_, hmem, hwithin⟩
  · rintro (rfl | ⟨item, hmem, hwithin⟩)
    · exact .self _
    · exact .item hmem hwithin

theorem within_object_iff {json : Json} {members : List (String × Json)} :
    Within json (object members) ↔
      json = object members ∨ ∃ member ∈ members, Within json member.2 := by
  constructor
  · rintro (_ | _ | ⟨hmem, hwithin⟩)
    · exact .inl rfl
    · exact .inr ⟨_, hmem, hwithin⟩
  · rintro (rfl | ⟨member, hmem, hwithin⟩)
    · exact .self _
    · exact .member hmem hwithin

end Json

/-! ## Equal numbers -/

namespace Binary64

/-- The zero with a sign, which is equal to the other zero and is written differently. -/
def negativeZero : Binary64 := zero.neg

theorem eq_zero_of_isZero {x : Binary64} (h : x.isZero = true) (hx : x ≠ negativeZero) :
    x = zero := by
  have hmagnitude : x.magnitude = 0 := of_decide_eq_true h
  have hx' := ofMagnitude_isNegative_magnitude x
  rw [hmagnitude] at hx'
  cases hsign : x.isNegative with
  | false => rw [← hx', hsign]; rfl
  | true => exact absurd (by rw [← hx', hsign]; rfl) hx

theorem magnitude_eq_of_same {x y : Binary64} (h : x.same y = true) :
    x.magnitude = y.magnitude := by
  simp only [same, Bool.and_eq_true, Bool.or_eq_true, beq_iff_eq] at h
  rcases h.2 with rfl | ⟨hzero, hzero'⟩
  · rfl
  · exact (of_decide_eq_true hzero).trans (of_decide_eq_true hzero').symm

/-- Equal numbers have the same bits, up to the sign of zero. -/
theorem eq_of_same {x y : Binary64} (h : x.same y = true) (hx : x ≠ negativeZero)
    (hy : y ≠ negativeZero) : x = y := by
  simp only [same, Bool.and_eq_true, Bool.or_eq_true, beq_iff_eq] at h
  rcases h.2 with heq | ⟨hzero, hzero'⟩
  · exact heq
  · rw [eq_zero_of_isZero hzero hx, eq_zero_of_isZero hzero' hy]

end Binary64

/-! ## Equal documents -/

namespace Json

/-- Lists are equal if items that stand side by side are. -/
theorem eq_of_forall₂ {α : Type} {R : α → α → Prop} {items items' : List α}
    (h : List.Forall₂ R items items') (heq : ∀ a ∈ items, ∀ b ∈ items', R a b → a = b) :
    items = items' := by
  obtain ⟨hlength, hpairs⟩ := List.forall₂_iff_zip.mp h
  have hequal : List.Forall₂ Eq items items' := by
    refine List.forall₂_iff_zip.mpr ⟨hlength, fun {a b} hpair => ?_⟩
    obtain ⟨ha, hb⟩ := List.of_mem_zip hpair
    exact heq a ha b hb (hpairs hpair)
  rwa [List.forall₂_eq_eq_eq] at hequal

/-- **Equal documents without a negative zero are one document.** -/
theorem eq_of_same {a b : Json} (h : a.same b = true)
    (ha : ¬ Within (number .negativeZero) a) (hb : ¬ Within (number .negativeZero) b) : a = b := by
  induction a using Json.inductionOn generalizing b with
  | array items ih =>
    cases b with
    | array items' =>
      refine congrArg array (eq_of_forall₂ (sameItems_iff_forall₂.mp h) ?_)
      intro item hitem item' hitem' hsame
      exact ih item hitem hsame (fun hz => ha (.item hitem hz)) fun hz => hb (.item hitem' hz)
    | _ => cases h
  | object members ih =>
    cases b with
    | object members' =>
      refine congrArg object (eq_of_forall₂ (sameMembers_iff_forall₂.mp h) ?_)
      rintro member hmember member' hmember' ⟨hkey, hsame⟩
      refine Prod.ext hkey (ih member hmember hsame (fun hz => ha (.member hmember hz)) ?_)
      exact fun hz => hb (.member hmember' hz)
    | _ => cases h
  | number x =>
    cases b with
    | number y =>
      refine congrArg number (Binary64.eq_of_same h ?_ ?_)
      · rintro rfl
        exact ha (.self _)
      · rintro rfl
        exact hb (.self _)
    | _ => cases h
  | null | bool b | natural n | string s =>
    cases b <;> simp_all [same]

end Json

end ScriptBridge
