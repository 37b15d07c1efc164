import ScriptBridge.Proofs.JsonTokens

/-!
# The grammar of JSON documents

Values, the items of arrays and the members of objects, each given by the texts that it has. Between
any two tokens there may be white space. Values may be nested to any depth.

* `ValueText`, `ItemsText`, `MembersText` — the grammar.
* `readValue_append` — a value is read from each of its texts, whatever comes behind it. The reader
  is given twice as many steps as the text has characters: only the step into a list takes none.
* `exists_valueText` — nothing else is read.
* `parse?_eq_some_iff` — reading a document accepts exactly the texts of the grammar.
-/

namespace ScriptBridge

namespace Json

/-! ## The grammar -/

mutual

/-- A value, without white space around it. -/
inductive ValueText : Raw → List Char → Prop
  | null : ValueText .null ['n', 'u', 'l', 'l']
  | boolTrue : ValueText (.bool true) ['t', 'r', 'u', 'e']
  | boolFalse : ValueText (.bool false) ['f', 'a', 'l', 's', 'e']
  | number {n : Numeral} {cs : List Char} (h : NumeralText n cs) : ValueText (.number n) cs
  | string {pieces : List Piece} {cs : List Char} (h : StringText pieces cs) :
      ValueText (.string pieces) cs
  | emptyArray {blanks : List Char} (h : Blanks blanks) :
      ValueText (.array []) ('[' :: (blanks ++ [']']))
  | array {items : List Raw} {cs : List Char} (h : ItemsText items cs) :
      ValueText (.array items) ('[' :: (cs ++ [']']))
  | emptyObject {blanks : List Char} (h : Blanks blanks) :
      ValueText (.object []) ('\x7b' :: (blanks ++ ['\x7d']))
  | object {members : List (List Piece × Raw)} {cs : List Char} (h : MembersText members cs) :
      ValueText (.object members) ('\x7b' :: (cs ++ ['\x7d']))

/-- The items of an array, at least one, with commas between them. -/
inductive ItemsText : List Raw → List Char → Prop
  | last {item : Raw} {b cs b' : List Char} (hb : Blanks b) (h : ValueText item cs)
      (hb' : Blanks b') : ItemsText [item] (b ++ (cs ++ b'))
  | cons {item : Raw} {items : List Raw} {b cs b' later : List Char} (hb : Blanks b)
      (h : ValueText item cs) (hb' : Blanks b') (hlater : ItemsText items later) :
      ItemsText (item :: items) (b ++ (cs ++ (b' ++ ',' :: later)))

/-- The members of an object, at least one, with commas between them. -/
inductive MembersText : List (List Piece × Raw) → List Char → Prop
  | last {key : List Piece} {value : Raw} {b₁ k b₂ b₃ cs b₄ : List Char} (hb₁ : Blanks b₁)
      (hkey : StringText key k) (hb₂ : Blanks b₂) (hb₃ : Blanks b₃) (h : ValueText value cs)
      (hb₄ : Blanks b₄) :
      MembersText [(key, value)] (b₁ ++ (k ++ (b₂ ++ ':' :: (b₃ ++ (cs ++ b₄)))))
  | cons {key : List Piece} {value : Raw} {members : List (List Piece × Raw)}
      {b₁ k b₂ b₃ cs b₄ later : List Char} (hb₁ : Blanks b₁) (hkey : StringText key k)
      (hb₂ : Blanks b₂) (hb₃ : Blanks b₃) (h : ValueText value cs) (hb₄ : Blanks b₄)
      (hlater : MembersText members later) :
      MembersText ((key, value) :: members)
        (b₁ ++ (k ++ (b₂ ++ ':' :: (b₃ ++ (cs ++ (b₄ ++ ',' :: later))))))

end

/-! ## Texts are read -/

theorem skipBlanks_append_cons {b : List Char} (hb : Blanks b) {c : Char} (h : isBlank c = false)
    (cs : List Char) : skipBlanks (b ++ c :: cs) = c :: cs := by
  rw [skipBlanks_append hb, skipBlanks_cons h]

/-- A number ends before white space and before what follows that, if it can end before the
latter. -/
theorem Blanks.endsNumeral {b cs : List Char} (hb : Blanks b) (hcs : EndsNumeral cs) :
    EndsNumeral (b ++ cs) := by
  cases b with
  | nil => exact hcs
  | cons c b =>
    intro c' hc'
    obtain rfl := Option.some.inj hc'
    rcases hb c List.mem_cons_self with rfl | rfl | rfl | rfl <;> decide

theorem readValue_skipBlanks (n : Nat) (cs : List Char) :
    readValue n (skipBlanks cs) = readValue n cs := by
  cases n with
  | zero => rfl
  | succ n => rw [readValue, readValue, skipBlanks_skipBlanks]

theorem readItems_skipBlanks (n : Nat) (cs : List Char) :
    readItems n (skipBlanks cs) = readItems n cs := by
  cases n with
  | zero => rfl
  | succ n => rw [readItems, readItems, readValue_skipBlanks]

theorem readMembers_skipBlanks (n : Nat) (cs : List Char) :
    readMembers n (skipBlanks cs) = readMembers n cs := by
  cases n with
  | zero => rfl
  | succ n => rw [readMembers, readMembers, skipBlanks_skipBlanks]

/-- White space before a value does not matter. -/
theorem readValue_blanks_append {b : List Char} (hb : Blanks b) (n : Nat) (cs : List Char) :
    readValue n (b ++ cs) = readValue n cs := by
  rw [← readValue_skipBlanks, skipBlanks_append hb, readValue_skipBlanks]

theorem readValue_number {n : Numeral} {cs rest : List Char} (h : NumeralText n cs)
    (hrest : EndsNumeral rest) (more : Nat) :
    readValue (more + 1) (cs ++ rest) = some (.number n, rest) := by
  have hread := readNumeral_append h hrest
  obtain ⟨c, later, rfl, hc⟩ := h.head
  have hother : ∀ d : Char, d ≠ '-' → d.isDigit = false → c ≠ d := by
    rintro d hminus hdigit rfl
    simp [hminus, hdigit] at hc
  have hblank : isBlank c = false := by
    rw [← Bool.not_eq_true, isBlank_iff]
    rintro (rfl | rfl | rfl | rfl) <;> simp at hc
  rw [List.cons_append] at hread ⊢
  have h1 : c ≠ 'n' := hother _ (by decide) (by decide)
  have h2 : c ≠ 't' := hother _ (by decide) (by decide)
  have h3 : c ≠ 'f' := hother _ (by decide) (by decide)
  have h4 : c ≠ '"' := hother _ (by decide) (by decide)
  have h5 : c ≠ '[' := hother _ (by decide) (by decide)
  have h6 : c ≠ '\x7b' := hother _ (by decide) (by decide)
  simp [readValue, skipBlanks_cons hblank, h1, h2, h3, h4, h5, h6, hread]

theorem readValue_array {cs : List Char} (h : ∀ later, skipBlanks cs ≠ ']' :: later) (n : Nat) :
    readValue (n + 1) ('[' :: cs) =
      (readItems n cs).map fun read => (.array read.1, read.2) := by
  rw [readValue, skipBlanks_cons (by decide)]
  simp only [readItems_skipBlanks]
  cases readItems n cs <;> rfl

theorem readValue_object {cs : List Char} (h : ∀ later, skipBlanks cs ≠ '\x7d' :: later) (n : Nat) :
    readValue (n + 1) ('\x7b' :: cs) =
      (readMembers n cs).map fun read => (.object read.1, read.2) := by
  rw [readValue, skipBlanks_cons (by decide)]
  simp only [readMembers_skipBlanks]
  cases readMembers n cs <;> rfl

theorem ValueText.head {value : Raw} {cs : List Char} (h : ValueText value cs) :
    ∃ c later, cs = c :: later ∧ isBlank c = false ∧ c ≠ ']' := by
  cases h with
  | number h =>
    obtain ⟨c, later, rfl, hc⟩ := h.head
    refine ⟨c, later, rfl, ?_, ?_⟩
    · rw [← Bool.not_eq_true, isBlank_iff]
      rintro (rfl | rfl | rfl | rfl) <;> simp at hc
    · rintro rfl
      simp at hc
  | string h => cases h with | mk h => exact ⟨_, _, rfl, by decide, by decide⟩
  | _ => exact ⟨_, _, rfl, by decide, by decide⟩

theorem ItemsText.head {items : List Raw} {cs : List Char} (h : ItemsText items cs) :
    ∃ b c later, Blanks b ∧ cs = b ++ c :: later ∧ isBlank c = false ∧ c ≠ ']' := by
  cases h with
  | last hb h _ | cons hb h _ _ =>
    obtain ⟨c, later, rfl, hc⟩ := h.head
    exact ⟨_, c, _, hb, rfl, hc⟩

theorem MembersText.head {members : List (List Piece × Raw)} {cs : List Char}
    (h : MembersText members cs) : ∃ b later, Blanks b ∧ cs = b ++ '"' :: later := by
  cases h with
  | last hb hkey _ _ _ _ | cons hb hkey _ _ _ _ _ =>
    cases hkey with
    | mk hkey => exact ⟨_, _, hb, rfl⟩

/-- A number can end before whatever is no part of a number. -/
theorem endsNumeral_cons {c : Char} (h : c.isDigit = false ∧ c ≠ '.' ∧ c ≠ 'e' ∧ c ≠ 'E')
    (cs : List Char) : EndsNumeral (c :: cs) := by
  intro c' hc'
  obtain rfl := Option.some.inj hc'
  exact h

mutual

/-- A value is read to its end. By recursion on its derivation: its parts are shorter, so the steps
that are left are enough for them. -/
theorem readValue_append {value : Raw} {cs : List Char} (h : ValueText value cs)
    {rest : List Char} (hrest : EndsNumeral rest) {n : Nat}
    (hn : 2 * cs.length ≤ n) : readValue n (cs ++ rest) = some (value, rest) := by
  obtain ⟨c, later, hcs, -⟩ := h.head
  obtain ⟨n, rfl⟩ : ∃ m, n = m + 1 := ⟨n - 1, by rw [hcs, List.length_cons] at hn; omega⟩
  cases h with
  | null | boolTrue | boolFalse => simp [readValue, skipBlanks_cons, isBlank]
  | number h => exact readValue_number h hrest n
  | string h =>
    cases h with
    | mk h => simp [readValue, skipBlanks_cons, isBlank, readPieces_append h]
  | emptyArray hb | emptyObject hb =>
    simp [readValue, skipBlanks_cons, isBlank, skipBlanks_append hb]
  | @array items cs h =>
    have hread := readItems_append h rest (n := n) (by simp at hn; omega)
    -- An item comes first, so the reader does not take the array for an empty one.
    have hhead : ∀ later, skipBlanks (cs ++ ']' :: rest) ≠ ']' :: later := by
      obtain ⟨b, c, later, hb, rfl, hblank, hc⟩ := h.head
      simp [skipBlanks_append_cons hb hblank, hc]
    simp [readValue_array hhead, hread]
  | @object members cs h =>
    have hread := readMembers_append h rest (n := n) (by simp at hn; omega)
    have hhead : ∀ later, skipBlanks (cs ++ '\x7d' :: rest) ≠ '\x7d' :: later := by
      obtain ⟨b, later, hb, rfl⟩ := h.head
      simp [skipBlanks_append_cons hb, isBlank]
    simp [readValue_object hhead, hread]

theorem readItems_append {items : List Raw} {cs : List Char} (h : ItemsText items cs)
    (rest : List Char) {n : Nat} (hn : 2 * cs.length + 1 ≤ n) :
    readItems n (cs ++ ']' :: rest) = some (items, rest) := by
  obtain ⟨n, rfl⟩ : ∃ m, n = m + 1 := ⟨n - 1, by omega⟩
  cases h with
  | @last item b cs b' hb h hb' =>
    have hends : EndsNumeral (b' ++ ']' :: rest) :=
      hb'.endsNumeral (endsNumeral_cons (by decide) rest)
    have hread := readValue_append h hends (n := n) (by simp at hn; omega)
    simp [readItems, readValue_blanks_append hb, hread, skipBlanks_append_cons hb',
      isBlank]
  | @cons item items b cs b' later hb h hb' hlater =>
    have hends : EndsNumeral (b' ++ ',' :: (later ++ ']' :: rest)) :=
      hb'.endsNumeral (endsNumeral_cons (by decide) _)
    have hread := readValue_append h hends (n := n) (by simp at hn; omega)
    have hreadLater := readItems_append hlater rest (n := n) (by simp at hn; omega)
    simp [readItems, readValue_blanks_append hb, hread, skipBlanks_append_cons hb',
      isBlank, hreadLater]

theorem readMembers_append {members : List (List Piece × Raw)} {cs : List Char}
    (h : MembersText members cs) (rest : List Char) {n : Nat} (hn : 2 * cs.length + 1 ≤ n) :
    readMembers n (cs ++ '\x7d' :: rest) = some (members, rest) := by
  obtain ⟨n, rfl⟩ : ∃ m, n = m + 1 := ⟨n - 1, by omega⟩
  cases h with
  | @last key value b₁ k b₂ b₃ cs b₄ hb₁ hkey hb₂ hb₃ h hb₄ =>
    have hends : EndsNumeral (b₄ ++ '\x7d' :: rest) :=
      hb₄.endsNumeral (endsNumeral_cons (by decide) rest)
    have hread := readValue_append h hends (n := n) (by simp at hn; omega)
    cases hkey with
    | mk hkey =>
      simp [readMembers, skipBlanks_append_cons hb₁, readPieces_append hkey,
        skipBlanks_append_cons hb₂, readValue_blanks_append hb₃, hread, skipBlanks_append_cons hb₄,
        isBlank]
  | @cons key value members b₁ k b₂ b₃ cs b₄ later hb₁ hkey hb₂ hb₃ h hb₄ hlater =>
    have hends : EndsNumeral (b₄ ++ ',' :: (later ++ '\x7d' :: rest)) :=
      hb₄.endsNumeral (endsNumeral_cons (by decide) _)
    have hread := readValue_append h hends (n := n) (by simp at hn; omega)
    have hreadLater := readMembers_append hlater rest (n := n) (by simp at hn; omega)
    cases hkey with
    | mk hkey =>
      simp [readMembers, skipBlanks_append_cons hb₁, readPieces_append hkey,
        skipBlanks_append_cons hb₂, readValue_blanks_append hb₃, hread, skipBlanks_append_cons hb₄,
        isBlank, hreadLater]

end

/-! ## Only texts are read -/

mutual

/-- What is read as a value is one of its texts, behind white space. Each branch of the reader is one
rule of the grammar. -/
theorem exists_valueText {n : Nat} {cs rest : List Char} {value : Raw}
    (h : readValue n cs = some (value, rest)) :
    ∃ b text, Blanks b ∧ ValueText value text ∧ cs = b ++ (text ++ rest) := by
  cases n with
  | zero => cases h
  | succ n =>
    obtain ⟨b, hb, hcs⟩ := exists_blanks_append_skipBlanks cs
    suffices hvalue : ∃ text, ValueText value text ∧ skipBlanks cs = text ++ rest by
      obtain ⟨text, htext, hskip⟩ := hvalue
      exact ⟨b, text, hb, htext, by rw [hcs, hskip]⟩
    rw [readValue] at h
    split at h
    · next heq =>
      obtain ⟨rfl, rfl⟩ := Prod.mk.inj (Option.some.inj h)
      exact ⟨_, .null, heq⟩
    · next heq =>
      obtain ⟨rfl, rfl⟩ := Prod.mk.inj (Option.some.inj h)
      exact ⟨_, .boolTrue, heq⟩
    · next heq =>
      obtain ⟨rfl, rfl⟩ := Prod.mk.inj (Option.some.inj h)
      exact ⟨_, .boolFalse, heq⟩
    · next later heq =>
      obtain ⟨pieces, rest', hread, hresult⟩ := exists_of_bind h
      obtain ⟨rfl, rfl⟩ := Prod.mk.inj (Option.some.inj hresult)
      obtain ⟨text, hpieces, rfl⟩ := exists_piecesText hread
      exact ⟨_, .string (.mk hpieces), by simp [heq]⟩
    · next later heq =>
      obtain ⟨b', hb', hlater⟩ := exists_blanks_append_skipBlanks later
      split at h
      · next hend =>
        obtain ⟨rfl, rfl⟩ := Prod.mk.inj (Option.some.inj h)
        refine ⟨_, .emptyArray hb', ?_⟩
        rw [heq, hlater, hend]
        simp
      · obtain ⟨items, rest', hread, hresult⟩ := exists_of_bind h
        obtain ⟨rfl, rfl⟩ := Prod.mk.inj (Option.some.inj hresult)
        rw [readItems_skipBlanks] at hread
        obtain ⟨text, hitems, rfl⟩ := exists_itemsText hread
        exact ⟨_, .array hitems, by simp [heq]⟩
    · next later heq =>
      obtain ⟨b', hb', hlater⟩ := exists_blanks_append_skipBlanks later
      split at h
      · next hend =>
        obtain ⟨rfl, rfl⟩ := Prod.mk.inj (Option.some.inj h)
        refine ⟨_, .emptyObject hb', ?_⟩
        rw [heq, hlater, hend]
        simp
      · obtain ⟨members, rest', hread, hresult⟩ := exists_of_bind h
        obtain ⟨rfl, rfl⟩ := Prod.mk.inj (Option.some.inj hresult)
        rw [readMembers_skipBlanks] at hread
        obtain ⟨text, hmembers, rfl⟩ := exists_membersText hread
        exact ⟨_, .object hmembers, by simp [heq]⟩
    · obtain ⟨n, rest', hread, hresult⟩ := exists_of_bind h
      obtain ⟨rfl, rfl⟩ := Prod.mk.inj (Option.some.inj hresult)
      obtain ⟨text, hnumeral, hskip⟩ := exists_numeralText hread
      exact ⟨text, .number hnumeral, hskip⟩

theorem exists_itemsText {n : Nat} {cs rest : List Char} {items : List Raw}
    (h : readItems n cs = some (items, rest)) :
    ∃ text, ItemsText items text ∧ cs = text ++ ']' :: rest := by
  cases n with
  | zero => cases h
  | succ n =>
    rw [readItems] at h
    obtain ⟨item, rest', hread, hafter⟩ := exists_of_bind h
    obtain ⟨b, text, hb, hvalue, rfl⟩ := exists_valueText hread
    obtain ⟨b', hb', hrest'⟩ := exists_blanks_append_skipBlanks rest'
    simp only at hafter
    split at hafter
    · next hend =>
      obtain ⟨rfl, rfl⟩ := Prod.mk.inj (Option.some.inj hafter)
      refine ⟨_, .last hb hvalue hb', ?_⟩
      rw [hrest', hend]
      simp
    · next later hcomma =>
      obtain ⟨items', rest'', hlater, hresult⟩ := exists_of_bind hafter
      obtain ⟨rfl, rfl⟩ := Prod.mk.inj (Option.some.inj hresult)
      obtain ⟨textLater, hitems, rfl⟩ := exists_itemsText hlater
      refine ⟨_, .cons hb hvalue hb' hitems, ?_⟩
      rw [hrest', hcomma]
      simp
    · cases hafter

theorem exists_membersText {n : Nat} {cs rest : List Char} {members : List (List Piece × Raw)}
    (h : readMembers n cs = some (members, rest)) :
    ∃ text, MembersText members text ∧ cs = text ++ '\x7d' :: rest := by
  cases n with
  | zero => cases h
  | succ n =>
    obtain ⟨b₁, hb₁, hcs⟩ := exists_blanks_append_skipBlanks cs
    rw [readMembers] at h
    split at h
    · next later hquote =>
      obtain ⟨key, afterKey, hkey, hcolonNext⟩ := exists_of_bind h
      obtain ⟨textKey, hpieces, rfl⟩ := exists_piecesText hkey
      obtain ⟨b₂, hb₂, hafterKey⟩ := exists_blanks_append_skipBlanks afterKey
      simp only at hcolonNext
      split at hcolonNext
      · next afterColon hcolon =>
        obtain ⟨value, afterValue, hread, hafter⟩ := exists_of_bind hcolonNext
        obtain ⟨b₃, textValue, hb₃, hvalue, rfl⟩ := exists_valueText hread
        obtain ⟨b₄, hb₄, hafterValue⟩ := exists_blanks_append_skipBlanks afterValue
        simp only at hafter
        split at hafter
        · next hend =>
          obtain ⟨rfl, rfl⟩ := Prod.mk.inj (Option.some.inj hafter)
          refine ⟨_, .last hb₁ (.mk hpieces) hb₂ hb₃ hvalue hb₄, ?_⟩
          rw [hcs, hquote, hafterKey, hcolon, hafterValue, hend]
          simp
        · next later' hcomma =>
          obtain ⟨members', rest', hlater, hresult⟩ := exists_of_bind hafter
          obtain ⟨rfl, rfl⟩ := Prod.mk.inj (Option.some.inj hresult)
          obtain ⟨textLater, hmembers, rfl⟩ := exists_membersText hlater
          refine ⟨_, .cons hb₁ (.mk hpieces) hb₂ hb₃ hvalue hb₄ hmembers, ?_⟩
          rw [hcs, hquote, hafterKey, hcolon, hafterValue, hcomma]
          simp
        · cases hafter
      · cases hcolonNext
    · cases h

end

/-! ## Whole documents -/

/-- A document, with white space around it. -/
inductive DocumentText : Raw → List Char → Prop
  | mk {raw : Raw} {b cs b' : List Char} (hb : Blanks b) (h : ValueText raw cs) (hb' : Blanks b') :
      DocumentText raw (b ++ (cs ++ b'))

theorem Blanks.skipBlanks {b : List Char} (hb : Blanks b) : skipBlanks b = [] := by
  have hskip := skipBlanks_append hb []
  rwa [List.append_nil] at hskip

/-- **The reader reads exactly the texts of the grammar.** -/
theorem parse?_eq_some_iff {text : String} {raw : Raw} :
    Raw.parse? text = some raw ↔ DocumentText raw text.toList := by
  constructor
  · intro h
    rw [Raw.parse?] at h
    split at h
    · next raw' rest hread =>
      obtain ⟨b, cs, hb, hvalue, htext⟩ := exists_valueText hread
      split at h
      · next hrest =>
        obtain rfl := Option.some.inj h
        obtain ⟨b', hb', hrest'⟩ := exists_blanks_append_skipBlanks rest
        rw [hrest, List.append_nil] at hrest'
        rw [htext, hrest']
        exact .mk hb hvalue hb'
      · cases h
    · cases h
  · intro h
    rw [Raw.parse?]
    generalize text.toList = cs at h
    cases h with
    | @mk b cs b' hb h hb' =>
      have hends : EndsNumeral b' := by
        have hnil : EndsNumeral [] := by simp [EndsNumeral]
        simpa using hb'.endsNumeral hnil
      have hread := readValue_append h hends (n := 2 * (b ++ (cs ++ b')).length + 2)
        (by simp; omega)
      simp only [readValue_blanks_append hb, hread, hb'.skipBlanks, if_true]

end Json

end ScriptBridge
