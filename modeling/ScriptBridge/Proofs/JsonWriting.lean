import ScriptBridge.Json
import ScriptBridge.Proofs.JsonRecords

/-!
# Written documents are texts of the grammar

What is written is one of the texts that are read back as the same: strings with their escapes,
whole numbers, and objects whose values are written in this way.

* `exists_stringText_quote` — a quoted string is a string of the grammar and spells what was quoted.
* `exists_numeralText_toDigits` — a written number is a number of the grammar and stands for what
  was written.
* `objectText_render` — a written object says what its members say.
-/

namespace ScriptBridge

namespace Json

theorem Blanks.nil : Blanks [] := fun _ h => absurd h List.not_mem_nil

/-! ## Strings -/

/-- A character is written as one piece, which spells it. -/
theorem exists_pieceText_escape (c : Char) :
    ∃ piece, PieceText piece (escape c) ∧
      ∀ pieces cs, Spells pieces cs → Spells (piece :: pieces) (c :: cs) := by
  unfold escape
  split
  case h_8 hquote hbackslash _ _ _ _ _ =>
    split
    · next hcontrol =>
      have hplaces : c.toNat < Nat.pow 16 4 := Nat.lt_trans hcontrol (by decide)
      refine ⟨.unit c.toNat, .unit (Hexadecimal.ofDigits?_digits hplaces), fun pieces cs h => ?_⟩
      have hleading : isLeading c.toNat = false := by simp [isLeading]; omega
      have htrailing : isTrailing c.toNat = false := by simp [isTrailing]; omega
      simpa using Spells.unit hleading htrailing h
    · next hcontrol => exact ⟨.char c, .plain (by omega) hquote hbackslash, fun _ _ => .char c⟩
  all_goals exact ⟨.char _, .short rfl, fun _ _ => .char _⟩

theorem exists_piecesText_flatMap (cs : List Char) :
    ∃ pieces, PiecesText pieces (cs.flatMap escape) ∧ Spells pieces cs := by
  induction cs with
  | nil => exact ⟨[], .nil, .nil⟩
  | cons c cs ih =>
    obtain ⟨piece, htext, hspells⟩ := exists_pieceText_escape c
    obtain ⟨pieces, htexts, hspell⟩ := ih
    exact ⟨piece :: pieces, .cons htext htexts, hspells pieces cs hspell⟩

/-- **A quoted string is a string of the grammar**, and spells what was quoted. -/
theorem exists_stringText_quote (s : String) :
    ∃ pieces, StringText pieces (quote s) ∧ Spells pieces s.toList := by
  obtain ⟨pieces, htext, hspells⟩ := exists_piecesText_flatMap s.toList
  exact ⟨pieces, .mk htext, hspells⟩

/-! ## Whole numbers -/

theorem DigitsText.concat {digits : List Nat} {cs : List Char} (h : DigitsText digits cs) {d : Nat}
    (hd : d < 10) : DigitsText (digits ++ [d]) (cs ++ [Nat.digitChar d]) where
  ne_nil := by simp
  lt_ten := by
    intro d' hd'
    rcases List.mem_append.mp hd' with hmem | hmem
    · exact h.lt_ten d' hmem
    · rw [List.mem_singleton.mp hmem]
      exact hd
  text_eq := by rw [List.map_append, ← h.text_eq, List.map_singleton]

theorem ofDigits_concat (digits : List Nat) (d : Nat) :
    Numeral.ofDigits (digits ++ [d]) = 10 * Numeral.ofDigits digits + d := by
  rw [Numeral.ofDigits, List.foldl_append]
  rfl

/-- The decimal digits of a number stand for it, and do not start with zero unless it is zero. -/
theorem exists_wholeText_toDigits (n : Nat) :
    ∃ digits, WholeText digits (Nat.toDigits 10 n) ∧ Numeral.ofDigits digits = n := by
  induction n using Nat.strongRecOn with
  | ind n ih =>
    rw [Nat.toDigits_eq_if (by decide)]
    split
    · next hlt =>
      have hdigits : DigitsText [n] [Nat.digitChar n] := ⟨by simp, by simpa using hlt, rfl⟩
      refine ⟨[n], ⟨hdigits, ?_⟩, by simp [Numeral.ofDigits]⟩
      intro hzero
      rw [Option.some.inj hzero]
    · next hge =>
      obtain ⟨digits, hdigits, hvalue⟩ := ih (n / 10) (by omega)
      have hconcat := hdigits.toDigitsText.concat (d := n % 10) (by omega)
      refine ⟨digits ++ [n % 10], ⟨hconcat, ?_⟩, ?_⟩
      · intro hzero
        -- The digits before the last one would be a single zero, and stand for less than one.
        have hhead : digits.head? = some 0 := by
          cases hcases : digits with
          | nil => exact absurd hcases hdigits.ne_nil
          | cons d later =>
            rw [hcases] at hzero
            exact hzero
        rw [hdigits.leading hhead] at hvalue
        have hsmall : n / 10 = 0 := hvalue.symm
        omega
      · rw [ofDigits_concat, hvalue]
        omega

/-- **A written number is a number of the grammar**, without sign, fraction or exponent. -/
theorem exists_numeralText_toDigits (n : Nat) :
    ∃ whole, NumeralText { negative := false, whole, fraction := none, exponent := none }
      (Nat.toDigits 10 n) ∧ Numeral.ofDigits whole = n := by
  obtain ⟨whole, hwhole, hvalue⟩ := exists_wholeText_toDigits n
  have htext : NumeralText { negative := false, whole, fraction := none, exponent := none } _ :=
    .mk hwhole .none .none
  exact ⟨whole, by simpa using htext, hvalue⟩

/-! ## Objects -/

/-- The members of a document to be written, with what their values are read as. -/
abbrev Written (members : List (String × Json)) (named : List (String × Raw)) : Prop :=
  List.Forall₂ (fun member entry => entry.1 = member.1 ∧ ValueText entry.2 member.2.text)
    members named

theorem laterMembersText_cons (key : String) (value : Json) (members : List (String × Json)) :
    laterMembersText ((key, value) :: members) = ',' :: membersText ((key, value) :: members) := by
  rw [laterMembersText, membersText]

/-- The members that are written are members of the grammar, without white space. -/
theorem exists_membersText_membersText {members : List (String × Json)}
    {named : List (String × Raw)} (h : Written members named) (hne : members ≠ []) :
    ∃ raws cs, MembersText raws cs ∧ Named raws named ∧ membersText members = cs ++ ['\x7d'] := by
  induction h with
  | nil => exact absurd rfl hne
  | @cons member entry members named hentry hlater ih =>
    obtain ⟨key, value⟩ := member
    obtain ⟨hkey, hvalue⟩ := hentry
    obtain ⟨pieces, hpieces, hspells⟩ := exists_stringText_quote key
    have hnamed : Spells pieces entry.1.toList ∧ entry.2 = entry.2 := ⟨by rwa [hkey], rfl⟩
    cases members with
    | nil =>
      cases hlater
      have htext := MembersText.last .nil hpieces .nil .nil hvalue .nil
      refine ⟨_, _, htext, .cons hnamed .nil, ?_⟩
      simp [membersText, laterMembersText]
    | cons next members =>
      obtain ⟨raws, cs, hcs, hraws, htextLater⟩ := ih (List.cons_ne_nil _ _)
      have htext := MembersText.cons .nil hpieces .nil .nil hvalue .nil hcs
      refine ⟨_, _, htext, .cons hnamed hraws, ?_⟩
      rw [membersText, laterMembersText_cons, htextLater]
      simp

/-- **A written object says what its members say.** -/
theorem objectText_render {members : List (String × Json)} {named : List (String × Raw)}
    (h : Written members named) : ObjectText named (object members).render := by
  rw [ObjectText, render, String.toList_ofList, text]
  cases members with
  | nil =>
    cases h
    have htext := DocumentText.mk .nil (.emptyObject .nil) .nil
    exact ⟨[], by simpa [membersText] using htext, .nil⟩
  | cons member members =>
    obtain ⟨raws, cs, hcs, hraws, htext⟩ :=
      exists_membersText_membersText h (List.cons_ne_nil _ _)
    have hdocument := DocumentText.mk .nil (.object hcs) .nil
    exact ⟨raws, by simpa [htext] using hdocument, hraws⟩

end Json

end ScriptBridge
