import ScriptBridge.Json.Reader

/-!
# The words of JSON text

White space, numbers and strings, each given by what it looks like and not by how it is read. The
readers take exactly these words off the front of a text.

* `NumeralText` — how a number is written. `readNumeral_append` and `exists_numeralText` — the
  reader takes a number to its end, and nothing else.
* `StringText` — how a string is written, piece by piece. `readPieces_append` and
  `exists_piecesText` — the same for the reader of strings.
* `Spells` — which characters the pieces of a string stand for, with the units of UTF-16 in pairs.
  `assemble_eq_some_iff` — they are put together in this way.
-/

namespace ScriptBridge

namespace Json

/-- A reader that goes on after another one found something, with what that left. -/
theorem exists_of_bind {α β : Type} {read : Option (α × List Char)}
    {next : α × List Char → Option β} {b : β} (h : (read >>= next) = some b) :
    ∃ a rest, read = some (a, rest) ∧ next (a, rest) = some b := by
  obtain ⟨⟨a, rest⟩, hread, hnext⟩ := Option.bind_eq_some_iff.mp h
  exact ⟨a, rest, hread, hnext⟩

/-! ## White space -/

/-- White space between tokens, or none. -/
def Blanks (cs : List Char) : Prop := ∀ c ∈ cs, c = ' ' ∨ c = '\t' ∨ c = '\n' ∨ c = '\x0d'

theorem isBlank_iff {c : Char} :
    isBlank c = true ↔ c = ' ' ∨ c = '\t' ∨ c = '\n' ∨ c = '\x0d' := by
  simp [isBlank, or_assoc]

theorem skipBlanks_append {blanks : List Char} (h : Blanks blanks) (cs : List Char) :
    skipBlanks (blanks ++ cs) = skipBlanks cs :=
  List.dropWhile_append_of_pos fun c hc => isBlank_iff.mpr (h c hc)

/-- Leading white space is all that is skipped. -/
theorem exists_blanks_append_skipBlanks (cs : List Char) :
    ∃ blanks, Blanks blanks ∧ cs = blanks ++ skipBlanks cs := by
  refine ⟨cs.takeWhile isBlank, ?_, List.takeWhile_append_dropWhile.symm⟩
  intro c hc
  exact isBlank_iff.mp (List.all_eq_true.mp List.all_takeWhile c hc)

theorem skipBlanks_skipBlanks (cs : List Char) : skipBlanks (skipBlanks cs) = skipBlanks cs := by
  obtain ⟨blanks, hblanks, hcs⟩ := exists_blanks_append_skipBlanks cs
  have hskip := skipBlanks_append hblanks (skipBlanks cs)
  rw [← hcs] at hskip
  exact hskip.symm

theorem skipBlanks_cons {c : Char} (h : isBlank c = false) (cs : List Char) :
    skipBlanks (c :: cs) = c :: cs := by
  simp [skipBlanks, h]

/-! ## Numbers -/

/-- Decimal digits, at least one. -/
structure DigitsText (digits : List Nat) (cs : List Char) : Prop where
  ne_nil : digits ≠ []
  lt_ten : ∀ d ∈ digits, d < 10
  text_eq : cs = digits.map Nat.digitChar

/-- The digits before the point: a number that starts with zero has no other digit. -/
structure WholeText (digits : List Nat) (cs : List Char) : Prop extends DigitsText digits cs where
  leading : digits.head? = some 0 → digits = [0]

/-- A point and the digits behind it, or nothing. -/
inductive FractionText : Option (List Nat) → List Char → Prop
  | none : FractionText none []
  | some {digits : List Nat} {cs : List Char} (h : DigitsText digits cs) :
      FractionText (some digits) ('.' :: cs)

/-- The sign of an exponent. -/
inductive ExponentSign : Bool → List Char → Prop
  | none : ExponentSign false []
  | plus : ExponentSign false ['+']
  | minus : ExponentSign true ['-']

/-- An exponent, or nothing. -/
inductive ExponentText : Option (Bool × List Nat) → List Char → Prop
  | none : ExponentText none []
  | some {mark : Char} {isNegative : Bool} {digits : List Nat} {sign cs : List Char}
      (hmark : mark = 'e' ∨ mark = 'E') (hsign : ExponentSign isNegative sign)
      (h : DigitsText digits cs) :
      ExponentText (some (isNegative, digits)) (mark :: (sign ++ cs))

/-- A number. -/
inductive NumeralText : Numeral → List Char → Prop
  | mk {negative : Bool} {whole : List Nat} {fraction : Option (List Nat)}
      {exponent : Option (Bool × List Nat)} {w f e : List Char} (hwhole : WholeText whole w)
      (hfraction : FractionText fraction f) (hexponent : ExponentText exponent e) :
      NumeralText { negative, whole, fraction, exponent }
        ((if negative then ['-'] else []) ++ (w ++ (f ++ e)))

/-- What comes next is no digit. -/
def EndsDigits (rest : List Char) : Prop := ∀ c ∈ rest.head?, c.isDigit = false

/-- What comes next is no part of a number. -/
def EndsNumeral (rest : List Char) : Prop :=
  ∀ c ∈ rest.head?, c.isDigit = false ∧ c ≠ '.' ∧ c ≠ 'e' ∧ c ≠ 'E'

theorem isDigit_digitChar : ∀ d < 10, (Nat.digitChar d).isDigit = true := by decide

theorem digitChar_toNat {c : Char} (h : c.isDigit = true) :
    c.toNat - 48 < 10 ∧ Nat.digitChar (c.toNat - 48) = c := by
  have hbounds : 48 ≤ c.toNat ∧ c.toNat ≤ 57 := by
    simpa [Char.isDigit, UInt32.le_iff_toNat_le] using h
  refine ⟨by omega, Char.toNat_inj.mp ?_⟩
  rw [Nat.toNat_digitChar_of_lt_ten (by omega)]
  omega

theorem readDigits_append {digits : List Nat} (h : ∀ d ∈ digits, d < 10) {rest : List Char}
    (hrest : EndsDigits rest) : readDigits (digits.map Nat.digitChar ++ rest) = (digits, rest) := by
  have hdigit : ∀ c ∈ digits.map Nat.digitChar, c.isDigit = true := by
    intro c hc
    obtain ⟨d, hd, rfl⟩ := List.mem_map.mp hc
    exact isDigit_digitChar d (h d hd)
  have htake : rest.takeWhile Char.isDigit = [] ∧ rest.dropWhile Char.isDigit = rest := by
    cases rest with
    | nil => simp
    | cons c cs => simp [hrest c rfl]
  rw [readDigits, List.takeWhile_append_of_pos hdigit, List.dropWhile_append_of_pos hdigit,
    htake.1, htake.2, List.append_nil, List.map_map]
  congr 1
  have hvalue : ∀ d ∈ digits, (Nat.digitChar d).toNat - 48 = d := by
    intro d hd
    rw [Nat.toNat_digitChar_of_lt_ten (h d hd), Nat.add_sub_cancel_left]
  exact (List.map_congr_left hvalue).trans (List.map_id _)

theorem eq_append_of_readDigits {cs rest : List Char} {digits : List Nat}
    (h : readDigits cs = (digits, rest)) :
    cs = digits.map Nat.digitChar ++ rest ∧ (∀ d ∈ digits, d < 10) := by
  obtain ⟨rfl, rfl⟩ := Prod.mk.inj h
  have hdigit : ∀ c ∈ cs.takeWhile Char.isDigit, c.isDigit = true :=
    fun c hc => List.all_eq_true.mp List.all_takeWhile c hc
  constructor
  · rw [List.map_map]
    have hmap : (cs.takeWhile Char.isDigit).map (Nat.digitChar ∘ fun c => c.toNat - 48) =
        cs.takeWhile Char.isDigit :=
      (List.map_congr_left fun c hc => (digitChar_toNat (hdigit c hc)).2).trans (List.map_id _)
    rw [hmap, List.takeWhile_append_dropWhile]
  · intro d hd
    obtain ⟨c, hc, rfl⟩ := List.mem_map.mp hd
    exact (digitChar_toNat (hdigit c hc)).1

/-! ### Reading numbers -/

theorem readWhole_append {digits : List Nat} {w rest : List Char} (h : WholeText digits w)
    (hrest : EndsDigits rest) : readWhole (w ++ rest) = some (digits, rest) := by
  rw [h.text_eq, readWhole, readDigits_append h.lt_ten hrest]
  cases hdigits : digits with
  | nil => exact absurd hdigits h.ne_nil
  | cons d later =>
    cases later with
    | nil => cases d <;> rfl
    | cons d' later =>
      -- A zero in front would be the only digit.
      cases d with
      | zero =>
        have hzero := h.leading (by rw [hdigits]; rfl)
        rw [hdigits] at hzero
        cases hzero
      | succ d => rfl

theorem exists_wholeText {cs rest : List Char} {digits : List Nat}
    (h : readWhole cs = some (digits, rest)) : ∃ w, WholeText digits w ∧ cs = w ++ rest := by
  rw [readWhole] at h
  split at h
  · cases h
  · cases h
  · next digits' rest' hnil hzero hread =>
    obtain ⟨rfl, rfl⟩ := Prod.mk.inj (Option.some.inj h)
    obtain ⟨hcs, hlt⟩ := eq_append_of_readDigits hread
    refine ⟨digits'.map Nat.digitChar, ⟨⟨hnil, hlt, rfl⟩, ?_⟩, hcs⟩
    intro hhead
    cases digits' with
    | nil => cases hhead
    | cons d later =>
      obtain rfl := Option.some.inj hhead
      cases later with
      | nil => rfl
      | cons d later => exact (hzero d later rfl).elim

theorem readFraction_append {fraction : Option (List Nat)} {f rest : List Char}
    (h : FractionText fraction f) (hrest : EndsDigits rest) (hpoint : '.' ∉ rest.head?) :
    readFraction (f ++ rest) = some (fraction, rest) := by
  cases h with
  | none =>
    cases rest with
    | nil => rfl
    | cons c cs =>
      have hc : c ≠ '.' := fun heq => hpoint (heq ▸ rfl)
      simp [readFraction, hc]
  | some hdigits =>
    rename_i digits cs
    rw [List.cons_append, readFraction, hdigits.text_eq, readDigits_append hdigits.lt_ten hrest]
    cases digits with
    | nil => exact absurd rfl hdigits.ne_nil
    | cons d later => rfl

theorem exists_fractionText {cs rest : List Char} {fraction : Option (List Nat)}
    (h : readFraction cs = some (fraction, rest)) :
    ∃ f, FractionText fraction f ∧ cs = f ++ rest := by
  unfold readFraction at h
  split at h
  · split at h
    · cases h
    · next digits rest' hnil hread =>
      obtain ⟨rfl, rfl⟩ := Prod.mk.inj (Option.some.inj h)
      obtain ⟨rfl, hlt⟩ := eq_append_of_readDigits hread
      exact ⟨_, .some ⟨hnil, hlt, rfl⟩, rfl⟩
  · obtain ⟨rfl, rfl⟩ := Prod.mk.inj (Option.some.inj h)
    exact ⟨[], .none, rfl⟩

theorem readExponentSign_append {isNegative : Bool} {sign cs : List Char}
    (h : ExponentSign isNegative sign) (hcs : ∀ c ∈ cs.head?, c.isDigit = true) :
    readExponentSign (sign ++ cs) = (isNegative, cs) := by
  cases h with
  | plus | minus => rfl
  | none =>
    cases cs with
    | nil => rfl
    | cons c cs =>
      have hdigit : c.isDigit = true := hcs c rfl
      have hplus : c ≠ '+' := by rintro rfl; cases hdigit
      have hminus : c ≠ '-' := by rintro rfl; cases hdigit
      simp [readExponentSign, hplus, hminus]

theorem exists_exponentSign {cs rest : List Char} {isNegative : Bool}
    (h : readExponentSign cs = (isNegative, rest)) :
    ∃ sign, ExponentSign isNegative sign ∧ cs = sign ++ rest := by
  unfold readExponentSign at h
  split at h <;> obtain ⟨rfl, rfl⟩ := Prod.mk.inj h
  · exact ⟨['+'], .plus, rfl⟩
  · exact ⟨['-'], .minus, rfl⟩
  · exact ⟨[], .none, rfl⟩

theorem DigitsText.head_isDigit {digits : List Nat} {cs : List Char} (h : DigitsText digits cs) :
    ∃ c later, cs = c :: later ∧ c.isDigit = true := by
  cases hdigits : digits with
  | nil => exact absurd hdigits h.ne_nil
  | cons d later =>
    have hd : d < 10 := h.lt_ten d (by simp [hdigits])
    refine ⟨Nat.digitChar d, later.map Nat.digitChar, ?_, isDigit_digitChar d hd⟩
    rw [h.text_eq, hdigits, List.map_cons]

theorem readExponent_append {exponent : Option (Bool × List Nat)} {e rest : List Char}
    (h : ExponentText exponent e) (hrest : EndsNumeral rest) :
    readExponent (e ++ rest) = some (exponent, rest) := by
  cases h with
  | none =>
    cases rest with
    | nil => rfl
    | cons c cs =>
      obtain ⟨-, -, he, hE⟩ := hrest c rfl
      simp [readExponent, he, hE]
  | some hmark hsign hdigits =>
    rename_i mark isNegative digits sign cs
    have hmarks : (mark == 'e' || mark == 'E') = true := by simpa using hmark
    have hhead : ∀ c ∈ (cs ++ rest).head?, c.isDigit = true := by
      obtain ⟨c, later, rfl, hc⟩ := hdigits.head_isDigit
      intro c' hc'
      obtain rfl := Option.some.inj hc'
      exact hc
    have hends : EndsDigits rest := fun c hc => (hrest c hc).1
    rw [List.cons_append, readExponent, if_pos hmarks, List.append_assoc,
      readExponentSign_append hsign hhead]
    simp only [hdigits.text_eq, readDigits_append hdigits.lt_ten hends]
    cases digits with
    | nil => exact absurd rfl hdigits.ne_nil
    | cons d later => rfl

theorem exists_exponentText {cs rest : List Char} {exponent : Option (Bool × List Nat)}
    (h : readExponent cs = some (exponent, rest)) :
    ∃ e, ExponentText exponent e ∧ cs = e ++ rest := by
  unfold readExponent at h
  split at h
  · next c cs =>
    split at h
    · next hmark =>
      have hmark' : c = 'e' ∨ c = 'E' := by simpa using hmark
      obtain ⟨sign, hsign, hcs⟩ := exists_exponentSign (Prod.eta (readExponentSign cs)).symm
      simp only at h
      split at h
      · cases h
      · next digits rest' hnil hread =>
        obtain ⟨rfl, rfl⟩ := Prod.mk.inj (Option.some.inj h)
        obtain ⟨hafter, hlt⟩ := eq_append_of_readDigits hread
        refine ⟨_, .some hmark' hsign ⟨hnil, hlt, rfl⟩, ?_⟩
        rw [List.cons_append, List.append_assoc, ← hafter, ← hcs]
    · obtain ⟨rfl, rfl⟩ := Prod.mk.inj (Option.some.inj h)
      exact ⟨[], .none, rfl⟩
  · obtain ⟨rfl, rfl⟩ := Prod.mk.inj (Option.some.inj h)
    exact ⟨[], .none, rfl⟩

theorem ExponentText.endsDigits {exponent : Option (Bool × List Nat)} {e rest : List Char}
    (h : ExponentText exponent e) (hrest : EndsNumeral rest) :
    EndsDigits (e ++ rest) ∧ '.' ∉ (e ++ rest).head? := by
  cases h with
  | none => exact ⟨fun c hc => (hrest c hc).1, fun hpoint => (hrest _ hpoint).2.1 rfl⟩
  | some hmark hsign hdigits => rcases hmark with rfl | rfl <;> simp [EndsDigits]

theorem FractionText.endsDigits {fraction : Option (List Nat)} {f rest : List Char}
    (h : FractionText fraction f) (hrest : EndsDigits rest) : EndsDigits (f ++ rest) := by
  cases h with
  | none => exact hrest
  | some hdigits => simp [EndsDigits]

theorem readUnsigned_append (negative : Bool) {whole : List Nat} {fraction : Option (List Nat)}
    {exponent : Option (Bool × List Nat)} {w f e rest : List Char} (hwhole : WholeText whole w)
    (hfraction : FractionText fraction f) (hexponent : ExponentText exponent e)
    (hrest : EndsNumeral rest) :
    readUnsigned negative (w ++ (f ++ (e ++ rest))) =
      some ({ negative, whole, fraction, exponent }, rest) := by
  obtain ⟨hdigits, hpoint⟩ := hexponent.endsDigits hrest
  rw [readUnsigned, readWhole_append hwhole (hfraction.endsDigits hdigits)]
  simp [readFraction_append hfraction hdigits hpoint, readExponent_append hexponent hrest]

theorem NumeralText.head {n : Numeral} {cs : List Char} (h : NumeralText n cs) :
    ∃ c later, cs = c :: later ∧ (c = '-' ∨ c.isDigit = true) := by
  cases h with
  | mk hwhole hfraction hexponent =>
    rename_i negative _ _ _ _ _ _
    cases negative with
    | true => exact ⟨'-', _, rfl, Or.inl rfl⟩
    | false =>
      obtain ⟨c, later, rfl, hc⟩ := hwhole.head_isDigit
      exact ⟨c, _, rfl, Or.inr hc⟩

/-- A number is read to its end. -/
theorem readNumeral_append {n : Numeral} {cs rest : List Char} (h : NumeralText n cs)
    (hrest : EndsNumeral rest) : readNumeral (cs ++ rest) = some (n, rest) := by
  cases h with
  | mk hwhole hfraction hexponent =>
    rename_i negative _ _ _ w f e
    have hread := readUnsigned_append negative hwhole hfraction hexponent hrest
    cases negative with
    | true => simpa [readNumeral] using hread
    | false =>
      obtain ⟨c, later, rfl, hc⟩ := hwhole.head_isDigit
      have hminus : c ≠ '-' := by rintro rfl; cases hc
      simpa [readNumeral, hminus] using hread

theorem exists_of_readUnsigned {negative : Bool} {cs rest : List Char} {n : Numeral}
    (h : readUnsigned negative cs = some (n, rest)) :
    ∃ text, NumeralText n ((if negative then ['-'] else []) ++ text) ∧ cs = text ++ rest := by
  rw [readUnsigned] at h
  obtain ⟨whole, cs₁, hw, h⟩ := exists_of_bind h
  obtain ⟨fraction, cs₂, hf, h⟩ := exists_of_bind h
  obtain ⟨exponent, cs₃, he, hn⟩ := exists_of_bind h
  obtain ⟨rfl, rfl⟩ := Prod.mk.inj (Option.some.inj hn)
  obtain ⟨w, hwhole, rfl⟩ := exists_wholeText hw
  obtain ⟨f, hfraction, rfl⟩ := exists_fractionText hf
  obtain ⟨e, hexponent, rfl⟩ := exists_exponentText he
  exact ⟨w ++ (f ++ e), .mk hwhole hfraction hexponent, by simp⟩

/-- Only numbers are read as numbers. -/
theorem exists_numeralText {cs rest : List Char} {n : Numeral}
    (h : readNumeral cs = some (n, rest)) : ∃ text, NumeralText n text ∧ cs = text ++ rest := by
  unfold readNumeral at h
  split at h
  · obtain ⟨text, hn, rfl⟩ := exists_of_readUnsigned h
    exact ⟨'-' :: text, hn, rfl⟩
  · exact exists_of_readUnsigned h

/-! ## Strings -/

/-- One piece of a quoted string. Quotes, backslashes and control characters do not stand for
themselves. -/
inductive PieceText : Piece → List Char → Prop
  | plain {c : Char} (hcontrol : 32 ≤ c.toNat) (hquote : c ≠ '"') (hbackslash : c ≠ '\\') :
      PieceText (.char c) [c]
  | short {mark c : Char} (h : shortEscape? mark = some c) : PieceText (.char c) ['\\', mark]
  | unit {a b c d : Char} {n : Nat} (h : Hexadecimal.ofDigits? [a, b, c, d] = some n) :
      PieceText (.unit n) ['\\', 'u', a, b, c, d]

/-- What stands between the quotes. -/
inductive PiecesText : List Piece → List Char → Prop
  | nil : PiecesText [] []
  | cons {piece : Piece} {pieces : List Piece} {cs later : List Char} (h : PieceText piece cs)
      (hlater : PiecesText pieces later) : PiecesText (piece :: pieces) (cs ++ later)

/-- A quoted string. -/
inductive StringText : List Piece → List Char → Prop
  | mk {pieces : List Piece} {cs : List Char} (h : PiecesText pieces cs) :
      StringText pieces ('"' :: (cs ++ ['"']))

/-- Everything up to the closing quote is read. -/
theorem readPieces_append {pieces : List Piece} {cs : List Char} (h : PiecesText pieces cs)
    (rest : List Char) : readPieces (cs ++ '"' :: rest) = some (pieces, rest) := by
  induction h with
  | nil => simp [readPieces]
  | cons hpiece _ ih =>
    cases hpiece with
    | plain hcontrol hquote hbackslash =>
      simp [readPieces, hbackslash, ih, hcontrol]
    | short hmark =>
      rename_i mark c
      have hu : mark ≠ 'u' := by rintro rfl; cases hmark
      simp [readPieces, hu, hmark, ih]
    | unit hhex => simp [readPieces, hhex, ih]

/-- What is read is written in pieces, and the closing quote is behind them. -/
theorem exists_piecesText {cs rest : List Char} {pieces : List Piece}
    (h : readPieces cs = some (pieces, rest)) :
    ∃ text, PiecesText pieces text ∧ cs = text ++ '"' :: rest := by
  fun_induction readPieces cs generalizing pieces rest with
  | case1 => cases h
  | case2 =>
    obtain ⟨rfl, rfl⟩ := Prod.mk.inj (Option.some.inj h)
    exact ⟨[], .nil, rfl⟩
  | case3 a b c d later ih =>
    obtain ⟨n, hn, h⟩ := Option.bind_eq_some_iff.mp h
    obtain ⟨pieces', rest', hread, hresult⟩ := exists_of_bind h
    obtain ⟨rfl, rfl⟩ := Prod.mk.inj (Option.some.inj hresult)
    obtain ⟨text, hpieces, rfl⟩ := ih hread
    exact ⟨_, .cons (.unit hn) hpieces, rfl⟩
  | case4 mark later hunit ih =>
    obtain ⟨c, hc, h⟩ := Option.bind_eq_some_iff.mp h
    obtain ⟨pieces', rest', hread, hresult⟩ := exists_of_bind h
    obtain ⟨rfl, rfl⟩ := Prod.mk.inj (Option.some.inj hresult)
    obtain ⟨text, hpieces, rfl⟩ := ih hread
    exact ⟨_, .cons (.short hc) hpieces, rfl⟩
  | case5 => cases h
  | case6 c later hquote hunit hshort hplain ih =>
    obtain ⟨pieces', rest', hread, hresult⟩ := exists_of_bind h
    obtain ⟨rfl, rfl⟩ := Prod.mk.inj (Option.some.inj hresult)
    obtain ⟨text, hpieces, rfl⟩ := ih hread
    obtain ⟨hcontrol, hbackslash⟩ : 32 ≤ c.toNat ∧ c ≠ '\\' := by simpa using hplain
    exact ⟨_, .cons (.plain hcontrol hquote hbackslash) hpieces, rfl⟩

/-! ### What strings spell -/

/-- The characters that the pieces of a string spell. Units are those of UTF-16: half of a
surrogate pair spells nothing. -/
inductive Spells : List Piece → List Char → Prop
  | nil : Spells [] []
  | char (c : Char) {pieces : List Piece} {cs : List Char} (h : Spells pieces cs) :
      Spells (.char c :: pieces) (c :: cs)
  | unit {n : Nat} (hleading : isLeading n = false) (htrailing : isTrailing n = false)
      {pieces : List Piece} {cs : List Char} (h : Spells pieces cs) :
      Spells (.unit n :: pieces) (Char.ofNat n :: cs)
  | pair {n m : Nat} (hleading : isLeading n = true) (htrailing : isTrailing m = true)
      {pieces : List Piece} {cs : List Char} (h : Spells pieces cs) :
      Spells (.unit n :: .unit m :: pieces)
        (Char.ofNat (0x10000 + (n - 0xd800) * 0x400 + (m - 0xdc00)) :: cs)

theorem assemble_unit {n : Nat} (hleading : isLeading n = false) (htrailing : isTrailing n = false)
    (pieces : List Piece) :
    assemble (.unit n :: pieces) = (assemble pieces).map (Char.ofNat n :: ·) := by
  cases pieces with
  | nil => simp [assemble, hleading, htrailing]
  | cons piece later => cases piece <;> simp [assemble, hleading, htrailing]

theorem assemble_eq_some_iff {pieces : List Piece} {cs : List Char} :
    assemble pieces = some cs ↔ Spells pieces cs := by
  constructor
  · intro h
    fun_induction assemble pieces generalizing cs with
    | case1 =>
      obtain rfl := Option.some.inj h
      exact .nil
    | case2 c later ih =>
      obtain ⟨cs', hcs', rfl⟩ := Option.map_eq_some_iff.mp h
      exact .char c (ih hcs')
    | case3 | case6 | case7 | case9 => cases h
    | case4 n hn =>
      obtain rfl := Option.some.inj h
      obtain ⟨hleading, htrailing⟩ : isLeading n = false ∧ isTrailing n = false := by
        simpa using hn
      exact .unit hleading htrailing .nil
    | case5 n m later hleading htrailing ih =>
      obtain ⟨cs', hcs', rfl⟩ := Option.map_eq_some_iff.mp h
      exact .pair hleading htrailing (ih hcs')
    | case8 n m later hleading htrailing ih =>
      obtain ⟨cs', hcs', rfl⟩ := Option.map_eq_some_iff.mp h
      exact .unit (eq_false_of_ne_true hleading) (eq_false_of_ne_true htrailing) (ih hcs')
    | case10 n c later hn ih =>
      obtain ⟨cs', hcs', rfl⟩ := Option.map_eq_some_iff.mp h
      obtain ⟨hleading, htrailing⟩ : isLeading n = false ∧ isTrailing n = false := by
        simpa using hn
      exact .unit hleading htrailing (ih hcs')
  · intro h
    induction h with
    | nil => rfl
    | char c _ ih => simp [assemble, ih]
    | unit hleading htrailing _ ih => simp [assemble_unit hleading htrailing, ih]
    | pair hleading htrailing _ ih => simp [assemble, hleading, htrailing, ih]

end Json

end ScriptBridge
