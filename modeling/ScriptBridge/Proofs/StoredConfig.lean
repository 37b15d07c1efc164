import ScriptBridge.Config.Stored
import ScriptBridge.Proofs.JsonRecords
import ScriptBridge.Proofs.JsonWriting

/-!
# Stored configurations

What the text of a JSON object says about a configuration, field by field: a field that is missing
has its default, a field that is given twice is refused, and so is a value of a wrong kind. Members
with other names may hold any value and may stand anywhere.

* `Describes` — what the members of an object say, without reading them one after the other.
* `object_law` — reading an object comes to what its members describe, if that is valid.
* `stored_round_trip` — what is written is read back, and what is read can be written and read
  again.
-/

namespace ScriptBridge

namespace Config

open Json

/-! ## What the fields hold -/

/-- A value that is a text. -/
inductive SaysText : Raw → String → Prop
  | mk {pieces : List Piece} {s : String} (h : Spells pieces s.toList) :
      SaysText (.string pieces) s

/-- A value that is a count: a whole number without sign, fraction or exponent. -/
inductive SaysCount : Raw → UInt64 → Prop
  | mk {whole : List Nat} {n : UInt64} (h : Numeral.ofDigits whole = n.toNat) :
      SaysCount (.number { negative := false, whole, fraction := none, exponent := none }) n

/-- A value that is a level: its name, or an object that holds `null` under its name only. -/
inductive SaysLevel : Raw → LogLevel → Prop
  | name {pieces : List Piece} {level : LogLevel} (h : Spells pieces level.name.toList) :
      SaysLevel (.string pieces) level
  | member {key : List Piece} {level : LogLevel} (h : Spells key level.name.toList) :
      SaysLevel (.object [(key, .null)]) level

theorem string?_eq_some_iff {raw : Raw} {s : String} :
    raw.string? = some s ↔ SaysText raw s := by
  constructor
  · intro h
    cases raw with
    | string pieces => exact .mk (map_ofList_assemble_eq_some_iff.mp h)
    | _ => cases h
  · rintro ⟨h⟩
    exact map_ofList_assemble_eq_some_iff.mpr h

theorem toUInt64?_eq_some_iff {numeral : Numeral} {n : UInt64} :
    numeral.toUInt64? = some n ↔ SaysCount (.number numeral) n := by
  constructor
  · intro h
    unfold Numeral.toUInt64? at h
    split at h
    · next whole =>
      simp only [Option.ite_none_right_eq_some, Option.some.injEq] at h
      obtain ⟨hlt, rfl⟩ := h
      exact .mk (UInt64.toNat_ofNat_of_lt' hlt).symm
    · cases h
  · rintro ⟨h⟩
    have hlt : n.toNat < UInt64.size := n.toNat_lt_size
    simp [Numeral.toUInt64?, h, hlt]

theorem uint64?_eq_some_iff {raw : Raw} {n : UInt64} :
    raw.uint64? = some n ↔ SaysCount raw n := by
  cases raw with
  | number numeral => exact toUInt64?_eq_some_iff
  | _ => exact ⟨nofun, nofun⟩

theorem ofName?_eq_some_iff {name : String} {level : LogLevel} :
    LogLevel.ofName? name = some level ↔ name = level.name := by
  constructor
  · intro h
    have hname := List.find?_some h
    exact (eq_of_beq hname).symm
  · rintro rfl
    exact LogLevel.ofName?_name level

theorem level_eq_some_iff {raw : Raw} {level : LogLevel} :
    raw.choice? >>= LogLevel.ofName? = some level ↔ SaysLevel raw level := by
  simp only [Option.bind_eq_bind, Option.bind_eq_some_iff, ofName?_eq_some_iff, exists_eq_right]
  constructor
  · intro h
    unfold Raw.choice? at h
    split at h
    · exact .name (map_ofList_assemble_eq_some_iff.mp h)
    · exact .member (map_ofList_assemble_eq_some_iff.mp h)
    · cases h
  · rintro (h | h) <;> exact map_ofList_assemble_eq_some_iff.mpr h

/-! ## What an object says -/

/-- The members of an object describe a configuration. -/
structure Describes (named : List (String × Raw)) (config : Config) : Prop where
  threadName : FieldIs named "ui_thread_name" SaysText "ui-runtime" config.threadName
  eventCapacity : FieldIs named "event_capacity" SaysCount 64 config.eventCapacity
  logLevel : FieldIs named "log_level" SaysLevel .info config.logLevel

variable {named named' : List (String × Raw)} {text : String}

theorem fieldIs_iff_orDefault {α : Type} {name : String} {Reads : Raw → α → Prop}
    {read : Raw → Option α} (hreads : ∀ raw a, read raw = some a ↔ Reads raw a) {default a : α} :
    FieldIs named name Reads default a ↔
      ∃ field, Raw.field? name named = some field ∧ orDefault field read default = some a := by
  rw [fieldIs_iff, Raw.field?]
  rcases Raw.valuesOf name named with _ | ⟨raw, _ | ⟨raw', later⟩⟩
  · simp [orDefault, eq_comm]
  · simp [orDefault, hreads]
  · simp

theorem record?_eq_some_iff {members : List (List Piece × Raw)} (h : Named members named)
    {fields : List (Option Raw)} :
    (Raw.object members).record? fieldNames = some fields ↔
      ∃ name capacity level, Raw.field? "ui_thread_name" named = some name ∧
        Raw.field? "event_capacity" named = some capacity ∧
        Raw.field? "log_level" named = some level ∧ [name, capacity, level] = fields := by
  simp [Raw.record?, fieldNames, decodeKeys_of_named h, Option.bind_eq_some_iff]

/-- An object is read as the configuration that its members describe. -/
theorem ofRaw?_object {members : List (List Piece × Raw)} (h : Named members named)
    {config : Config} : ofRaw? (.object members) = some config ↔ Describes named config := by
  rw [ofRaw?, Option.bind_eq_bind, Option.bind_eq_some_iff]
  constructor
  · rintro ⟨fields, hfields, hread⟩
    obtain ⟨name, capacity, level, hname, hcapacity, hlevel, rfl⟩ :=
      (record?_eq_some_iff h).mp hfields
    simp only [Option.bind_eq_bind, Option.bind_eq_some_iff, Option.pure_def,
      Option.some.injEq] at hread
    obtain ⟨threadName, hthreadName, eventCapacity, heventCapacity, logLevel, hlogLevel, rfl⟩ :=
      hread
    exact ⟨(fieldIs_iff_orDefault fun _ _ => string?_eq_some_iff).mpr ⟨name, hname, hthreadName⟩,
      (fieldIs_iff_orDefault fun _ _ => uint64?_eq_some_iff).mpr
        ⟨capacity, hcapacity, heventCapacity⟩,
      (fieldIs_iff_orDefault fun _ _ => level_eq_some_iff).mpr ⟨level, hlevel, hlogLevel⟩⟩
  · rintro ⟨hthreadName, heventCapacity, hlogLevel⟩
    obtain ⟨name, hname, hthreadName⟩ :=
      (fieldIs_iff_orDefault fun _ _ => string?_eq_some_iff).mp hthreadName
    obtain ⟨capacity, hcapacity, heventCapacity⟩ :=
      (fieldIs_iff_orDefault fun _ _ => uint64?_eq_some_iff).mp heventCapacity
    obtain ⟨level, hlevel, hlogLevel⟩ :=
      (fieldIs_iff_orDefault fun _ _ => level_eq_some_iff).mp hlogLevel
    refine ⟨[name, capacity, level],
      (record?_eq_some_iff h).mpr ⟨name, capacity, level, hname, hcapacity, hlevel, rfl⟩, ?_⟩
    simp only [Option.bind_eq_bind] at hlogLevel ⊢
    simp only [hthreadName, heventCapacity, hlogLevel, Option.bind_some, Option.pure_def]

/-! ## Texts of objects -/

/-- The members with known names are the same, in any order. -/
def Rearranged (named named' : List (String × Raw)) : Prop :=
  (known fieldNames named).Perm (known fieldNames named')

theorem Describes.of_rearranged (h : Rearranged named named') {config : Config}
    (hdescribes : Describes named config) : Describes named' config where
  threadName := hdescribes.threadName.of_perm (valuesOf_perm (by decide) h)
  eventCapacity := hdescribes.eventCapacity.of_perm (valuesOf_perm (by decide) h)
  logLevel := hdescribes.logLevel.of_perm (valuesOf_perm (by decide) h)

theorem parse_of_describes (h : ObjectText named text) {config : Config}
    (hdescribes : Describes named config) :
    parse text = config.validate.map fun _ => config := by
  obtain ⟨members, htext, hnamed⟩ := h
  have hraw := parse?_eq_some_iff.mpr htext
  have hread := (ofRaw?_object hnamed).mpr hdescribes
  simp only [parse, hraw, Option.bind_eq_bind, Option.bind_some, hread]
  cases config.validate <;> rfl

theorem parse_of_not_describes (h : ObjectText named text)
    (hnone : ¬∃ config, Describes named config) : parse text = .error .unreadable := by
  obtain ⟨members, htext, hnamed⟩ := h
  have hraw := parse?_eq_some_iff.mpr htext
  have hread : ofRaw? (.object members) = none := by
    rw [Option.eq_none_iff_forall_ne_some]
    intro config hconfig
    exact hnone ⟨config, (ofRaw?_object hnamed).mp hconfig⟩
  simp only [parse, hraw, Option.bind_eq_bind, Option.bind_some, hread]

theorem parse_eq_ok_iff (h : ObjectText named text) {config : Config} :
    parse text = .ok config ↔ Describes named config ∧ config.validate = .ok () := by
  constructor
  · intro hparse
    by_cases hsome : ∃ config, Describes named config
    · obtain ⟨described, hdescribes⟩ := hsome
      rw [parse_of_describes h hdescribes] at hparse
      cases hvalidate : described.validate with
      | error fault => rw [hvalidate] at hparse; cases hparse
      | ok u =>
        rw [hvalidate] at hparse
        obtain rfl : described = config := Except.ok.inj hparse
        exact ⟨hdescribes, hvalidate⟩
    · rw [parse_of_not_describes h hsome] at hparse
      cases hparse
  · rintro ⟨hdescribes, hvalidate⟩
    rw [parse_of_describes h hdescribes, hvalidate]
    rfl

/-- The order of the members does not matter, nor do those with unknown names. -/
theorem parse_eq_of_rearranged (h : ObjectText named text) {text' : String}
    (h' : ObjectText named' text') (hperm : Rearranged named named') :
    parse text' = parse text := by
  by_cases hsome : ∃ config, Describes named config
  · obtain ⟨config, hdescribes⟩ := hsome
    rw [parse_of_describes h hdescribes, parse_of_describes h' (hdescribes.of_rearranged hperm)]
  · have hnone' : ¬∃ config, Describes named' config := by
      rintro ⟨config, hdescribes⟩
      exact hsome ⟨config, hdescribes.of_rearranged hperm.symm⟩
    rw [parse_of_not_describes h hsome, parse_of_not_describes h' hnone']

/--
**What the text of an object means.** The text may have white space between any two tokens, and its
keys are compared as what they spell.

* It is read as a configuration exactly when its members describe that configuration and it is
  valid. What they describe but is not valid is refused for what is wrong with it, and where they
  describe nothing, the text is refused as a whole.
* Whatever is not read is an invalid configuration for the application.
* Another text whose members have the same values under the known names, in any order, is read as
  the same, whatever its other members are.
-/
theorem object_law (h : ObjectText named text) :
    (∀ config, parse text = .ok config ↔ Describes named config ∧ config.validate = .ok ()) ∧
    (∀ config fault, Describes named config → config.validate = .error fault →
      parse text = .error fault) ∧
    ((¬∃ config, Describes named config) → parse text = .error .unreadable) ∧
    ((¬∃ config, Describes named config ∧ config.validate = .ok ()) →
      ∃ fault, parse text = .error fault ∧ fault.toError = .invalidConfig fault.text) ∧
    ∀ named' text', ObjectText named' text' → Rearranged named named' →
      parse text' = parse text := by
  refine ⟨fun config => parse_eq_ok_iff h, ?invalid, parse_of_not_describes h, ?refused,
    fun named' text' h' hperm => parse_eq_of_rearranged h h' hperm⟩
  case invalid =>
    intro config fault hdescribes hvalidate
    rw [parse_of_describes h hdescribes, hvalidate]
    rfl
  case refused =>
    intro hnone
    cases hparse : parse text with
    | ok config => exact absurd ⟨config, (parse_eq_ok_iff h).mp hparse⟩ hnone
    | error fault => exact ⟨fault, rfl, rfl⟩

/-- An escape in a key, white space, and unknown members on both sides, two of them with one
name. -/
theorem scattered_text_is_read :
    parse "\x7b\"x\" : [[\x7b\x7d]],\t\"\\u006cog_level\":\x7b\"off\": null\x7d , \"x\":2 \x7d" =
      .ok { logLevel := .off } := by
  have hspace : Blanks [' '] := by simp [Blanks]
  have htab : Blanks ['\t'] := by simp [Blanks]
  obtain ⟨x, hx, hxSpells⟩ := exists_stringText_quote "x"
  obtain ⟨off, hoff, hoffSpells⟩ := exists_stringText_quote "off"
  obtain ⟨rest, hrest, hrestSpells⟩ := exists_piecesText_flatMap "og_level".toList
  have hkey : StringText (.unit 0x6c :: rest) "\"\\u006cog_level\"".toList :=
    .mk (.cons (.unit rfl) hrest)
  have hkeySpells : Spells (.unit 0x6c :: rest) "log_level".toList := .unit rfl rfl hrestSpells
  obtain ⟨two, htwo, -⟩ := exists_numeralText_toDigits 2
  have hlist : ValueText (.array [.array [.object []]]) "[[\x7b\x7d]]".toList :=
    .array (.last .nil (.array (.last .nil (.emptyObject .nil) .nil)) .nil)
  have hlevel : ValueText (.object [(off, .null)]) "\x7b\"off\": null\x7d".toList :=
    .object (.last .nil hoff .nil hspace .null .nil)
  have hmembers := MembersText.cons .nil hx hspace hspace hlist .nil
    (.cons htab hkey .nil .nil hlevel hspace
      (.last hspace hx .nil .nil (.number htwo) hspace))
  have h : ObjectText [("x", _), ("log_level", .object [(off, .null)]), ("x", _)]
      "\x7b\"x\" : [[\x7b\x7d]],\t\"\\u006cog_level\":\x7b\"off\": null\x7d , \"x\":2 \x7d" :=
    ⟨_, .mk .nil (.object hmembers) .nil, .cons ⟨hxSpells, rfl⟩ (.cons ⟨hkeySpells, rfl⟩
      (.cons ⟨hxSpells, rfl⟩ .nil))⟩
  refine ((object_law h).1 _).mpr ⟨?_, rfl⟩
  exact {
    threadName := .missing (by simp)
    eventCapacity := .missing (by simp)
    logLevel := .present [_] [_] rfl (by simp) (by simp) (.member hoffSpells) }

/-! ## Writing and reading -/

/-- A written configuration describes itself. -/
theorem exists_objectText_toJson (config : Config) :
    ∃ named, ObjectText named config.toJson.render ∧ Describes named config := by
  obtain ⟨name, hname, hnameSpells⟩ := exists_stringText_quote config.threadName
  obtain ⟨whole, hwhole, hvalue⟩ := exists_numeralText_toDigits config.eventCapacity.toNat
  obtain ⟨level, hlevel, hlevelSpells⟩ := exists_stringText_quote config.logLevel.name
  refine ⟨[("ui_thread_name", .string name),
    ("event_capacity", .number ⟨false, whole, none, none⟩),
    ("log_level", .string level)], objectText_render ?written, ?describes⟩
  case written =>
    exact .cons ⟨rfl, .string hname⟩ (.cons ⟨rfl, .number hwhole⟩
      (.cons ⟨rfl, .string hlevel⟩ .nil))
  case describes =>
    exact {
      threadName := .present [] [_, _] rfl nofun (by simp) (.mk hnameSpells)
      eventCapacity := .present [_] [_] rfl (by simp) (by simp) (.mk hvalue)
      logLevel := .present [_, _] [] rfl (by simp) (by simp) (.name hlevelSpells) }

theorem parse_render_toJson (config : Config) :
    parse config.toJson.render = config.validate.map fun _ => config := by
  obtain ⟨named, htext, hdescribes⟩ := exists_objectText_toJson config
  exact parse_of_describes htext hdescribes

theorem validate_of_parse {config : Config} (h : parse text = .ok config) :
    config.validate = .ok () := by
  rw [parse] at h
  split at h
  · cases h
  · split at h
    · next hvalidate =>
      obtain rfl := Except.ok.inj h
      exact hvalidate
    · cases h

/--
**Writing and reading.** A valid configuration is read back from its stored form, whatever
characters its name has; a configuration that is not valid is refused for what is wrong with it.
Whatever a text is read as is valid, and is read back from its stored form.
-/
theorem stored_round_trip :
    (∀ config : Config, config.validate = .ok () → parse config.toJson.render = .ok config) ∧
    (∀ (config : Config) fault, config.validate = .error fault →
      parse config.toJson.render = .error fault) ∧
    ∀ text config, parse text = .ok config →
      config.validate = .ok () ∧ parse config.toJson.render = .ok config := by
  have hvalid (config : Config) (h : config.validate = .ok ()) :
      parse config.toJson.render = .ok config := by
    rw [parse_render_toJson, h]
    rfl
  refine ⟨hvalid, ?invalid, fun text config h => ⟨validate_of_parse h, hvalid config ?_⟩⟩
  case invalid =>
    intro config fault h
    rw [parse_render_toJson, h]
    rfl
  exact validate_of_parse h

end Config

end ScriptBridge
