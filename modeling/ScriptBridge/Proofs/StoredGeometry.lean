import ScriptBridge.Geometry.Stored
import ScriptBridge.Proofs.NumberReading

/-!
# Stored frames

A frame with finite numbers is always read from its stored form, but not always as the same frame:
each of its numbers is read as reading goes.

* `Geometry.ReadBack` — a frame, and what its stored form is read as.
* `Geometry.stored_geometry_law` — a stored frame is read back in this sense.
* `Geometry.stored_frame_goes_astray` — a frame that is not read as itself.
-/

namespace ScriptBridge

namespace Geometry

open Json Binary64

/-- All numbers of a frame are finite. -/
structure IsFinite (g : Geometry) : Prop where
  x : g.x.isFinite = true
  y : g.y.isFinite = true
  width : g.width.isFinite = true
  height : g.height.isFinite = true

/-- A frame and what its stored form is read as, number by number. -/
structure ReadBack (g read : Geometry) : Prop where
  x : g.x.ReadBack read.x
  y : g.y.ReadBack read.y
  width : g.width.ReadBack read.width
  height : g.height.ReadBack read.height

/-- A record of four numbers under their names is read as a frame. -/
theorem ofRaw?_object {members : List (List Piece × Raw)} {x y width height : Numeral}
    {read : Geometry}
    (h : Named members [("x", .number x), ("y", .number y), ("width", .number width),
      ("height", .number height)])
    (hx : x.toBinary64? = some read.x) (hy : y.toBinary64? = some read.y)
    (hwidth : width.toBinary64? = some read.width)
    (hheight : height.toBinary64? = some read.height) :
    ofRaw? (.object members) = some read := by
  have hrecord : (Raw.object members).record? fieldNames =
      some [some (.number x), some (.number y), some (.number width), some (.number height)] := by
    rw [Raw.record?, decodeKeys_of_named h]
    rfl
  simp [ofRaw?, hrecord, Raw.binary64?, hx, hy, hwidth, hheight]

/-- **A stored frame is read back**, if its numbers are finite: each of them with its sign and at
most two places away, and many of them exactly. -/
theorem stored_geometry_law (g : Geometry) (h : g.IsFinite) :
    ∃ read, parse? g.toJson.render = some read ∧ g.ReadBack read := by
  obtain ⟨x, readX, hx, hreadX, hbackX⟩ := exists_toBinary64?_finiteText h.x
  obtain ⟨y, readY, hy, hreadY, hbackY⟩ := exists_toBinary64?_finiteText h.y
  obtain ⟨width, readWidth, hwidth, hreadWidth, hbackWidth⟩ := exists_toBinary64?_finiteText h.width
  obtain ⟨height, readHeight, hheight, hreadHeight, hbackHeight⟩ :=
    exists_toBinary64?_finiteText h.height
  have hjson : g.toJson = .object [("x", .number g.x), ("y", .number g.y),
      ("width", .number g.width), ("height", .number g.height)] := by
    simp only [toJson, Json.ofNumber, h.x, h.y, h.width, h.height, if_true]
  have hobject : ObjectText [("x", .number x), ("y", .number y), ("width", .number width),
      ("height", .number height)] g.toJson.render := by
    rw [hjson]
    exact objectText_render (.cons ⟨rfl, .number hx⟩ (.cons ⟨rfl, .number hy⟩
      (.cons ⟨rfl, .number hwidth⟩ (.cons ⟨rfl, .number hheight⟩ .nil))))
  obtain ⟨members, htext, hnamed⟩ := hobject
  refine ⟨⟨readX, readY, readWidth, readHeight⟩, ?_, ⟨hbackX, hbackY, hbackWidth, hbackHeight⟩⟩
  rw [parse?, parse?_eq_some_iff.mpr htext]
  exact ofRaw?_object hnamed hreadX hreadY hreadWidth hreadHeight

/-- The largest number, the smallest one, the negative zero and a tenth. -/
theorem extreme_frame_is_read_back :
    let g : Geometry := ⟨⟨0x7fefffffffffffff⟩, ⟨1⟩, ⟨0x8000000000000000⟩, ⟨0x3fb999999999999a⟩⟩
    g.IsFinite ∧ ∃ read, parse? g.toJson.render = some read ∧ g.ReadBack read :=
  ⟨⟨by decide, by decide, by decide, by decide⟩,
    stored_geometry_law _ ⟨by decide, by decide, by decide, by decide⟩⟩

/-- **Not every stored frame is read as itself.** The first number is one place away, the second one
two places, though the digits of each identify it. -/
theorem stored_frame_goes_astray :
    let g : Geometry := ⟨⟨0x402271c71c71c71c⟩, ⟨0x38ddeea4e83f23b5⟩, ⟨0x8000000000000000⟩, ⟨1⟩⟩
    let read : Geometry :=
      ⟨⟨0x402271c71c71c71b⟩, ⟨0x38ddeea4e83f23b3⟩, ⟨0x8000000000000000⟩, ⟨1⟩⟩
    g.IsFinite ∧ parse? g.toJson.render = some read ∧ read ≠ g :=
  ⟨⟨by decide, by decide, by decide, by decide⟩, by decide +kernel, by decide⟩

end Geometry

end ScriptBridge
