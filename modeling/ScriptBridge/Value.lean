import ScriptBridge.Binary64
import ScriptBridge.OrderedMap

/-!
# Script values

What a script can hold: the two empty values, booleans, numbers, text, objects, arrays, functions
and handles of nodes in the tree of views.

Objects keep their properties in insertion order. Functions are references: a name to show, and an
identity under which the machine that runs scripts finds the code. Copies of a function share the
identity.

* `Value.inductionOn` is induction over values of any nesting.
* `Value.WellFormed` says that every object inside has distinct keys, as all objects built by
  insertion do.
-/

namespace ScriptBridge

/-- A reference to a function. Its identity tells functions apart, whatever their names. -/
structure Function where
  name : String
  identity : Nat
deriving DecidableEq, Repr

/-- An opaque reference to a node in the tree of views. -/
structure NodeHandle where
  raw : UInt64
deriving DecidableEq, Repr

/-- A value as seen from script code. -/
inductive Value where
  | undefined
  | null
  | bool (b : Bool)
  | number (x : Binary64)
  | string (s : String)
  | object (properties : OrderedMap String Value)
  | array (items : List Value)
  | function (f : Function)
  | node (handle : NodeHandle)

/-- A keyed script object, its properties in insertion order. -/
abbrev Object := OrderedMap String Value

instance : Inhabited Value := ⟨.undefined⟩

/-- What the name of a function looks like in diagnostics. -/
def Function.label (f : Function) : String := "[Function " ++ f.name ++ "]"

/-- What a node handle looks like in diagnostics. -/
def NodeHandle.label (node : NodeHandle) : String :=
  "[NodeHandle " ++ toString node.raw.toNat ++ "]"

namespace Value

/-- The name of a value's type, as messages give it. -/
def typeName : Value → String
  | undefined => "undefined"
  | null => "null"
  | bool _ => "boolean"
  | number _ => "number"
  | string _ => "string"
  | object _ => "object"
  | array _ => "array"
  | function _ => "function"
  | node _ => "node handle"

/-! ## Views by type -/

/-- The value is `undefined`. -/
def isUndefined : Value → Bool
  | undefined => true
  | _ => false

/-- The number that the value is, if it is one. -/
def number? : Value → Option Binary64
  | number x => some x
  | _ => none

/-- The boolean that the value is, if it is one. -/
def bool? : Value → Option Bool
  | bool b => some b
  | _ => none

/-- The text that the value is, if it is one. -/
def string? : Value → Option String
  | string s => some s
  | _ => none

/-- The object that the value is, if it is one. -/
def object? : Value → Option Object
  | object o => some o
  | _ => none

/-- The function that the value is, if it is one. -/
def function? : Value → Option Function
  | function f => some f
  | _ => none

/-- The node handle that the value is, if it is one. -/
def node? : Value → Option NodeHandle
  | node handle => some handle
  | _ => none

/-! ## Induction -/

/-- Induction over values: a property that passes from the properties of an object and from the
items of an array to the whole holds of every value. -/
theorem inductionOn {P : Value → Prop} (undefined : P undefined) (null : P null)
    (bool : ∀ b, P (bool b)) (number : ∀ x, P (number x)) (string : ∀ s, P (string s))
    (object : ∀ o : Object, (∀ entry ∈ o.entries, P entry.2) → P (object o))
    (array : ∀ items, (∀ item ∈ items, P item) → P (array items))
    (function : ∀ f, P (function f)) (node : ∀ handle, P (node handle)) (v : Value) : P v :=
  @Value.rec P (fun o => ∀ entry ∈ o.entries, P entry.2) (fun items => ∀ item ∈ items, P item)
    (fun entries => ∀ entry ∈ entries, P entry.2) (fun entry => P entry.2)
    undefined null bool number string object array function node
    (fun _ ih => ih) (by simp) (fun _ _ ih ihs => List.forall_mem_cons.2 ⟨ih, ihs⟩)
    (by simp) (fun _ _ ih ihs => List.forall_mem_cons.2 ⟨ih, ihs⟩) (fun _ _ ih => ih) v

/-! ## Well-formed values -/

/-- Every object inside the value has distinct keys. -/
inductive WellFormed : Value → Prop
  | undefined : WellFormed undefined
  | null : WellFormed null
  | bool (b : Bool) : WellFormed (bool b)
  | number (x : Binary64) : WellFormed (number x)
  | string (s : String) : WellFormed (string s)
  | object (o : Object) : o.keys.Nodup → (∀ entry ∈ o.entries, WellFormed entry.2) →
      WellFormed (object o)
  | array (items : List Value) : (∀ item ∈ items, WellFormed item) → WellFormed (array items)
  | function (f : Function) : WellFormed (function f)
  | node (handle : NodeHandle) : WellFormed (node handle)

theorem wellFormed_object_iff {o : Object} :
    (object o).WellFormed ↔ o.keys.Nodup ∧ ∀ entry ∈ o.entries, entry.2.WellFormed := by
  constructor
  · intro h
    cases h with
    | object _ hkeys hvalues => exact ⟨hkeys, hvalues⟩
  · exact fun h => .object o h.1 h.2

theorem wellFormed_array_iff {items : List Value} :
    (array items).WellFormed ↔ ∀ item ∈ items, item.WellFormed := by
  constructor
  · intro h
    cases h with
    | array _ hitems => exact hitems
  · exact .array items

end Value

namespace OrderedMap

/-- The number under a key, if there is a value under the key and it is a number. -/
def number? (o : Object) (key : String) : Option Binary64 := (o.get? key).bind Value.number?

end OrderedMap

end ScriptBridge
