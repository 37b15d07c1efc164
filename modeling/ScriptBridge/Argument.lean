import ScriptBridge.Binary64.Rounding
import ScriptBridge.Binary64.Text
import ScriptBridge.Value
import ScriptBridge.Error

/-!
# Arguments and results of native operations

Native operations work with numbers, integers, booleans, text, objects, functions and node handles.
`FromScript` decodes such a type from a script value, `ToScript` encodes it. A value of another
type does not decode; the `Mismatch` says what was expected and what was found.

Arguments are decoded by position. A missing argument reads as `undefined`, as in script code.
-/

namespace ScriptBridge

/-- The identifier of a rendered view. -/
abbrev ViewTag := Int32

/-- A value that is not of the expected type. -/
structure Mismatch where
  expected : String
  found : String
deriving DecidableEq, Repr

/-- The text of a mismatch. -/
def Mismatch.text (m : Mismatch) : String := "expected " ++ m.expected ++ ", got " ++ m.found

/-- Types that can be decoded from script values. -/
class FromScript (α : Type) where
  decode : Value → Except Mismatch α

/-- Types that can be encoded as script values. -/
class ToScript (α : Type) where
  encode : α → Value

namespace Value

/-- The view of a value by type, or the mismatch with the type of that name. -/
def expect {α : Type} (expected : String) (view : Value → Option α) (v : Value) :
    Except Mismatch α :=
  match view v with
  | some a => .ok a
  | none => .error { expected, found := v.typeName }

/-- Tags and states are numbers whose integral part fits into thirty-two bits. The fractional part
is dropped, and no other number is taken for a tag. -/
def decodeInt32 (v : Value) : Except Mismatch Int32 :=
  match v.expect "number" Value.number? with
  | .error m => .error m
  | .ok x =>
    match x.toInt32? with
    | some n => .ok n
    | none => .error { expected := "32-bit integer", found := x.trunc.messageText }

/-- The script number of a tag or a state. -/
def ofInt32 (n : Int32) : Value := .number (Binary64.ofInt n.toInt)

end Value

/-! ## Decoding and encoding by type -/

instance : FromScript Binary64 := ⟨Value.expect "number" Value.number?⟩
instance : FromScript Int32 := ⟨Value.decodeInt32⟩
instance : FromScript Bool := ⟨Value.expect "boolean" Value.bool?⟩
instance : FromScript String := ⟨Value.expect "string" Value.string?⟩
instance : FromScript NodeHandle := ⟨Value.expect "node handle" Value.node?⟩
instance : FromScript Object := ⟨Value.expect "object" Value.object?⟩
instance : FromScript Function := ⟨Value.expect "function" Value.function?⟩
instance : FromScript Value := ⟨.ok⟩

instance : ToScript Unit := ⟨fun _ => .undefined⟩
instance : ToScript Binary64 := ⟨.number⟩
instance : ToScript Int32 := ⟨Value.ofInt32⟩
instance : ToScript Bool := ⟨.bool⟩
instance : ToScript String := ⟨.string⟩
instance : ToScript NodeHandle := ⟨.node⟩
instance : ToScript Object := ⟨.object⟩
instance : ToScript Function := ⟨.function⟩
instance : ToScript (List Value) := ⟨.array⟩
instance : ToScript Value := ⟨id⟩

/-! ## Decoding by position -/

/-- The argument at a position, `undefined` if there is none. -/
def argumentAt (args : List Value) (index : Nat) : Value := args.getD index .undefined

/-- Decode the argument at a position. -/
def argument (α : Type) [FromScript α] (args : List Value) (index : Nat) : Except Exception α :=
  match FromScript.decode (argumentAt args index) with
  | .ok a => .ok a
  | .error m => .error (.type ("argument " ++ toString index ++ ": " ++ m.text))

variable {α : Type} [FromScript α] {args args' : List Value} {index : Nat}

theorem argument_of_decode {a : α} (h : FromScript.decode (args.getD index .undefined) = .ok a) :
    argument α args index = .ok a := by
  rw [argument, argumentAt, h]

/-- An argument that does not decode is a type error that says which one it is. -/
theorem argument_of_mismatch {m : Mismatch}
    (h : (FromScript.decode (args.getD index .undefined) : Except Mismatch α) = .error m) :
    argument α args index = .error (.type ("argument " ++ toString index ++ ": " ++ m.text)) := by
  rw [argument, argumentAt, h]

theorem argument_congr (h : args.getD index .undefined = args'.getD index .undefined) :
    argument α args index = argument α args' index := by
  rw [argument, argument, argumentAt, argumentAt, h]

end ScriptBridge
