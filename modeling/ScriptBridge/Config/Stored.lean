import ScriptBridge.Config
import ScriptBridge.Json.Reader

/-!
# Reading a stored configuration

A configuration is stored as a JSON record. Missing fields have their defaults, and what was read
has to be valid.
-/

namespace ScriptBridge

namespace Config

/-- The names of the stored fields, in order. -/
def fieldNames : List String := ["ui_thread_name", "event_capacity", "log_level"]

/-- The value of a field, or its default when it is absent. -/
def orDefault {α : Type} (field : Option Json.Raw) (read : Json.Raw → Option α) (default : α) :
    Option α :=
  match field with
  | none => some default
  | some raw => read raw

/-- The configuration that a document holds, valid or not. -/
def ofRaw? (raw : Json.Raw) : Option Config := do
  match ← raw.record? fieldNames with
  | [name, capacity, level] =>
    let default : Config := {}
    let threadName ← orDefault name Json.Raw.string? default.threadName
    let eventCapacity ← orDefault capacity Json.Raw.uint64? default.eventCapacity
    let logLevel ← orDefault level (fun raw => raw.choice? >>= LogLevel.ofName?) default.logLevel
    return { threadName, eventCapacity, logLevel }
  | _ => none

/-- Read a valid configuration. -/
def parse (text : String) : Except Fault Config :=
  match Json.Raw.parse? text >>= ofRaw? with
  | none => .error .unreadable
  | some config =>
    match config.validate with
    | .ok () => .ok config
    | .error fault => .error fault

end Config

end ScriptBridge
