import ScriptBridge.Error
import ScriptBridge.Json

/-!
# Configuration of a script thread

The name of the thread, how many events its subscribers may lag behind, and how much is logged.

A configuration is valid when the name is not blank and there is room for at least one event.
Blankness goes by the white space of Unicode.
-/

namespace ScriptBridge

/-- How much is logged. -/
inductive LogLevel where
  | off
  | error
  | warn
  | info
  | debug
  | trace
deriving DecidableEq, Repr

namespace LogLevel

/-- All levels, the quietest first. -/
def all : List LogLevel := [off, error, warn, info, debug, trace]

/-- The name by which a level is stored. -/
def name : LogLevel → String
  | off => "off"
  | error => "error"
  | warn => "warn"
  | info => "info"
  | debug => "debug"
  | trace => "trace"

/-- The name of the filter that lets this level and the quieter ones pass. -/
def filterName : LogLevel → String
  | off => "OFF"
  | error => "ERROR"
  | warn => "WARN"
  | info => "INFO"
  | debug => "DEBUG"
  | trace => "TRACE"

/-- The level with a name. -/
def ofName? (name : String) : Option LogLevel := all.find? (·.name == name)

theorem ofName?_name (level : LogLevel) : ofName? level.name = some level := by
  cases level <;> decide

end LogLevel

/-- The configuration of a script thread. -/
structure Config where
  /-- The name of the thread that owns the UI runtime. -/
  threadName : String := "ui-runtime"
  /-- How many events are kept for subscribers. -/
  eventCapacity : UInt64 := 64
  logLevel : LogLevel := .info
deriving DecidableEq, Repr

/-- The white space of Unicode: the code points of the property `White_Space`. -/
def isBlank (c : Char) : Bool :=
  let n := c.toNat
  (9 ≤ n && n ≤ 13) || n == 0x20 || n == 0x85 || n == 0xa0 || n == 0x1680 ||
    (0x2000 ≤ n && n ≤ 0x200a) || n == 0x2028 || n == 0x2029 || n == 0x202f || n == 0x205f ||
    n == 0x3000

namespace Config

/-- What can be wrong with a configuration. -/
inductive Fault where
  /-- The text is not the JSON of a configuration. -/
  | unreadable
  | blankThreadName
  | noEventCapacity
deriving DecidableEq, Repr

/-- The text of a fault. -/
def Fault.text : Fault → String
  | unreadable => "not a configuration"
  | blankThreadName => "ui_thread_name must not be empty"
  | noEventCapacity => "event_capacity must be greater than zero"

/-- The fault as an error of the bridge. -/
def Fault.toError (fault : Fault) : BridgeError := .invalidConfig fault.text

/-- Check a configuration. -/
def validate (config : Config) : Except Fault Unit :=
  if config.threadName.toList.all isBlank then .error .blankThreadName
  else if config.eventCapacity = 0 then .error .noEventCapacity
  else .ok ()

/-- The stored form of a configuration. -/
def toJson (config : Config) : Json :=
  .object [("ui_thread_name", .string config.threadName),
    ("event_capacity", .natural config.eventCapacity.toNat),
    ("log_level", .string config.logLevel.name)]

end Config

end ScriptBridge
