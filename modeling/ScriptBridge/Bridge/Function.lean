import ScriptBridge.Machine

/-!
# Bridge functions

A bridge function makes a native operation callable from script. It decodes the arguments from left
to right, runs the operation once on what was decoded, and encodes the result. If an argument does
not decode the operation is not run. A failure of the operation is an exception for the script that
made the call.

`nullary` to `quaternary` build bridge functions from operations with that many arguments.
-/

namespace ScriptBridge

/-- A named native operation, ready to be installed into a runtime. -/
structure BridgeFunction where
  name : String
  code : Code

namespace BridgeFunction

variable {α β γ δ ρ : Type}

/-- Decode an argument or end with the exception. -/
def take (α : Type) [FromScript α] (args : List Value) (index : Nat) : Script Exception α :=
  .ofExcept (argument α args index)

/-- Run a native operation and encode its result. -/
def answer [ToScript ρ] (native : Native ρ) : Script Exception Value := do
  return ToScript.encode (← native.toScript)

/-- An operation without arguments. -/
def nullary [ToScript ρ] (name : String) (native : Native ρ) : BridgeFunction :=
  { name, code := fun _ => answer native }

/-- An operation with one argument. -/
def unary [FromScript α] [ToScript ρ] (name : String) (native : α → Native ρ) : BridgeFunction where
  name
  code args := do
    let a ← take α args 0
    answer (native a)

/-- An operation with two arguments. -/
def binary [FromScript α] [FromScript β] [ToScript ρ] (name : String)
    (native : α → β → Native ρ) : BridgeFunction where
  name
  code args := do
    let a ← take α args 0
    let b ← take β args 1
    answer (native a b)

/-- An operation with three arguments. -/
def ternary [FromScript α] [FromScript β] [FromScript γ] [ToScript ρ] (name : String)
    (native : α → β → γ → Native ρ) : BridgeFunction where
  name
  code args := do
    let a ← take α args 0
    let b ← take β args 1
    let c ← take γ args 2
    answer (native a b c)

/-- An operation with four arguments. -/
def quaternary [FromScript α] [FromScript β] [FromScript γ] [FromScript δ] [ToScript ρ]
    (name : String) (native : α → β → γ → δ → Native ρ) : BridgeFunction where
  name
  code args := do
    let a ← take α args 0
    let b ← take β args 1
    let c ← take γ args 2
    let d ← take δ args 3
    answer (native a b c d)

/-- Call a bridge function on a machine without installing it. -/
def invoke (f : BridgeFunction) (args : List Value) : Machine.Run Exception Value :=
  (f.code args).run

/-- Bind a bridge function to its name, as a new function. -/
def install (f : BridgeFunction) (m : Machine) : Machine :=
  let (function, functions) := m.env.functions.define f.name f.code
  { m with env := { m.env with functions } }.setGlobal f.name (.function function)

end BridgeFunction

end ScriptBridge
