import ScriptBridge.FrameQueue
import ScriptBridge.Host.Call
import ScriptBridge.Runtime

/-!
# Scripts

The behaviour of a function is a `Script`: a tree of requests to the machine that runs it, with a
continuation for every possible reply, that ends in a result, an error or a panic. So a script may
compute anything from what it reads, but acts on its runtime only through the requests of `Op`: it
reads the scope, binds globals and calls functions.

`Native` scripts are the operations of a host. They fail with a chain of causes instead of an
exception, and may call back into script code.

An exception of a called function comes back as a reply, so a script can handle it. A panic does
not: it ends everything that runs.
-/

namespace ScriptBridge

/-- What a function noted: its name and some values. -/
structure JournalEntry where
  function : String
  values : List Value

/-- A request of a script to the machine that runs it. -/
inductive Op where
  /-- Read the context of the runtime. -/
  | context
  /-- Read the global scope. -/
  | scope
  /-- Bind a global. -/
  | setGlobal (name : String) (value : Value)
  /-- Call a function. -/
  | call (callee : Function) (args : List Value)
  /-- Ask the host for an operation. -/
  | host (call : HostCall)
  /-- Ask for a callback at the next frame. -/
  | requestFrame (callback : Value)
  /-- Read the timestamp of the last frame. -/
  | frameTimestamp
  /-- Write into the journal. -/
  | note (entry : JournalEntry)
  /-- Read the journal. -/
  | journal

/-- What the machine replies to a request. -/
abbrev Op.Reply : Op → Type
  | context => Context
  | scope => Object
  | setGlobal _ _ => Unit
  | call _ _ => Except Exception Value
  | host operation => Except Detached operation.Reply
  | requestFrame _ => Except FailureChain Unit
  | frameTimestamp => Binary64
  | note _ => Unit
  | journal => List JournalEntry

/-- A behaviour that ends in a result of type `α`, an error of type `ε`, or a panic. -/
inductive Script (ε α : Type) where
  | result (a : α)
  | error (e : ε)
  | panic
  | request (op : Op) (next : op.Reply → Script ε α)

/-- The code of a function: its behaviour on a list of arguments. -/
abbrev Code := List Value → Script Exception Value

/-- The behaviour of a native operation. -/
abbrev Native (α : Type) := Script FailureChain α

namespace Script

variable {ε ε' α β : Type}

/-! ## Sequencing -/

/-- Continue with the result. -/
def bind : Script ε α → (α → Script ε β) → Script ε β
  | result a, f => f a
  | error e, _ => error e
  | panic, _ => panic
  | request op next, f => request op fun reply => (next reply).bind f

instance : Monad (Script ε) where
  pure := result
  bind := bind

@[simp]
theorem pure_eq (a : α) : (pure a : Script ε α) = result a := rfl

@[simp]
theorem result_bind (a : α) (f : α → Script ε β) : (result a >>= f) = f a := rfl

@[simp]
theorem error_bind (e : ε) (f : α → Script ε β) : (error e >>= f) = error e := rfl

@[simp]
theorem panic_bind (f : α → Script ε β) : ((panic : Script ε α) >>= f) = panic := rfl

@[simp]
theorem request_bind (op : Op) (next : op.Reply → Script ε α) (f : α → Script ε β) :
    (request op next >>= f) = request op fun reply => next reply >>= f := rfl

theorem bind_result (s : Script ε α) : (s >>= result) = s := by
  induction s with
  | result | error | panic => rfl
  | request op next ih => simp [ih]

theorem bind_assoc {γ : Type} (s : Script ε α) (f : α → Script ε β) (g : β → Script ε γ) :
    ((s >>= f) >>= g) = (s >>= fun a => f a >>= g) := by
  induction s with
  | result | error | panic => rfl
  | request op next ih => simp [ih]

/-- Ask the machine and give its reply. -/
def ask (op : Op) : Script ε op.Reply := request op result

/-- End with a result or an error. -/
def ofExcept : Except ε α → Script ε α
  | .ok a => result a
  | .error e => error e

/-- Run to the end and give the result or the error. Only a panic goes through. -/
def attempt : Script ε α → Script ε' (Except ε α)
  | result a => result (.ok a)
  | error e => result (.error e)
  | panic => panic
  | request op next => request op fun reply => (next reply).attempt

/-- The same behaviour with the error converted. -/
def mapError (f : ε → ε') : Script ε α → Script ε' α
  | result a => result a
  | error e => error (f e)
  | panic => panic
  | request op next => request op fun reply => (next reply).mapError f

/-! ## What scripts do with their runtime -/

/-- The value of a global. -/
def getGlobal (name : String) : Script ε (Option Value) := do
  let scope ← ask .scope
  return OrderedMap.get? scope name

/-- Bind a global. -/
def setGlobal (name : String) (value : Value) : Script ε Unit := ask (.setGlobal name value)

/-- The marker of the UI runtime reads as `true`. -/
def isUiRuntime : Script ε Bool := do
  let scope ← ask .scope
  return Runtime.marks scope

/-- Call a function. -/
def call (callee : Function) (args : List Value) : Script Exception Value := do
  ofExcept (← ask (.call callee args))

/-- Call a value; only functions can be called. -/
def callFunction (callee : Value) (args : List Value) : Script Exception Value :=
  match callee with
  | .function f => call f args
  | v => error (.type (v.typeName ++ " is not a function"))

/-- Look up a global and call it. -/
def callGlobal (name : String) (args : List Value) : Script Exception Value := do
  match ← getGlobal name with
  | none => error (.reference name)
  | some (.function f) => call f args
  | some _ => error (.type (name ++ " is not a function"))

/-- Write into the journal. -/
def note (function : String) (values : List Value) : Script ε Unit :=
  ask (.note { function, values })

end Script

namespace Native

/-- Ask the host for an operation; a detached view is a native failure. -/
def host (call : HostCall) : Native call.Reply := do
  match ← Script.ask (.host call) with
  | .ok reply => return reply
  | .error detached => Script.error (Detached.failure detached)

/-- A native operation as part of script code: its failure is an exception. -/
def toScript {α : Type} (native : Native α) : Script Exception α :=
  native.mapError FailureChain.toException

/-- Script code as part of a native operation: its exception is the root of a failure. -/
def ofScript {α : Type} (script : Script Exception α) : Native α :=
  script.mapError FailureChain.ofException

end Native

end ScriptBridge
