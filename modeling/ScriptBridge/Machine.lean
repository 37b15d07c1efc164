import ScriptBridge.Host.Recording
import ScriptBridge.Script

/-!
# Running scripts

A `Machine` is a runtime and what surrounds it: the host, the frame queue, the journal and the code
of all functions. `Script.run` carries out a script on a machine.

A run ends in a value, in an error, or it halts: by a panic, or because calls are nested deeper than
the stack of the machine allows. Halting ends every run around it as well.

Calls are run by `Machine.invoke`, on a stack with room for one call less; everything else about a
script follows its own structure.
-/

namespace ScriptBridge

/-- Why a run stopped without a result. -/
inductive Halt where
  | panic
  | stackOverflow
deriving DecidableEq, Repr

/-- How a run ends. -/
inductive Outcome (ε α : Type) where
  | value (a : α)
  | error (e : ε)
  | halted (why : Halt)
deriving DecidableEq, Repr

namespace Outcome

variable {ε ε' α β : Type}

/-- The same outcome with the error converted. -/
def mapError (f : ε → ε') : Outcome ε α → Outcome ε' α
  | value a => value a
  | error e => error (f e)
  | halted why => halted why

/-- The same outcome with the value converted. -/
def map (f : α → β) : Outcome ε α → Outcome ε β
  | value a => value (f a)
  | error e => error e
  | halted why => halted why

end Outcome

/-- The code of all functions, found by identity. -/
structure FunctionTable where
  codes : List Code := []

namespace FunctionTable

/-- The code of a function. An identity without code does nothing. -/
def code (table : FunctionTable) (f : Function) : Code :=
  table.codes.getD f.identity fun _ => .result .undefined

/-- Make a function of this name and code. It differs from all functions made before. -/
def define (table : FunctionTable) (name : String) (code : Code) : Function × FunctionTable :=
  ({ name, identity := table.codes.length }, { codes := table.codes ++ [code] })

theorem code_define (table : FunctionTable) (name : String) (code : Code) :
    (table.define name code).2.code (table.define name code).1 = code := by
  simp [define, FunctionTable.code]

theorem code_define_of_lt {table : FunctionTable} {f : Function}
    (h : f.identity < table.codes.length) (name : String) (code : Code) :
    (table.define name code).2.code f = table.code f := by
  simp [define, FunctionTable.code, List.getD_eq_getElem?_getD, List.getElem?_append_left h]

end FunctionTable

/-- What surrounds a runtime. -/
structure Environment where
  host : RecordingHost
  frames : FrameQueue := {}
  /-- What functions noted, in order. -/
  journal : List JournalEntry := []
  functions : FunctionTable := {}
  /-- How deeply calls may be nested. -/
  stackLimit : Nat := 4096

/-- A runtime in its surroundings. -/
structure Machine where
  runtime : Runtime
  env : Environment

/-- Run something on a machine. -/
abbrev Machine.Run (ε α : Type) := Machine → Outcome ε α × Machine

namespace Machine

/-- Reply to a request. Calls are handed to `invoke`. -/
def reply (invoke : Function → List Value → Run Exception Value) (m : Machine) :
    (op : Op) → Except Halt op.Reply × Machine
  | .context => (.ok m.runtime.context, m)
  | .scope => (.ok m.runtime.global, m)
  | .setGlobal name value => (.ok (), { m with runtime := m.runtime.setGlobal name value })
  | .call callee args =>
    match invoke callee args m with
    | (.value v, m') => (.ok (.ok v), m')
    | (.error e, m') => (.ok (.error e), m')
    | (.halted why, m') => (.error why, m')
  | .host call =>
    let performed := m.env.host.perform call
    (.ok performed.1, { m with env := { m.env with host := performed.2 } })
  | .requestFrame callback =>
    let requested := m.env.frames.request callback
    (.ok requested.1, { m with env := { m.env with frames := requested.2 } })
  | .frameTimestamp => (.ok m.env.frames.lastTimestamp, m)
  | .note entry => (.ok (), { m with env := { m.env with journal := m.env.journal ++ [entry] } })
  | .journal => (.ok m.env.journal, m)

end Machine

namespace Script

variable {ε α : Type}

/-- Carry out a script, request by request. Calls are handed to `invoke`. -/
def runWith (invoke : Function → List Value → Machine.Run Exception Value) :
    Script ε α → Machine.Run ε α
  | result a, m => (.value a, m)
  | error e, m => (.error e, m)
  | panic, m => (.halted .panic, m)
  | request op next, m =>
    match m.reply invoke op with
    | (.ok answer, m') => (next answer).runWith invoke m'
    | (.error why, m') => (.halted why, m')

/-! ### Runs of combined scripts -/

variable {ε' β : Type} (invoke : Function → List Value → Machine.Run Exception Value)

/-- A sequence runs the second script on the machine that the first one leaves, if that ends in a
value. -/
theorem runWith_bind (s : Script ε α) (f : α → Script ε β) (m : Machine) :
    (s >>= f).runWith invoke m =
      match s.runWith invoke m with
      | (.value a, m') => (f a).runWith invoke m'
      | (.error e, m') => (.error e, m')
      | (.halted why, m') => (.halted why, m') := by
  induction s generalizing m with
  | result | error | panic => rfl
  | request op next ih =>
    simp only [request_bind, runWith]
    split
    · exact ih _ _
    · rfl

/-- Converting the error of a script converts the error of its runs. -/
theorem runWith_mapError (s : Script ε α) (f : ε → ε') (m : Machine) :
    (s.mapError f).runWith invoke m =
      ((s.runWith invoke m).1.mapError f, (s.runWith invoke m).2) := by
  induction s generalizing m with
  | result | error | panic => rfl
  | request op next ih =>
    simp only [mapError, runWith]
    split
    · exact ih _ _
    · rfl

/-- An attempt ends in a value unless the script halts, and does to the machine what the script
does. -/
theorem runWith_attempt (s : Script ε α) (m : Machine) :
    (s.attempt : Script ε' (Except ε α)).runWith invoke m =
      ((match (s.runWith invoke m).1 with
        | .value a => .value (.ok a)
        | .error e => .value (.error e)
        | .halted why => .halted why), (s.runWith invoke m).2) := by
  induction s generalizing m with
  | result | error | panic => rfl
  | request op next ih =>
    simp only [attempt, runWith]
    split
    · exact ih _ _
    · rfl

end Script

namespace Machine

/-- Run the code of a function, on a stack with room for `depth` nested calls. -/
def invoke : (depth : Nat) → Function → List Value → Run Exception Value
  | 0, _, _, m => (.halted .stackOverflow, m)
  | depth + 1, f, args, m => (m.env.functions.code f args).runWith (invoke depth) m

end Machine

/-- Carry out a script on a machine. -/
def Script.run {ε α : Type} (s : Script ε α) : Machine.Run ε α :=
  fun m => s.runWith (Machine.invoke m.env.stackLimit) m

namespace Machine

/-- Call a value. -/
def callFunction (callee : Value) (args : List Value) : Run Exception Value :=
  (Script.callFunction callee args).run

/-- Look up a global and call it. -/
def callGlobal (name : String) (args : List Value) : Run Exception Value :=
  (Script.callGlobal name args).run

/-- Bind a global. -/
def setGlobal (m : Machine) (name : String) (value : Value) : Machine :=
  { m with runtime := m.runtime.setGlobal name value }

/-- Call functions one after the other with the same arguments, until one throws. -/
def callEach (callbacks : List Function) (args : List Value) : Script Exception Unit :=
  match callbacks with
  | [] => .result ()
  | f :: rest => do
    let _ ← Script.call f args
    callEach rest args

/-- Run a frame: every function that is waiting is called with the timestamp, in order, until one
throws; the functions after that one are dropped with the frame. Gives the number of functions that
ran. What is requested while they run waits for the next frame. -/
def flushFrame (timestamp : Binary64) (m : Machine) : Outcome Exception Nat × Machine :=
  let (batch, frames) := m.env.frames.takeBatch timestamp
  let ran := (callEach batch [.number timestamp]).run { m with env := { m.env with frames } }
  (ran.1.map fun _ => batch.length, ran.2)

end Machine

end ScriptBridge
