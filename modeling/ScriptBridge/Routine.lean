import ScriptBridge.Machine

/-!
# Routines

A small language for script functions: a routine is a list of steps that are carried out in order.
Steps note values in the journal, bind and read globals, call functions, and end the routine. What
the last reading step gave can be used by later ones. A routine that runs out of steps gives
`undefined`.
-/

namespace ScriptBridge

/-- A value to be computed when a step is carried out. -/
inductive Term where
  /-- A value that is known beforehand. -/
  | constant (v : Value)
  /-- An argument of the routine, `undefined` if it is missing. -/
  | argument (index : Nat)
  /-- What the last reading step gave. -/
  | last
  | array (items : List Term)
  /-- An object, the properties set in order. -/
  | object (properties : List (String × Term))

namespace Term

mutual

/-- The value of a term. -/
def eval (args : List Value) (last : Value) : Term → Value
  | constant v => v
  | argument index => argumentAt args index
  | .last => last
  | array items => .array (evalItems args last items)
  | object properties => .object (.ofList (evalProperties args last properties))

/-- The values of a list of terms. -/
def evalItems (args : List Value) (last : Value) : List Term → List Value
  | [] => []
  | item :: rest => item.eval args last :: evalItems args last rest

/-- The values of named terms. -/
def evalProperties (args : List Value) (last : Value) : List (String × Term) → List (String × Value)
  | [] => []
  | (key, value) :: rest => (key, value.eval args last) :: evalProperties args last rest

end

end Term

/-- One step of a routine. -/
inductive Step where
  /-- Note all arguments. -/
  | noteArguments
  /-- Note these values. -/
  | note (values : List Term)
  /-- Bind a global. -/
  | set (name : String) (value : Term)
  /-- Read a global; `undefined` if it is missing. -/
  | get (name : String)
  /-- Call a global. -/
  | call (name : String) (args : List Term)
  /-- Call a value. -/
  | apply (callee : Term) (args : List Term)
  /-- Call a global; an exception gives its text instead of ending the routine. -/
  | tryCall (name : String) (args : List Term)
  /-- Whether the marker of the UI runtime reads as `true`. -/
  | isUi
  /-- End the routine with a value. -/
  | finish (value : Term)
  /-- End the routine with an exception. -/
  | throw (e : Exception)
  /-- Panic. -/
  | panic

namespace Step

/-- Carry out the steps of the routine with this name on these arguments. -/
def run (name : String) (args : List Value) : List Step → (last : Value) → Script Exception Value
  | [], _ => .result .undefined
  | noteArguments :: rest, last => do
    Script.note name args
    run name args rest last
  | note values :: rest, last => do
    Script.note name (Term.evalItems args last values)
    run name args rest last
  | set global value :: rest, last => do
    Script.setGlobal global (value.eval args last)
    run name args rest last
  | get global :: rest, _ => do
    let found ← Script.getGlobal global
    run name args rest (found.getD .undefined)
  | call global values :: rest, last => do
    let result ← Script.callGlobal global (Term.evalItems args last values)
    run name args rest result
  | apply callee values :: rest, last => do
    let result ← Script.callFunction (callee.eval args last) (Term.evalItems args last values)
    run name args rest result
  | tryCall global values :: rest, last => do
    match ← (Script.callGlobal global (Term.evalItems args last values)).attempt with
    | .ok result => run name args rest result
    | .error e => run name args rest (.string e.text)
  | isUi :: rest, _ => do
    let answer ← Script.isUiRuntime
    run name args rest (.bool answer)
  | finish value :: _, last => .result (value.eval args last)
  | throw e :: _, _ => .error e
  | panic :: _, _ => .panic

end Step

/-- A function written as a list of steps. -/
structure Routine where
  name : String
  steps : List Step

namespace Routine

/-- The code of a routine. -/
def code (routine : Routine) : Code := fun args =>
  Step.run routine.name args routine.steps .undefined

/-- The functions that are written as these routines, identified by their positions. -/
def table (routines : List Routine) : FunctionTable := { codes := routines.map code }

end Routine

end ScriptBridge
