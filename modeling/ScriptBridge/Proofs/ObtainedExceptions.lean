import Mathlib.Data.List.Nodup
import ScriptBridge.Host.Substitution
import ScriptBridge.Proofs.Decoration

/-!
# Exceptions of script code that a native operation calls

The operation behind `_obtainProp` may call back into script code and let its exceptions out. Such
an exception is a failure of the operation by then, and script sees every failure of an operation as
a native exception. So what the calling script sees is not what was raised: the kind is gone, and
the text says once more that there was an error, for every operation on the way.

* `Exception.through` — what an exception becomes on its way out of native operations.
* `Raises` — script code raises an exception inside of nested calls, of which so many are calls of
  `_obtainProp`.
* `Raises.runWith_eq` — what comes out of these calls.
* `Raises.of_offers` — calling `_obtainProp` by its name nests once more.
* `obtained_exception_law` — what comes out is what was raised exactly if no call of `_obtainProp` is
  on the way.
-/

namespace ScriptBridge

/-! ## What exceptions become -/

namespace Exception

/-- What becomes of an exception on its way out of this many native operations. -/
def through (e : Exception) : Nat → Exception
  | 0 => e
  | levels + 1 => .native (e.through levels).text

theorem text_native (message : String) : (native message).text = "Error: " ++ message := rfl

/-- All that is left is the text of the exception, with the words that it is an error in front of it
once for every operation but the first. -/
theorem through_succ (e : Exception) (levels : Nat) :
    e.through (levels + 1) = .native (String.join (List.replicate levels "Error: ") ++ e.text) := by
  induction levels with
  | zero => rw [List.replicate_zero, String.join_nil, String.empty_append, through, through]
  | succ levels ih =>
    rw [through, ih, text_native, List.replicate_succ, String.join_cons, String.append_assoc]

/-- The text grows with every operation. -/
theorem length_text_through (e : Exception) (levels : Nat) :
    (e.through levels).text.length = 7 * levels + e.text.length := by
  induction levels with
  | zero => rw [through, Nat.mul_zero, Nat.zero_add]
  | succ levels ih =>
    have hword : "Error: ".length = 7 := rfl
    rw [through, text_native, String.length_append, ih, hword]
    omega

/-- **No exception leaves a native operation as it was raised.** -/
theorem through_eq_self_iff (e : Exception) (levels : Nat) :
    e.through levels = e ↔ levels = 0 := by
  constructor
  · intro h
    have hlength := e.length_text_through levels
    rw [h] at hlength
    omega
  · rintro rfl
    rfl

end Exception

/-! ## Calls on the way -/

/-- Started on the one machine, the script comes to the other one, and the rest is left to do. -/
def Script.ComesTo {ε α : Type} (invoke : Function → List Value → Machine.Run Exception Value)
    (script : Script ε α) (m : Machine) (rest : Script ε α) (m' : Machine) : Prop :=
  script.runWith invoke m = rest.runWith invoke m'

/-- Called with these arguments, the bridge function `_obtainProp` of a renderer runs the native
operation. -/
inductive BridgeFunction.Obtains : BridgeFunction → List Value → Native Value → Prop
  | node {ops : NodeOperations} {f : BridgeFunction} {args : List Value} {node : NodeHandle}
      {name : String} : f ∈ ops.functions → f.name = "_obtainProp" →
      FromScript.decode (args.getD 0 .undefined) = .ok node →
      FromScript.decode (args.getD 1 .undefined) = .ok name →
      Obtains f args (ops.obtainProp node name)
  | tag {ops : TagOperations} {f : BridgeFunction} {args : List Value} {tag : ViewTag}
      {name : String} : f ∈ ops.functions → f.name = "_obtainProp" →
      FromScript.decode (args.getD 0 .undefined) = .ok tag →
      FromScript.decode (args.getD 1 .undefined) = .ok name →
      Obtains f args (ops.obtainProp tag name)

/-- Script code that runs with room for `depth` nested calls, and the exception that is raised inside
of it. `levels` counts the calls of `_obtainProp` that are on the way out. -/
inductive Raises : (levels depth : Nat) → Script Exception Value → Machine → Exception →
    Machine → Prop
  /-- The code raises the exception itself. -/
  | raised {depth : Nat} {script : Script Exception Value} {m m' : Machine} {e : Exception} :
      script.runWith (Machine.invoke depth) m = (.error e, m') → Raises 0 depth script m e m'
  /-- The code comes to call a function, and the exception is raised inside of that. -/
  | called {levels depth : Nat} {script : Script Exception Value} {m m₁ m' : Machine}
      {e : Exception} {f : Function} {args : List Value} {after : Value → Script Exception Value} :
      script.ComesTo (Machine.invoke (depth + 1)) m (Script.call f args >>= after) m₁ →
      Raises levels depth (m₁.env.functions.code f args) m₁ e m' →
      Raises levels (depth + 1) script m e m'
  /-- The code comes to call `_obtainProp`, the native operation comes to run other script code and
  lets its exceptions out, and the exception is raised inside of that. -/
  | obtained {levels depth : Nat} {script inner : Script Exception Value} {m m₁ m₂ m' : Machine}
      {e : Exception} {f : Function} {args : List Value} {after : Value → Script Exception Value}
      {g : BridgeFunction} {native : Native Value} {rest : Value → Native Value} :
      script.ComesTo (Machine.invoke (depth + 1)) m (Script.call f args >>= after) m₁ →
      m₁.env.functions.code f = g.code → g.Obtains args native →
      native.ComesTo (Machine.invoke depth) m₁ (Native.ofScript inner >>= rest) m₂ →
      Raises levels depth inner m₂ e m' → Raises (levels + 1) (depth + 1) script m e m'

/-! ## What comes out -/

variable {levels depth : Nat} {script : Script Exception Value} {m m' : Machine} {e : Exception}
  {f : BridgeFunction} {args : List Value} {native : Native Value}

theorem BridgeFunction.code_binary {α β ρ : Type} [FromScript α] [FromScript β] [ToScript ρ]
    {name : String} {native : α → β → Native ρ} {a : α} {b : β}
    (ha : FromScript.decode (args.getD 0 .undefined) = .ok a)
    (hb : FromScript.decode (args.getD 1 .undefined) = .ok b) :
    (binary name native).code args = answer (native a b) := by
  have htake : take α args 0 = .result a := by rw [take, argument_of_decode ha]; rfl
  have htake' : take β args 1 = .result b := by rw [take, argument_of_decode hb]; rfl
  show (take α args 0 >>= fun a => take β args 1 >>= fun b => answer (native a b)) = _
  rw [htake, Script.result_bind, htake', Script.result_bind]

theorem BridgeFunction.Obtains.code_eq (h : f.Obtains args native) :
    f.code args = BridgeFunction.answer native := by
  cases h with
  | @node ops _ _ node name hmem hname hnode hprop =>
    have hnames : (ops.functions.map (·.name)).Nodup := by
      rw [NodeOperations.map_name_functions]
      decide
    have hf : f = .binary "_obtainProp" ops.obtainProp :=
      List.inj_on_of_nodup_map hnames hmem (by simp [NodeOperations.functions]) hname
    rw [hf, code_binary hnode hprop]
  | @tag ops _ _ tag name hmem hname htag hprop =>
    have hnames : (ops.functions.map (·.name)).Nodup := by
      rw [TagOperations.map_name_functions]
      decide
    have hf : f = .binary "_obtainProp" ops.obtainProp :=
      List.inj_on_of_nodup_map hnames hmem (by simp [TagOperations.functions]) hname
    rw [hf, code_binary htag hprop]

/-- **What comes out of nested calls.** -/
theorem Raises.runWith_eq (h : Raises levels depth script m e m') :
    script.runWith (Machine.invoke depth) m = (.error (e.through levels), m') := by
  induction h with
  | raised hrun => exact hrun
  | called hcomes _ ih =>
    rw [Script.ComesTo] at hcomes
    rw [hcomes, Script.runWith_bind, Script.runWith_call, Machine.invoke, ih]
  | obtained hcomes hcode hobtains hnative _ ih =>
    rw [Script.ComesTo] at hcomes hnative
    rw [hcomes, Script.runWith_bind, Script.runWith_call, Machine.invoke, hcode, hobtains.code_eq,
      BridgeFunction.answer, Native.toScript, Script.runWith_bind, Script.runWith_mapError, hnative,
      Script.runWith_bind, Native.ofScript, Script.runWith_mapError, ih]
    rfl

/-! ## Calls by name -/

/-- A global that is a function is called with the arguments, and nothing is left to do. -/
theorem Script.comesTo_callGlobal {invoke : Function → List Value → Machine.Run Exception Value}
    {name : String} {function : Function}
    (h : m.runtime.getGlobal name = some (.function function)) (args : List Value) :
    (Script.callGlobal name args).ComesTo invoke m (Script.call function args >>= .result) m := by
  rw [ComesTo, bind_result, runWith_callGlobal, h, runWith_call]

/-- **Calling `_obtainProp` by its name** nests once more, where it is offered. -/
theorem Raises.of_offers {inner : Script Exception Value} {m₂ : Machine}
    {rest : Value → Native Value} (hoffers : m.Offers f) (hobtains : f.Obtains args native)
    (hnative : native.ComesTo (Machine.invoke depth) m (Native.ofScript inner >>= rest) m₂)
    (h : Raises levels depth inner m₂ e m') :
    Raises (levels + 1) (depth + 1) (Script.callGlobal f.name args) m e m' := by
  obtain ⟨function, hglobal, _, hcode⟩ := hoffers
  exact .obtained (Script.comesTo_callGlobal hglobal args) hcode hobtains hnative h

/-! ## The law -/

/--
**The law of obtained exceptions.** Let script code raise an exception inside of nested calls, all
of which let it out. Then the outermost code ends in an exception.
* That is the exception that was raised exactly if none of the calls was of `_obtainProp`.
* If some were, it is a native exception with the text of the raised one, and with the words that it
  is an error in front of that for every such call but the innermost.
-/
theorem obtained_exception_law (h : Raises levels depth script m e m') :
    script.runWith (Machine.invoke depth) m = (.error (e.through levels), m') ∧
      (e.through levels = e ↔ levels = 0) ∧
      ∀ n, levels = n + 1 →
        e.through levels = .native (String.join (List.replicate n "Error: ") ++ e.text) := by
  refine ⟨h.runWith_eq, e.through_eq_self_iff levels, ?_⟩
  rintro n rfl
  exact e.through_succ n

/-- Script code that calls script code, each through `_obtainProp`. -/
theorem twice_obtained_exception :
    let ops := ({ obtainsByCall := true } : Substitution).node
    let m : Machine :=
      { runtime := { Runtime.new ⟨1⟩ .ui with
          global := .ofList [("_obtainProp", .function ⟨"_obtainProp", 0⟩),
            ("outer", .function ⟨"outer", 1⟩), ("inner", .function ⟨"inner", 2⟩)] }
        env :=
          { host := .new default
            functions := ⟨[(BridgeFunction.binary "_obtainProp" ops.obtainProp).code,
              fun _ => Script.callGlobal "_obtainProp" [.node ⟨1⟩, .string "inner"],
              fun _ => .error (.reference "x")]⟩ } }
    let script := Script.callGlobal "_obtainProp" [.node ⟨1⟩, .string "outer"]
    Raises 2 4 script m (.reference "x") m ∧
      script.runWith (Machine.invoke 4) m =
        (.error (.native "Error: ReferenceError: x is not defined"), m) := by
  intro ops m script
  have hoffers : m.Offers (.binary "_obtainProp" ops.obtainProp) :=
    ⟨⟨"_obtainProp", 0⟩, rfl, by decide, rfl⟩
  have hmem : BridgeFunction.binary "_obtainProp" ops.obtainProp ∈ ops.functions := by
    simp [NodeOperations.functions]
  have hobtains : ∀ name : String, (BridgeFunction.binary "_obtainProp" ops.obtainProp).Obtains
      [.node ⟨1⟩, .string name] (Native.ofScript (Script.callGlobal name [])) :=
    fun name => .node hmem rfl rfl rfl
  have hlet : ∀ (depth : Nat) (name : String),
      (Native.ofScript (Script.callGlobal name [])).ComesTo (Machine.invoke depth) m
        (Native.ofScript (Script.callGlobal name []) >>= .result) m := by
    intro depth name
    rw [Script.ComesTo, Script.bind_result]
  have hinner : Raises 0 1 (Script.callGlobal "inner" []) m (.reference "x") m := .raised rfl
  have hglobal : m.runtime.getGlobal "outer" = some (.function ⟨"outer", 1⟩) := rfl
  have houter : Raises 1 3 (Script.callGlobal "outer" []) m (.reference "x") m :=
    .called (Script.comesTo_callGlobal hglobal [])
      (.of_offers hoffers (hobtains "inner") (hlet 1 "inner") hinner)
  have hraises : Raises 2 4 script m (.reference "x") m :=
    .of_offers hoffers (hobtains "outer") (hlet 3 "outer") houter
  exact ⟨hraises, (obtained_exception_law hraises).1⟩

/-- A script that asks for a property which is not there, directly and through `_obtainProp`. -/
theorem obtained_exception_is_converted :
    let ops := ({ obtainsByCall := true } : Substitution).node
    let m : Machine :=
      { runtime := { Runtime.new ⟨1⟩ .ui with global := .ofList [("p", .function ⟨"f", 0⟩)] }
        env := { host := .new default, functions := ⟨[fun _ => .error (.reference "x")]⟩ } }
    m.callGlobal "p" [] = (.error (.reference "x"), m) ∧
      (BridgeFunction.binary "_obtainProp" ops.obtainProp).invoke [.node ⟨1⟩, .string "p"] m =
        (.error (.native "ReferenceError: x is not defined"), m) :=
  ⟨rfl, rfl⟩

end ScriptBridge
