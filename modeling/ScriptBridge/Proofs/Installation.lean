import ScriptBridge.Proofs.Lifecycle

/-!
# What installing binds

A bridge function that was installed is there for script: the global with its name is a function
with its code, until the name is bound again.

* `FunctionTable.defineAll` — functions that are made one after the other. Each differs from all the
  others, whatever the names.
* `Machine.installAll_eq` — installing makes the functions and binds them, and does nothing else.
* `Machine.Offers` — the machine has the bridge function under its name.
* `Machine.offers_installAll` — of several bridge functions with one name, the last one is offered.
* `Machine.offers_decorate` — a decorated runtime offers everything that it was decorated with, if
  the names are distinct.
* `Machine.Offers.callGlobal` — calling the name runs the code.
-/

namespace ScriptBridge

/-! ## Functions made one after the other -/

namespace FunctionTable

/-- Make functions of these names and codes, one after the other. -/
def defineAll (table : FunctionTable) : List (String × Code) → List Function × FunctionTable
  | [] => ([], table)
  | (name, code) :: rest =>
    let made := table.define name code
    let others := made.2.defineAll rest
    (made.1 :: others.1, others.2)

variable {table : FunctionTable} {recipes : List (String × Code)}

theorem codes_defineAll (table : FunctionTable) (recipes : List (String × Code)) :
    (table.defineAll recipes).2.codes = table.codes ++ recipes.map (·.2) := by
  induction recipes generalizing table with
  | nil => exact (List.append_nil _).symm
  | cons recipe rest ih =>
    obtain ⟨name, code⟩ := recipe
    have hrest := ih (table.define name code).2
    rw [List.map_cons, List.append_cons]
    exact hrest

/-- Identities count on from what was made before. -/
theorem getElem?_defineAll (table : FunctionTable) (recipes : List (String × Code)) (i : Nat) :
    (table.defineAll recipes).1[i]? =
      recipes[i]?.map fun recipe => { name := recipe.1, identity := table.codes.length + i } := by
  induction recipes generalizing table i with
  | nil => rfl
  | cons recipe rest ih =>
    obtain ⟨name, code⟩ := recipe
    cases i with
    | zero => rfl
    | succ i =>
      have hrest := ih (table.define name code).2 i
      have hlength : (table.define name code).2.codes.length = table.codes.length + 1 :=
        List.length_append
      rw [hlength] at hrest
      rw [List.getElem?_cons_succ, ← Nat.add_assoc, Nat.add_right_comm]
      exact hrest

/-- Every function that is made has the name and the code that it was made with. -/
theorem code_defineAll {i : Nat} {f : Function} (h : (table.defineAll recipes).1[i]? = some f) :
    recipes[i]? = some (f.name, (table.defineAll recipes).2.code f) := by
  rw [getElem?_defineAll, Option.map_eq_some_iff] at h
  obtain ⟨recipe, hrecipe, rfl⟩ := h
  have hcode : (table.codes ++ recipes.map (·.2))[table.codes.length + i]? = some recipe.2 := by
    rw [List.getElem?_append_right (Nat.le_add_right _ _), Nat.add_sub_cancel_left,
      List.getElem?_map, hrecipe]
    rfl
  rw [hrecipe, FunctionTable.code, codes_defineAll, List.getD_eq_getElem?_getD, hcode]
  rfl

end FunctionTable

namespace Machine

variable {m : Machine} {f g : BridgeFunction}

/-- The global with the name of the bridge function is a function with its code. -/
def Offers (m : Machine) (f : BridgeFunction) : Prop :=
  ∃ function : Function, m.runtime.getGlobal f.name = some (.function function) ∧
    function.identity < m.env.functions.codes.length ∧ m.env.functions.code function = f.code

/-! ## Installing -/

theorem getGlobal_setGlobal (rt : Runtime) (name name' : String) (value : Value) :
    (rt.setGlobal name value).getGlobal name' =
      if name' = name then some value else rt.getGlobal name' :=
  OrderedMap.get?_insert rt.global name name' value

theorem offers_install (f : BridgeFunction) (m : Machine) : (f.install m).Offers f := by
  refine ⟨(m.env.functions.define f.name f.code).1, ?_, ?_, ?_⟩
  · exact (getGlobal_setGlobal m.runtime f.name f.name _).trans (if_pos rfl)
  · show m.env.functions.codes.length < (m.env.functions.codes ++ [f.code]).length
    rw [List.length_append, List.length_singleton]
    exact Nat.lt_succ_self _
  · exact FunctionTable.code_define m.env.functions f.name f.code

/-- Installing under another name leaves a bridge function in place. -/
theorem Offers.install (h : m.Offers f) (hname : f.name ≠ g.name) : (g.install m).Offers f := by
  obtain ⟨function, hglobal, hlt, hcode⟩ := h
  refine ⟨function, ?_, ?_, ?_⟩
  · exact (getGlobal_setGlobal m.runtime g.name f.name _).trans ((if_neg hname).trans hglobal)
  · show function.identity < (m.env.functions.codes ++ [g.code]).length
    rw [List.length_append]
    exact Nat.lt_add_right _ hlt
  · exact (FunctionTable.code_define_of_lt hlt g.name g.code).trans hcode

theorem Offers.installAll (h : m.Offers f) {functions : List BridgeFunction}
    (hnames : ∀ g ∈ functions, f.name ≠ g.name) : (m.installAll functions).Offers f := by
  induction functions generalizing m with
  | nil => exact h
  | cons g rest ih =>
    exact ih (h.install (hnames g (List.mem_cons_self ..)))
      fun g' hg' => hnames g' (List.mem_cons_of_mem g hg')

/-- The last bridge function with a name is the one that is offered. -/
theorem offers_installAll (m : Machine) (before : List BridgeFunction) (f : BridgeFunction)
    {rest : List BridgeFunction} (hlast : ∀ g ∈ rest, f.name ≠ g.name) :
    (m.installAll (before ++ f :: rest)).Offers f := by
  have hsplit : m.installAll (before ++ f :: rest) =
      (f.install (m.installAll before)).installAll rest :=
    List.foldl_append
  rw [hsplit]
  exact (offers_install f (m.installAll before)).installAll hlast

/-- What installing bridge functions binds, in order. -/
def installed (m : Machine) (functions : List BridgeFunction) : List (String × Value) :=
  (m.env.functions.defineAll (functions.map fun f => (f.name, f.code))).1.map fun f =>
    (f.name, .function f)

/-- Installing makes the functions and binds them to their names, and does nothing else. -/
theorem installAll_eq (functions : List BridgeFunction) (m : Machine) :
    m.installAll functions =
      { runtime := { m.runtime with global := m.runtime.global.insertAll (m.installed functions) }
        env := { m.env with
          functions :=
            (m.env.functions.defineAll (functions.map fun f => (f.name, f.code))).2 } } := by
  induction functions generalizing m with
  | nil => rfl
  | cons f rest ih => exact ih (f.install m)

/-! ## Decorating -/

/-- A decorated runtime offers the last bridge function with a name. -/
theorem offers_decorate_of_last {renderer : Renderer} {common : CommonOperations}
    {functions before rest : List BridgeFunction} (hkind : m.runtime.context.kind = .ui)
    (hnone : m.runtime.context.decoratedBy = none)
    (hfunctions : renderer.functions = some functions)
    (hsplit : functions ++ common.functions = before ++ f :: rest)
    (hlast : ∀ g ∈ rest, f.name ≠ g.name) :
    (m.decorate renderer common).2.Offers f := by
  have hdecorate : (m.decorate renderer common).2 =
      ((m.setGlobal Runtime.uiMarker (.bool true)).installAll
        (functions ++ common.functions)).noteDecoration renderer.name := by
    rw [decorate_of_fresh renderer common hkind hnone, hfunctions]
  rw [hdecorate, hsplit]
  -- What is noted in the context is neither a global nor code.
  exact offers_installAll _ before f hlast

/-- In a list with distinct names, every bridge function is the last one with its name. -/
theorem exists_last_of_nodup {functions : List BridgeFunction}
    (hnames : (functions.map (·.name)).Nodup) (hf : f ∈ functions) :
    ∃ before rest, functions = before ++ f :: rest ∧ ∀ g ∈ rest, f.name ≠ g.name := by
  obtain ⟨before, rest, hsplit⟩ := List.append_of_mem hf
  rw [hsplit, List.map_append, List.map_cons] at hnames
  refine ⟨before, rest, hsplit, fun g hg heq => ?_⟩
  have hhead := (List.nodup_cons.mp (List.nodup_append.mp hnames).2.1).1
  exact hhead (List.mem_map.mpr ⟨g, hg, heq.symm⟩)

/-- A runtime that is decorated with bridge functions of distinct names offers them all. -/
theorem offers_decorate {renderer : Renderer} {common : CommonOperations}
    {functions : List BridgeFunction} (hkind : m.runtime.context.kind = .ui)
    (hnone : m.runtime.context.decoratedBy = none)
    (hfunctions : renderer.functions = some functions)
    (hnames : ((functions ++ common.functions).map (·.name)).Nodup)
    (hf : f ∈ functions ++ common.functions) :
    (m.decorate renderer common).2.Offers f := by
  obtain ⟨before, rest, hsplit, hlast⟩ := exists_last_of_nodup hnames hf
  exact offers_decorate_of_last hkind hnone hfunctions hsplit hlast

/-- Of the surroundings, installing changes the table of functions only. -/
theorem env_installAll (functions : List BridgeFunction) (m : Machine) :
    ∃ table, (m.installAll functions).env = { m.env with functions := table } := by
  induction functions generalizing m with
  | nil => exact ⟨m.env.functions, rfl⟩
  | cons f rest ih => exact ih (f.install m)

theorem env_decorate (m : Machine) (renderer : Renderer) (common : CommonOperations) :
    ∃ table, (m.decorate renderer common).2.env = { m.env with functions := table } := by
  cases hkind : m.runtime.context.kind with
  | main => exact ⟨m.env.functions, by rw [decorate_of_main renderer common hkind]⟩
  | ui =>
    by_cases hnone : m.runtime.context.decoratedBy = none
    · rw [decorate_of_fresh renderer common hkind hnone]
      cases renderer.functions with
      | none => exact ⟨m.env.functions, rfl⟩
      | some functions => exact env_installAll (functions ++ common.functions) _
    · exact ⟨m.env.functions, by rw [decorate_of_decorated renderer common hkind hnone]⟩

end Machine

/-! ## Calling -/

/-- Calling a global is looking it up and invoking what is found, if that is a function. -/
theorem Script.runWith_callGlobal (invoke : Function → List Value → Machine.Run Exception Value)
    (name : String) (args : List Value) (m : Machine) :
    (Script.callGlobal name args).runWith invoke m =
      match m.runtime.getGlobal name with
      | none => (.error (.reference name), m)
      | some (.function f) => invoke f args m
      | some _ => (.error (.type (name ++ " is not a function")), m) := by
  rw [Script.callGlobal, Script.runWith_bind]
  have hfound : (Script.getGlobal name : Script Exception _).runWith invoke m =
      (.value (m.runtime.getGlobal name), m) := rfl
  rw [hfound]
  cases m.runtime.getGlobal name with
  | none => rfl
  | some v =>
    cases v with
    | function f => exact runWith_call invoke f args m
    | _ => rfl

namespace Machine

variable {m : Machine} {f : BridgeFunction}

/-- Calling an offered bridge function by its name runs its code, with room for one call less. -/
theorem Offers.callGlobal (h : m.Offers f) {depth : Nat} (hstack : m.env.stackLimit = depth + 1)
    (args : List Value) :
    m.callGlobal f.name args = (f.code args).runWith (Machine.invoke depth) m := by
  obtain ⟨function, hglobal, _, hcode⟩ := h
  rw [Machine.callGlobal, Script.run, Script.runWith_callGlobal, hglobal, hstack]
  show Machine.invoke (depth + 1) function args m = _
  rw [Machine.invoke, hcode]

end Machine

end ScriptBridge
