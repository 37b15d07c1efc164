import ScriptBridge.Host.Operations
import ScriptBridge.Proofs.Installation
import ScriptBridge.Proofs.OrderedMap

/-!
# What decoration leaves

Decoration binds the marker, then the functions of the renderer, then the common ones. The names
may repeat, and there may be globals with these names already. What counts is where a name stands
in this sequence: its last occurrence gives the value, its first occurrence gives the place.

* `Machine.decorate_eq` — decoration is one insertion of the sequence, and a note in the context.
* `Machine.DecorationEffect` — what is bound to what afterwards, in which order, and that nothing
  was called.
* `Machine.decoration_effect` — every decoration that succeeds has this effect.
* `Machine.marker_survives_iff` — the marker is the first of the sequence, so a function of the
  renderer can take its place.
-/

namespace ScriptBridge

/-! ## The names of the catalogues -/

theorem CommonOperations.map_name_functions (ops : CommonOperations) :
    ops.functions.map (·.name) = ["requestAnimationFrame", "_getAnimationTimestamp",
      "_notifyAboutProgress", "_notifyAboutEnd", "_setGestureState",
      "_maybeFlushUIUpdatesQueue"] :=
  rfl

theorem NodeOperations.map_name_functions (ops : NodeOperations) :
    ops.functions.map (·.name) = ["_updatePropsFabric", "_removeFromPropsRegistry",
      "_dispatchCommandFabric", "_measureFabric", "_obtainProp"] :=
  rfl

theorem TagOperations.map_name_functions (ops : TagOperations) :
    ops.functions.map (·.name) = ["_updatePropsPaper", "_dispatchCommandPaper", "_scrollToPaper",
      "_measurePaper", "_obtainProp"] :=
  rfl

namespace Machine

variable {m : Machine} {renderer : Renderer} {common : CommonOperations}
  {functions : List BridgeFunction}

/-! ## The sequence of bindings -/

theorem map_fst_installed (m : Machine) (functions : List BridgeFunction) :
    (m.installed functions).map (·.1) = functions.map (·.name) := by
  induction functions generalizing m with
  | nil => rfl
  | cons f rest ih => exact congrArg (f.name :: ·) (ih (f.install m))

/-- At the place of a bridge function in the sequence, a function with its name and its code is
bound. -/
theorem exists_getElem?_installed {i : Nat} {f : BridgeFunction} (h : functions[i]? = some f) :
    ∃ function : Function, (m.installed functions)[i]? = some (f.name, .function function) ∧
      function.name = f.name ∧
      (m.env.functions.defineAll (functions.map fun f => (f.name, f.code))).2.code function =
        f.code := by
  let recipes := functions.map fun f => (f.name, f.code)
  let function : Function := { name := f.name, identity := m.env.functions.codes.length + i }
  have hrecipe : recipes[i]? = some (f.name, f.code) := by
    rw [List.getElem?_map, h]
    rfl
  have hmade : (m.env.functions.defineAll recipes).1[i]? = some function := by
    rw [FunctionTable.getElem?_defineAll, hrecipe]
    rfl
  have hcode := FunctionTable.code_defineAll hmade
  rw [hrecipe] at hcode
  refine ⟨function, ?_, rfl, (Prod.mk.inj (Option.some.inj hcode)).2.symm⟩
  rw [installed, List.getElem?_map, hmade]
  rfl

/-- What is bound while bridge functions are installed is a function. -/
theorem exists_function_of_mem_installed {entry : String × Value}
    (h : entry ∈ m.installed functions) : ∃ f, entry.2 = .function f := by
  obtain ⟨f, _, rfl⟩ := List.mem_map.mp h
  exact ⟨f, rfl⟩

/-- What decoration binds, in order: the marker, then the bridge functions. -/
def bindings (m : Machine) (functions : List BridgeFunction) : List (String × Value) :=
  (Runtime.uiMarker, .bool true) :: m.installed functions

/-- **Decoration does this and nothing else.** -/
theorem decorate_eq (common : CommonOperations) (hkind : m.runtime.context.kind = .ui)
    (hnone : m.runtime.context.decoratedBy = none)
    (hfunctions : renderer.functions = some functions) :
    m.decorate renderer common =
      (.value (),
        { runtime :=
            { context := { m.runtime.context with decoratedBy := some renderer.name }
              global := m.runtime.global.insertAll
                (m.bindings (functions ++ common.functions)) }
          env := { m.env with
            functions := (m.env.functions.defineAll
              ((functions ++ common.functions).map fun f => (f.name, f.code))).2 } }) := by
  rw [decorate_of_fresh renderer common hkind hnone, hfunctions]
  show (Outcome.value (), ((m.setGlobal Runtime.uiMarker (.bool true)).installAll
    (functions ++ common.functions)).noteDecoration renderer.name) = _
  rw [installAll_eq]
  rfl

/-- A lookup after decoration finds what was bound last, or what was there. -/
theorem getGlobal_decorate (common : CommonOperations) (hkind : m.runtime.context.kind = .ui)
    (hnone : m.runtime.context.decoratedBy = none)
    (hfunctions : renderer.functions = some functions) (name : String) :
    (m.decorate renderer common).2.runtime.getGlobal name =
      ((⟨m.bindings (functions ++ common.functions)⟩ : Object).latest? name).or
        (m.runtime.getGlobal name) := by
  rw [decorate_eq common hkind hnone hfunctions]
  exact OrderedMap.get?_insertAll m.runtime.global _ name

/-! ## What decoration leaves -/

/-- What becomes of a machine that is decorated for a renderer with this name, when these bridge
functions are installed and this is bound, in this order. -/
structure DecorationEffect (m : Machine) (renderer : String) (functions : List BridgeFunction)
    (bound : List (String × Value)) (after : Machine) : Prop where
  names : bound.map (·.1) = "_UI" :: functions.map (·.name)
  marker : bound[0]? = some ("_UI", .bool true)
  /-- A bridge function is bound as a function with its name and its code. -/
  codes : ∀ (i : Nat) f, functions[i]? = some f →
    ∃ function : Function, bound[i + 1]? = some (f.name, .function function) ∧
      function.name = f.name ∧ after.env.functions.code function = f.code
  /-- The last occurrence of a name decides. -/
  last : ∀ before name v rest, bound = before ++ (name, v) :: rest → name ∉ rest.map (·.1) →
    after.runtime.getGlobal name = some v
  /-- What is not bound keeps its value. -/
  others : ∀ name, name ∉ bound.map (·.1) →
    after.runtime.getGlobal name = m.runtime.getGlobal name
  /-- Globals keep their places. New names follow in the order of their first occurrences. -/
  order : after.runtime.global.keys = m.runtime.global.keys ++
    ((bound.map (·.1)).filter (· ∉ m.runtime.global.keys)).eraseDups
  context : after.runtime.context = { m.runtime.context with decoratedBy := some renderer }
  /-- Nothing was called: of the surroundings, only the table of functions grew. -/
  surroundings : ∃ codes,
    after.env = { m.env with functions := { codes := m.env.functions.codes ++ codes } }

theorem decorationEffect (common : CommonOperations) (hkind : m.runtime.context.kind = .ui)
    (hnone : m.runtime.context.decoratedBy = none)
    (hfunctions : renderer.functions = some functions) :
    m.DecorationEffect renderer.name (functions ++ common.functions)
      (m.bindings (functions ++ common.functions)) (m.decorate renderer common).2 := by
  have hdecorate := decorate_eq common hkind hnone hfunctions
  have hget := getGlobal_decorate common hkind hnone hfunctions
  generalize functions ++ common.functions = installed at hdecorate hget
  constructor
  case names => exact congrArg ("_UI" :: ·) (map_fst_installed m installed)
  case marker => rfl
  case codes =>
    intro i f hf
    rw [hdecorate]
    exact exists_getElem?_installed hf
  case last =>
    intro before name v rest hsplit hlast
    have hlatest : (⟨m.bindings installed⟩ : Object).latest? name = some v :=
      OrderedMap.latest?_eq_some_iff.mpr ⟨before, rest, hsplit, hlast⟩
    rw [hget, hlatest]
    rfl
  case others =>
    intro name hname
    have hlatest : (⟨m.bindings installed⟩ : Object).latest? name = none :=
      OrderedMap.latest?_eq_none_iff.mpr hname
    rw [hget, hlatest]
    rfl
  case order =>
    rw [hdecorate]
    exact OrderedMap.keys_insertAll m.runtime.global (m.bindings installed)
  case context => rw [hdecorate]
  case surroundings =>
    let recipes := installed.map fun f => (f.name, f.code)
    refine ⟨recipes.map (·.2), ?_⟩
    rw [hdecorate, ← FunctionTable.codes_defineAll]

/-- The common functions win over functions of the renderer with the same names. -/
theorem offers_common (hkind : m.runtime.context.kind = .ui)
    (hnone : m.runtime.context.decoratedBy = none)
    (hfunctions : renderer.functions = some functions) {f : BridgeFunction}
    (hf : f ∈ common.functions) : (m.decorate renderer common).2.Offers f := by
  have hnames : (common.functions.map (·.name)).Nodup := by
    rw [CommonOperations.map_name_functions]
    decide
  obtain ⟨before, rest, hsplit, hlast⟩ := exists_last_of_nodup hnames hf
  have hall : functions ++ common.functions = (functions ++ before) ++ f :: rest := by
    rw [hsplit, List.append_assoc]
  exact offers_decorate_of_last hkind hnone hfunctions hall hlast

/-- A name that is neither the marker nor among those of the bridge functions is left alone. -/
theorem DecorationEffect.getGlobal_of_other {after : Machine} {bound : List (String × Value)}
    {name own : String} (h : m.DecorationEffect own (functions ++ common.functions) bound after)
    (hown : name ∉ functions.map (·.name))
    (hcommon : name ∉ "_UI" :: common.functions.map (·.name)) :
    after.runtime.getGlobal name = m.runtime.getGlobal name := by
  apply h.others
  rw [h.names, List.map_append]
  simp only [List.mem_cons, List.mem_append, not_or] at hcommon ⊢
  exact ⟨hcommon.1, hown, hcommon.2⟩

theorem not_mem_common_of_node (nodes : NodeOperations) (common : CommonOperations) :
    ∀ name ∈ nodes.functions.map (·.name), name ∉ "_UI" :: common.functions.map (·.name) := by
  rw [NodeOperations.map_name_functions, CommonOperations.map_name_functions]
  decide

theorem not_mem_common_of_tag (tags : TagOperations) (common : CommonOperations) :
    ∀ name ∈ tags.functions.map (·.name), name ∉ "_UI" :: common.functions.map (·.name) := by
  rw [TagOperations.map_name_functions, CommonOperations.map_name_functions]
  decide

/--
**What decoration does.** A UI runtime that is not decorated becomes decorated, whatever is bound
in it and whatever the functions of the renderer are called.
* Every name that is bound by decoration is bound to its last occurrence; all other globals keep
  their values. So the common functions win.
* The globals that were there keep their places, and new names follow in the order of their first
  occurrences.
* Identity and kind stay, the renderer is noted, and nothing is called.
* What only the other one of the two catalogues provides is bound to what it was before.
-/
theorem decoration_effect (common : CommonOperations) (hkind : m.runtime.context.kind = .ui)
    (hnone : m.runtime.context.decoratedBy = none)
    (hfunctions : renderer.functions = some functions) :
    ∃ bound after, m.decorate renderer common = (.value (), after) ∧
      m.DecorationEffect renderer.name (functions ++ common.functions) bound after ∧
      (∀ f ∈ common.functions, after.Offers f) ∧
      ∀ (nodes : NodeOperations) (tags : TagOperations) (name : String),
        (renderer = nodes.renderer → name ∈ tags.functions.map (·.name) →
          name ∉ nodes.functions.map (·.name) →
            after.runtime.getGlobal name = m.runtime.getGlobal name) ∧
        (renderer = tags.renderer → name ∈ nodes.functions.map (·.name) →
          name ∉ tags.functions.map (·.name) →
            after.runtime.getGlobal name = m.runtime.getGlobal name) := by
  have heffect := decorationEffect (m := m) common hkind hnone hfunctions
  have hok : m.decorate renderer common = (.value (), (m.decorate renderer common).2) := by
    rw [decorate_eq common hkind hnone hfunctions]
  refine ⟨_, _, hok, heffect, fun f => offers_common hkind hnone hfunctions, ?catalogues⟩
  case catalogues =>
    refine fun nodes tags name => ⟨?_, ?_⟩
    · rintro rfl hother hown
      obtain rfl := Option.some.inj hfunctions
      exact heffect.getGlobal_of_other hown (not_mem_common_of_tag tags common name hother)
    · rintro rfl hother hown
      obtain rfl := Option.some.inj hfunctions
      exact heffect.getGlobal_of_other hown (not_mem_common_of_node nodes common name hother)

/-- The renderer has one name twice, and one that the runtime and the common functions have, too. -/
theorem clashing_names_keep_places :
    let m : Machine :=
      { runtime :=
          { context := { id := ⟨7⟩, kind := .ui }
            global := .ofList [("_setGestureState", .string "mine"), ("_UI", .bool false)] }
        env := { host := .new default } }
    let renderer : Renderer := .forwarding "custom" .viewTag
      [("animate", ⟨"first", 0⟩), ("_setGestureState", ⟨"other", 1⟩), ("animate", ⟨"second", 2⟩)]
    ∃ after, m.decorate renderer RecordingHost.commonOperations = (.value (), after) ∧
      after.runtime.global.keys = ["_setGestureState", "_UI", "animate", "requestAnimationFrame",
        "_getAnimationTimestamp", "_notifyAboutProgress", "_notifyAboutEnd",
        "_maybeFlushUIUpdatesQueue"] ∧
      after.Offers (.binary "_setGestureState" RecordingHost.commonOperations.setGestureState) := by
  intro m renderer
  obtain ⟨bound, after, hok, heffect, hcommon, -⟩ :=
    decoration_effect (m := m) RecordingHost.commonOperations rfl rfl
      (show renderer.functions = some _ from rfl)
  refine ⟨after, hok, ?_, ?_⟩
  · rw [heffect.order, heffect.names]
    decide
  · exact hcommon _ (by simp [CommonOperations.functions])

/-! ## The marker -/

theorem isUiRuntime_eq_true_iff {rt : Runtime} {v : Value} (h : rt.getGlobal "_UI" = some v) :
    rt.isUiRuntime = true ↔ v = .bool true := by
  have hget : rt.global.get? Runtime.uiMarker = some v := h
  rw [Runtime.isUiRuntime, Runtime.marks, hget]
  cases v <;> simp

/-- **The marker survives** decoration unless the renderer brings a function of that name, which
then takes its place. -/
theorem marker_survives_iff (common : CommonOperations) (hkind : m.runtime.context.kind = .ui)
    (hnone : m.runtime.context.decoratedBy = none)
    (hfunctions : renderer.functions = some functions) :
    (m.decorate renderer common).1 = .value () ∧
      ((m.decorate renderer common).2.runtime.isUiRuntime = true ↔
        "_UI" ∉ functions.map (·.name)) := by
  refine ⟨by rw [decorate_eq common hkind hnone hfunctions], ?_⟩
  let bound : Object := ⟨m.installed (functions ++ common.functions)⟩
  have hget : (m.decorate renderer common).2.runtime.getGlobal "_UI" =
      (bound.latest? "_UI").or (some (.bool true)) := by
    rw [getGlobal_decorate common hkind hnone hfunctions, bindings, OrderedMap.latest?_cons,
      Option.or_assoc]
    rfl
  have hnames : bound.keys = functions.map (·.name) ++ common.functions.map (·.name) := by
    rw [← List.map_append]
    exact map_fst_installed m _
  have hcommon : "_UI" ∉ common.functions.map (·.name) := by
    rw [CommonOperations.map_name_functions]
    decide
  cases hlatest : bound.latest? "_UI" with
  | none =>
    rw [hlatest] at hget
    rw [OrderedMap.latest?_eq_none_iff, hnames, List.mem_append, not_or] at hlatest
    exact iff_of_true ((isUiRuntime_eq_true_iff hget).mpr rfl) hlatest.1
  | some v =>
    rw [hlatest] at hget
    have hmem : ("_UI", v) ∈ bound.entries := OrderedMap.mem_entries_of_latest? hlatest
    obtain ⟨f, rfl⟩ := exists_function_of_mem_installed hmem
    have hkey : "_UI" ∈ bound.keys := List.mem_map_of_mem hmem
    rw [hnames, List.mem_append, or_iff_left hcommon] at hkey
    refine iff_of_false ?_ (not_not_intro hkey)
    rw [isUiRuntime_eq_true_iff hget]
    exact Value.noConfusion

/-- The functions for views that are addressed by node handles leave the marker alone. -/
theorem marker_survives_nodes :
    let m : Machine := { runtime := .new ⟨1⟩ .ui, env := { host := .new default } }
    let after := (m.decorate RecordingHost.nodeOperations.renderer
      RecordingHost.commonOperations).2
    after.runtime.isUiRuntime = true := by
  intro m after
  refine (marker_survives_iff (m := m) RecordingHost.commonOperations rfl rfl rfl).2.mpr ?_
  rw [NodeOperations.map_name_functions]
  decide

/-- A renderer with a function that is called like the marker. Decoration succeeds, and the runtime
does not read as the UI runtime any more. -/
theorem marker_is_rebound :
    let m : Machine := { runtime := .new ⟨1⟩ .ui, env := { host := .new default } }
    let ended := m.decorate (.forwarding "custom" .viewTag [("_UI", ⟨"f", 0⟩)])
      RecordingHost.commonOperations
    ended.1 = .value () ∧ ended.2.runtime.isUiRuntime = false :=
  ⟨rfl, rfl⟩

end Machine

end ScriptBridge
