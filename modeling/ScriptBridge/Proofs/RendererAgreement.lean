import ScriptBridge.Proofs.HostFunctions
import ScriptBridge.Proofs.HostStore

/-!
# The two renderers agree

Script may address views by node handles or by tags. If every tag has a node of its own, it sees
the same either way: what is done to the views through one renderer is answered as it is through the
other.

* `ViewAction` — what is done to views, through nodes or through tags.
* `Agrees` — how it has to end on both sides.
* `Twins` — two operations that are the same but for the address.
* `Mirrors` — the simulation: one host has for the nodes what the other has for the tags. Twin
  operations keep it and answer alike (`Mirrors.perform`).
* `renderers_agree` — whatever is done, step by step, through two decorated runtimes.
-/

namespace ScriptBridge

/-! ## Actions on views -/

/-- What script, or the host, does with a view that has a tag. -/
inductive ViewAction where
  /-- Set properties of the view, which is of the class with this name. -/
  | updateProps (tag : ViewTag) (viewName : String) (props : Object)
  /-- Send a command to the view. -/
  | dispatchCommand (tag : ViewTag) (command : String) (args : Value)
  /-- Measure the view. -/
  | measure (tag : ViewTag)
  /-- Read a property of the view. -/
  | obtainProp (tag : ViewTag) (name : String)
  /-- The host detaches the view. -/
  | detach (tag : ViewTag)

namespace ViewAction

/-- The view that has to be attached for the action. -/
def target? : ViewAction → Option ViewTag
  | updateProps tag _ _ => some tag
  | dispatchCommand tag _ _ => some tag
  | measure tag => some tag
  | obtainProp tag _ => some tag
  | detach _ => none

/-- The action through the bridge functions that address nodes. The view of a tag is the node that
`f` gives to it. -/
def onNodes (f : ViewTag → NodeHandle) : ViewAction → Machine.Run Exception Value
  | updateProps tag _ props =>
    Machine.callGlobal "_updatePropsFabric" [.node (f tag), .object props]
  | dispatchCommand tag command args =>
    Machine.callGlobal "_dispatchCommandFabric" [.node (f tag), .string command, args]
  | measure tag => Machine.callGlobal "_measureFabric" [.node (f tag)]
  | obtainProp tag name => Machine.callGlobal "_obtainProp" [.node (f tag), .string name]
  | detach tag => fun m => (.value .undefined, ((HostAction.detach (.node (f tag))).run m).2)

/-- The action through the bridge functions that address tags. -/
def onTags : ViewAction → Machine.Run Exception Value
  | updateProps tag viewName props =>
    Machine.callGlobal "_updatePropsPaper" [.ofInt32 tag, .string viewName, .object props]
  | dispatchCommand tag command args =>
    Machine.callGlobal "_dispatchCommandPaper" [.ofInt32 tag, .string command, args]
  | measure tag => Machine.callGlobal "_measurePaper" [.ofInt32 tag]
  | obtainProp tag name => Machine.callGlobal "_obtainProp" [.ofInt32 tag, .string name]
  | detach tag => fun m => (.value .undefined, ((HostAction.detach (.tag tag)).run m).2)

/-- How actions end, one after the other. -/
def outcomes (serve : ViewAction → Machine.Run Exception Value) :
    List ViewAction → Machine → List (Outcome Exception Value)
  | [], _ => []
  | action :: rest, m => (serve action m).1 :: outcomes serve rest (serve action m).2

end ViewAction

/-- The object as which every view of a host measures. -/
def Geometry.measured (g : Geometry) : Object :=
  ⟨[("x", .number g.x), ("y", .number g.y), ("width", .number g.width),
    ("height", .number g.height), ("pageX", .number g.x), ("pageY", .number g.y)]⟩

/-- How an action through nodes and the same action through tags have to end: in the same value, or
in errors that differ in the name of the view. -/
inductive Agrees (f : ViewTag → NodeHandle) (measurement : Geometry) :
    ViewAction → Outcome Exception Value → Outcome Exception Value → Prop
  | updated (tag : ViewTag) (viewName : String) (props : Object) :
      Agrees f measurement (.updateProps tag viewName props) (.value .undefined)
        (.value .undefined)
  | dispatched (tag : ViewTag) (command : String) (args : Value) :
      Agrees f measurement (.dispatchCommand tag command args) (.value .undefined)
        (.value .undefined)
  | measured (tag : ViewTag) :
      Agrees f measurement (.measure tag) (.value (.object measurement.measured))
        (.value (.object measurement.measured))
  | obtained (tag : ViewTag) (name : String) (v : Value) :
      Agrees f measurement (.obtainProp tag name) (.value v) (.value v)
  | detached (tag : ViewTag) :
      Agrees f measurement (.detach tag) (.value .undefined) (.value .undefined)
  | failed {action : ViewAction} {tag : ViewTag} (htarget : action.target? = some tag) :
      Agrees f measurement action
        (.error (.native ("node " ++ toString (f tag).raw.toNat ++ " is detached")))
        (.error (.native ("view " ++ toString tag.toInt ++ " is detached")))

/-! ## Two hosts with the same views -/

/-- The operations that an action comes to, on the node and on the tag of the view. -/
inductive Twins (f : ViewTag → NodeHandle) : ViewAction → HostCall → HostCall → Prop
  | updateProps (tag : ViewTag) (viewName : String) (props : Object) :
      Twins f (.updateProps tag viewName props) (.updateNodeProps (f tag) props)
        (.updateViewProps tag viewName props)
  | dispatchCommand (tag : ViewTag) (command : String) (args : Value) :
      Twins f (.dispatchCommand tag command args) (.dispatchToNode (f tag) command args)
        (.dispatchToView tag command args)
  | measure (tag : ViewTag) : Twins f (.measure tag) (.measureNode (f tag)) (.measureView tag)
  | obtainProp (tag : ViewTag) (name : String) :
      Twins f (.obtainProp tag name) (.obtainNodeProp (f tag) name) (.obtainViewProp tag name)

/-- One host has for the node of every tag what the other has for the tag. -/
structure Mirrors (f : ViewTag → NodeHandle) (measurement : Geometry)
    (nodes tags : RecordingHost) : Prop where
  nodes_measurement : nodes.measurement = measurement
  tags_measurement : tags.measurement = measurement
  propsOf_eq : ∀ tag, nodes.propsOf (.node (f tag)) = tags.propsOf (.tag tag)
  detached_iff : ∀ tag, .node (f tag) ∈ nodes.detached ↔ .tag tag ∈ tags.detached

variable {f : ViewTag → NodeHandle} {measurement : Geometry}

namespace Twins

variable {action : ViewAction} {onNode onTag : HostCall}

theorem exists_addresses (h : Twins f action onNode onTag) :
    ∃ tag, action.target? = some tag ∧ onNode.Addresses (.node (f tag)) ∧
      onTag.Addresses (.tag tag) := by
  cases h with
  | updateProps tag viewName props =>
    exact ⟨tag, rfl, .updateNodeProps (f tag) props, .updateViewProps tag viewName props⟩
  | dispatchCommand tag command args =>
    exact ⟨tag, rfl, .dispatchToNode (f tag) command args, .dispatchToView tag command args⟩
  | measure tag => exact ⟨tag, rfl, .measureNode (f tag), .measureView tag⟩
  | obtainProp tag name =>
    exact ⟨tag, rfl, .obtainNodeProp (f tag) name, .obtainViewProp tag name⟩

end Twins

namespace RecordingHost

theorem object_measuredNumbers (host : RecordingHost) :
    measurementObject host.measuredNumbers = host.measurement.measured :=
  OrderedMap.ofList_of_nodup (by simp [measuredNumbers])

end RecordingHost

namespace Mirrors

variable {nodes tags : RecordingHost} {action : ViewAction} {onNode onTag : HostCall}

theorem new (f : ViewTag → NodeHandle) (measurement : Geometry) :
    Mirrors f measurement (.new measurement) (.new measurement) :=
  ⟨rfl, rfl, fun _ => rfl, fun _ => ⟨nofun, nofun⟩⟩

/-- Recording an operation changes nothing that two hosts could differ in. -/
theorem recorded (h : Mirrors f measurement nodes tags) (onNode onTag : HostCall) :
    Mirrors f measurement (nodes.recorded onNode) (tags.recorded onTag) :=
  ⟨h.nodes_measurement, h.tags_measurement, h.propsOf_eq, h.detached_iff⟩

theorem mergeProps (h : Mirrors f measurement nodes tags) (hf : Function.Injective f)
    (tag : ViewTag) (props : Object) :
    Mirrors f measurement (nodes.mergeProps (.node (f tag)) props)
      (tags.mergeProps (.tag tag) props) where
  nodes_measurement := h.nodes_measurement
  tags_measurement := h.tags_measurement
  propsOf_eq tag' := by
    rw [RecordingHost.propsOf_mergeProps, RecordingHost.propsOf_mergeProps, h.propsOf_eq,
      h.propsOf_eq]
    simp [hf.eq_iff]
  detached_iff := h.detached_iff

theorem detach (h : Mirrors f measurement nodes tags) (hf : Function.Injective f) (tag : ViewTag) :
    Mirrors f measurement (nodes.detach (.node (f tag))) (tags.detach (.tag tag)) := by
  have hnodes := nodes.mem_detached_detach (.node (f tag))
  have htags := tags.mem_detached_detach (.tag tag)
  rw [nodes.detach_eq, tags.detach_eq]
  refine ⟨h.nodes_measurement, h.tags_measurement, h.propsOf_eq, fun tag' => ?_⟩
  show _ ∈ (nodes.detach _).detached ↔ _ ∈ (tags.detach _).detached
  rw [hnodes, htags, h.detached_iff]
  simp [hf.eq_iff]

/-- Where the views are attached, twins are carried out alike. -/
theorem carryOut (h : Mirrors f measurement nodes tags) (hf : Function.Injective f)
    (htwins : Twins f action onNode onTag) :
    Agrees f measurement action (.value (onNode.shown (nodes.carryOut onNode).1))
        (.value (onTag.shown (tags.carryOut onTag).1)) ∧
      Mirrors f measurement (nodes.carryOut onNode).2 (tags.carryOut onTag).2 := by
  cases htwins with
  | updateProps tag viewName props =>
    exact ⟨.updated tag viewName props, h.mergeProps hf tag props⟩
  | dispatchCommand tag command args => exact ⟨.dispatched tag command args, h⟩
  | measure tag =>
    refine ⟨?_, h⟩
    show Agrees f measurement _ (.value (.object (measurementObject nodes.measuredNumbers)))
      (.value (.object (measurementObject tags.measuredNumbers)))
    rw [nodes.object_measuredNumbers, tags.object_measuredNumbers, h.nodes_measurement,
      h.tags_measurement]
    exact .measured tag
  | obtainProp tag name =>
    refine ⟨?_, h⟩
    show Agrees f measurement _ (.value (nodes.prop (.node (f tag)) name))
      (.value (tags.prop (.tag tag) name))
    rw [RecordingHost.prop, RecordingHost.prop, h.propsOf_eq]
    exact .obtained tag name _

/-- **Twins are performed alike**, also where the view is detached. -/
theorem perform (h : Mirrors f measurement nodes tags) (hf : Function.Injective f)
    (htwins : Twins f action onNode onTag) :
    Agrees f measurement action (onNode.seen (nodes.perform onNode).1)
        (onTag.seen (tags.perform onTag).1) ∧
      Mirrors f measurement (nodes.perform onNode).2 (tags.perform onTag).2 := by
  obtain ⟨tag, htarget, hnode, htag⟩ := htwins.exists_addresses
  by_cases hdetached : .tag tag ∈ tags.detached
  · rw [RecordingHost.perform_of_detached hnode ((h.detached_iff tag).mpr hdetached),
      RecordingHost.perform_of_detached htag hdetached]
    exact ⟨.failed htarget, h.recorded onNode onTag⟩
  · have hnodes : ∀ view, onNode.Addresses view → view ∉ nodes.detached := by
      intro view hview
      rw [← hnode.unique hview, h.detached_iff]
      exact hdetached
    have htags : ∀ view, onTag.Addresses view → view ∉ tags.detached := by
      intro view hview
      rw [← htag.unique hview]
      exact hdetached
    rw [RecordingHost.perform_of_attached hnodes, RecordingHost.perform_of_attached htags]
    exact (h.recorded onNode onTag).carryOut hf htwins

end Mirrors

/-! ## Two decorated runtimes -/

namespace Twins

variable {action : ViewAction} {onNode onTag : HostCall}

theorem mem_nodeFunctions (h : Twins f action onNode onTag) :
    onNode.function ∈ RecordingHost.nodeOperations.functions := by
  cases h <;> simp [HostCall.function, NodeOperations.functions]

theorem mem_tagFunctions (h : Twins f action onNode onTag) :
    onTag.function ∈ RecordingHost.tagOperations.functions := by
  cases h <;> simp [HostCall.function, TagOperations.functions]

end Twins

/-- One runtime offers the views by nodes, the other offers the same views by tags. -/
structure Paired (f : ViewTag → NodeHandle) (measurement : Geometry) (m₁ m₂ : Machine) : Prop where
  mirrors : Mirrors f measurement m₁.env.host m₂.env.host
  offersNodes : ∀ g ∈ RecordingHost.nodeOperations.functions, m₁.Offers g
  offersTags : ∀ g ∈ RecordingHost.tagOperations.functions, m₂.Offers g
  nodeStack : 0 < m₁.env.stackLimit
  tagStack : 0 < m₂.env.stackLimit

namespace Paired

variable {m₁ m₂ : Machine}

/-- Twins that are called from script end alike. -/
theorem call (h : Paired f measurement m₁ m₂) (hf : Function.Injective f) {action : ViewAction}
    {onNode onTag : HostCall} (htwins : Twins f action onNode onTag) :
    Agrees f measurement action (m₁.callGlobal onNode.function.name onNode.arguments).1
        (m₂.callGlobal onTag.function.name onTag.arguments).1 ∧
      Paired f measurement (m₁.callGlobal onNode.function.name onNode.arguments).2
        (m₂.callGlobal onTag.function.name onTag.arguments).2 := by
  rw [Machine.callGlobal_function (h.offersNodes _ htwins.mem_nodeFunctions) h.nodeStack,
    Machine.callGlobal_function (h.offersTags _ htwins.mem_tagFunctions) h.tagStack]
  obtain ⟨hagrees, hmirrors⟩ := h.mirrors.perform hf htwins
  -- Only the host is changed, so what was installed is still offered.
  exact ⟨hagrees, hmirrors, h.offersNodes, h.offersTags, h.nodeStack, h.tagStack⟩

/-- **Every action ends alike on both sides** and leaves the runtimes paired. -/
theorem act (h : Paired f measurement m₁ m₂) (hf : Function.Injective f) (action : ViewAction) :
    Agrees f measurement action (action.onNodes f m₁).1 (action.onTags m₂).1 ∧
      Paired f measurement (action.onNodes f m₁).2 (action.onTags m₂).2 := by
  cases action with
  | updateProps tag viewName props => exact h.call hf (.updateProps tag viewName props)
  | dispatchCommand tag command args => exact h.call hf (.dispatchCommand tag command args)
  | measure tag => exact h.call hf (.measure tag)
  | obtainProp tag name => exact h.call hf (.obtainProp tag name)
  | detach tag =>
    exact ⟨.detached tag, h.mirrors.detach hf tag, h.offersNodes, h.offersTags, h.nodeStack,
      h.tagStack⟩

theorem outcomes (h : Paired f measurement m₁ m₂) (hf : Function.Injective f)
    (actions : List ViewAction) :
    List.Forall₂ (fun action ends => Agrees f measurement action ends.1 ends.2) actions
      ((ViewAction.outcomes (·.onNodes f) actions m₁).zip
        (ViewAction.outcomes ViewAction.onTags actions m₂)) := by
  induction actions generalizing m₁ m₂ with
  | nil => exact .nil
  | cons action rest ih =>
    obtain ⟨hagrees, hpaired⟩ := h.act hf action
    exact .cons hagrees (ih hpaired)

end Paired

/-- A machine with a UI runtime that is not decorated yet, over a fresh recording host. What is
bound in the runtime does not matter. -/
structure Machine.Undecorated (m : Machine) (measurement : Geometry) : Prop where
  kind_eq : m.runtime.context.kind = .ui
  decoratedBy_eq : m.runtime.context.decoratedBy = none
  host_eq : m.env.host = .new measurement
  /-- There is room for a call. -/
  stack : 0 < m.env.stackLimit

namespace Machine.Undecorated

variable {m m₁ m₂ : Machine} {ops : List BridgeFunction} {renderer : Renderer}
  {common : CommonOperations}

theorem decorate_eq_value (h : m.Undecorated measurement) (hops : renderer.functions = some ops) :
    (m.decorate renderer common).1 = .value () := by
  rw [(m.decoration_lawful renderer common).ok_iff, hops]
  exact ⟨h.kind_eq, h.decoratedBy_eq, nofun⟩

theorem env_decorate (h : m.Undecorated measurement) (renderer : Renderer)
    (common : CommonOperations) :
    (m.decorate renderer common).2.env.host = .new measurement ∧
      0 < (m.decorate renderer common).2.env.stackLimit := by
  obtain ⟨table, htable⟩ := m.env_decorate renderer common
  rw [htable]
  exact ⟨h.host_eq, h.stack⟩

theorem paired (h₁ : m₁.Undecorated measurement) (h₂ : m₂.Undecorated measurement)
    (f : ViewTag → NodeHandle) :
    Paired f measurement
      (m₁.decorate RecordingHost.nodeOperations.renderer RecordingHost.commonOperations).2
      (m₂.decorate RecordingHost.tagOperations.renderer RecordingHost.commonOperations).2 := by
  obtain ⟨hnodeHost, hnodeStack⟩ :=
    h₁.env_decorate RecordingHost.nodeOperations.renderer RecordingHost.commonOperations
  obtain ⟨htagHost, htagStack⟩ :=
    h₂.env_decorate RecordingHost.tagOperations.renderer RecordingHost.commonOperations
  refine ⟨?mirrors, ?nodes, ?tags, hnodeStack, htagStack⟩
  case mirrors =>
    rw [hnodeHost, htagHost]
    exact Mirrors.new f measurement
  case nodes =>
    intro g hg
    exact offers_decorate h₁.kind_eq h₁.decoratedBy_eq rfl (by decide)
      (List.mem_append_left _ hg)
  case tags =>
    intro g hg
    exact offers_decorate h₂.kind_eq h₂.decoratedBy_eq rfl (by decide)
      (List.mem_append_left _ hg)

end Machine.Undecorated

/--
**The two renderers agree.** Let every tag have a node of its own, and decorate two runtimes over
fresh hosts of the same measurement, one for nodes and one for tags. Then both decorations succeed,
and whatever is done to the views afterwards, every single action ends on both sides in the same
value, a measurement in the same object, or in errors that differ only in how they name the view.
-/
theorem renderers_agree {f : ViewTag → NodeHandle} (hf : Function.Injective f)
    {measurement : Geometry} {m₁ m₂ : Machine} (h₁ : m₁.Undecorated measurement)
    (h₂ : m₂.Undecorated measurement) (actions : List ViewAction) :
    let nodes := m₁.decorate RecordingHost.nodeOperations.renderer RecordingHost.commonOperations
    let tags := m₂.decorate RecordingHost.tagOperations.renderer RecordingHost.commonOperations
    nodes.1 = .value () ∧ tags.1 = .value () ∧
      List.Forall₂ (fun action ends => Agrees f measurement action ends.1 ends.2) actions
        ((ViewAction.outcomes (·.onNodes f) actions nodes.2).zip
          (ViewAction.outcomes ViewAction.onTags actions tags.2)) := by
  intro nodes tags
  exact ⟨h₁.decorate_eq_value rfl, h₂.decorate_eq_value rfl, (h₁.paired h₂ f).outcomes hf actions⟩

/-- Tags as node handles, and two runtimes with different globals. -/
theorem renderers_agree_on_bits_of_tags :
    let f : ViewTag → NodeHandle := fun tag => ⟨tag.toUInt32.toUInt64⟩
    let m : Machine := { runtime := .new ⟨1⟩ .ui, env := { host := .new default } }
    let actions : List ViewAction :=
      [.updateProps 7 "RCTView" ⟨[("opacity", .bool true)]⟩, .obtainProp 7 "opacity", .measure (-1),
        .detach 7, .measure 7]
    let nodes := m.decorate RecordingHost.nodeOperations.renderer RecordingHost.commonOperations
    let tags := (m.setGlobal "_measurePaper" .null).decorate RecordingHost.tagOperations.renderer
      RecordingHost.commonOperations
    nodes.1 = .value () ∧ tags.1 = .value () ∧
      List.Forall₂ (fun action ends => Agrees f default action ends.1 ends.2) actions
        ((ViewAction.outcomes (·.onNodes f) actions nodes.2).zip
          (ViewAction.outcomes ViewAction.onTags actions tags.2)) := by
  intro f m actions
  have hf : Function.Injective f := by
    intro tag tag' h
    have hbits : tag.toUInt32.toUInt64 = tag'.toUInt32.toUInt64 := congrArg NodeHandle.raw h
    exact congrArg Int32.ofUInt32 (UInt32.toUInt64_inj.mp hbits)
  have hm : m.Undecorated default := ⟨rfl, rfl, rfl, by decide⟩
  have hm' : (m.setGlobal "_measurePaper" .null).Undecorated default := ⟨rfl, rfl, rfl, by decide⟩
  exact renderers_agree hf hm hm' actions

end ScriptBridge
