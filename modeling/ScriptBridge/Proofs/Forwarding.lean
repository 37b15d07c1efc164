import Mathlib.Data.List.Forall2
import ScriptBridge.Bridge.Catalogue
import ScriptBridge.Proofs.Trace

/-!
# The law of bridge functions

A bridge function is declared by the types of its positions and a native operation. It decodes one
argument for each position, from left to right. If one does not decode, the first such position is
reported and nothing else happens. Otherwise the native operation runs once on what was decoded.

* `Declaration` — declared positions of any number, and the operation behind them.
* `BridgeFunction.Forwards` — what a bridge function has to do for its declaration.
* `forwarding_law` — all bridge functions of all catalogues do that, as do all that are built from
  operations with up to four arguments.
-/

namespace ScriptBridge

/-! ## Texts of failures -/

namespace FailureChain

theorem intercalate_concat_join (sep a b : String) (before : List String) :
    sep.intercalate (before ++ [a ++ sep ++ b]) = sep.intercalate (before ++ [a, b]) := by
  induction before with
  | nil =>
    rw [List.nil_append, List.nil_append, String.intercalate_singleton,
      String.intercalate_cons_cons, String.intercalate_singleton]
  | cons c rest ih =>
    rw [List.cons_append, List.cons_append, String.intercalate_cons_of_ne_nil (by simp),
      String.intercalate_cons_of_ne_nil (by simp), ih]

/-- The text of a failure: the outermost context first, the root last. -/
theorem text_eq_intercalate (chain : FailureChain) :
    chain.text = ": ".intercalate (chain.contexts.reverse ++ [chain.root]) := by
  obtain ⟨root, contexts⟩ := chain
  induction contexts generalizing root with
  | nil => exact (String.intercalate_singleton).symm
  | cons context rest ih =>
    have hstep : text ⟨root, context :: rest⟩ = text ⟨context ++ ": " ++ root, rest⟩ := rfl
    rw [hstep, ih, intercalate_concat_join, List.reverse_cons, List.append_assoc]
    rfl

end FailureChain

/-! ## Declarations -/

/-- The type of a declared position. -/
structure Parameter where
  Carrier : Type
  [decoder : FromScript Carrier]

attribute [instance] Parameter.decoder

/-- One value for each declared position. -/
def Arguments : List Parameter → Type
  | [] => Unit
  | p :: rest => p.Carrier × Arguments rest

/-- A bridge function as it is declared. -/
structure Declaration where
  name : String
  parameters : List Parameter
  Result : Type
  [encoder : ToScript Result]
  native : Arguments parameters → Native Result

attribute [instance] Declaration.encoder

/-- The argument at a declared position, `undefined` if it is missing, does not decode. The positions
are counted from `first`. -/
def MismatchAt (parameters : List Parameter) (args : List Value) (first index : Nat)
    (m : Mismatch) : Prop :=
  ∃ p, parameters[index]? = some p ∧
    FromScript.decode (α := p.Carrier) (args.getD (first + index) .undefined) = .error m

/-- The first declared position at which the argument does not decode. -/
def FirstMismatch (parameters : List Parameter) (args : List Value) (first index : Nat)
    (m : Mismatch) : Prop :=
  MismatchAt parameters args first index m ∧
    ∀ j < index, ∀ m', ¬ MismatchAt parameters args first j m'

/-- The arguments decode to these values, position by position. -/
def Decoded (args : List Value) : (first : Nat) → (parameters : List Parameter) →
    Arguments parameters → Prop
  | _, [], _ => True
  | first, p :: rest, (a, values) =>
    FromScript.decode (α := p.Carrier) (args.getD first .undefined) = .ok a ∧
      Decoded args (first + 1) rest values

/-! ## Decoding from left to right -/

/-- Decode the arguments of the positions from `first` on. -/
def decodeFrom (args : List Value) : (first : Nat) → (parameters : List Parameter) →
    Except Exception (Arguments parameters)
  | _, [] => .ok ()
  | first, p :: rest =>
    match argument p.Carrier args first with
    | .error e => .error e
    | .ok a =>
      match decodeFrom args (first + 1) rest with
      | .error e => .error e
      | .ok values => .ok (a, values)

variable {args args' : List Value} {first : Nat}

theorem mismatchAt_succ {p : Parameter} {parameters : List Parameter} {index : Nat}
    {m : Mismatch} :
    MismatchAt (p :: parameters) args first (index + 1) m ↔
      MismatchAt parameters args (first + 1) index m := by
  rw [MismatchAt, MismatchAt, List.getElem?_cons_succ, Nat.add_right_comm, Nat.add_assoc]

theorem mismatchAt_zero {p : Parameter} {parameters : List Parameter} {m : Mismatch} :
    MismatchAt (p :: parameters) args first 0 m ↔
      FromScript.decode (α := p.Carrier) (args.getD first .undefined) = .error m := by
  constructor
  · rintro ⟨q, hq, hm⟩
    obtain rfl : p = q := Option.some.inj hq
    exact hm
  · intro hm
    exact ⟨p, rfl, hm⟩

/-- The first mismatch is the error of decoding. -/
theorem decodeFrom_of_firstMismatch {parameters : List Parameter} {index : Nat} {m : Mismatch}
    (h : FirstMismatch parameters args first index m) :
    decodeFrom args first parameters =
      .error (.type ("argument " ++ toString (first + index) ++ ": " ++ m.text)) := by
  induction parameters generalizing first index with
  | nil =>
    obtain ⟨⟨p, hp, _⟩, _⟩ := h
    cases hp
  | cons p rest ih =>
    cases hd : FromScript.decode (α := p.Carrier) (args.getD first .undefined) with
    | error m' =>
      -- Position `first` does not decode, so no later position can be the first one.
      cases index with
      | zero =>
        rw [decodeFrom, argument_of_mismatch (mismatchAt_zero.mp h.1)]
        rfl
      | succ index => exact absurd (mismatchAt_zero.mpr hd) (h.2 0 (Nat.succ_pos index) m')
    | ok a =>
      cases index with
      | zero =>
        have hm := mismatchAt_zero.mp h.1
        rw [hd] at hm
        cases hm
      | succ index =>
        have hrest : FirstMismatch rest args (first + 1) index m :=
          ⟨mismatchAt_succ.mp h.1, fun j hj m' hm' =>
            h.2 (j + 1) (Nat.succ_lt_succ hj) m' (mismatchAt_succ.mpr hm')⟩
        rw [decodeFrom, argument_of_decode hd, ih hrest, Nat.add_right_comm, Nat.add_assoc]

theorem decodeFrom_of_decoded {parameters : List Parameter} {values : Arguments parameters}
    (h : Decoded args first parameters values) : decodeFrom args first parameters = .ok values := by
  induction parameters generalizing first with
  | nil => rfl
  | cons p rest ih =>
    obtain ⟨a, values⟩ := values
    obtain ⟨ha, hrest⟩ := h
    rw [decodeFrom, argument_of_decode ha, ih hrest]

/-- Either there is a first mismatch or everything decodes. -/
theorem firstMismatch_or_decoded (args : List Value) (first : Nat) (parameters : List Parameter) :
    (∃ index m, FirstMismatch parameters args first index m) ∨
      ∃ values, Decoded args first parameters values := by
  induction parameters generalizing first with
  | nil => exact Or.inr ⟨(), trivial⟩
  | cons p rest ih =>
    cases hd : FromScript.decode (α := p.Carrier) (args.getD first .undefined) with
    | error m =>
      exact Or.inl ⟨0, m, mismatchAt_zero.mpr hd, fun j hj => absurd hj (Nat.not_lt_zero j)⟩
    | ok a =>
      rcases ih (first + 1) with ⟨index, m, hm, hleast⟩ | ⟨values, hv⟩
      · refine Or.inl ⟨index + 1, m, mismatchAt_succ.mpr hm, ?_⟩
        intro j hj m' hm'
        cases j with
        | zero =>
          have hbad := mismatchAt_zero.mp hm'
          rw [hd] at hbad
          cases hbad
        | succ j => exact hleast j (Nat.lt_of_succ_lt_succ hj) m' (mismatchAt_succ.mp hm')
      · exact Or.inr ⟨(a, values), hd, hv⟩

theorem decodeFrom_congr {parameters : List Parameter}
    (h : ∀ index < parameters.length,
      args.getD (first + index) .undefined = args'.getD (first + index) .undefined) :
    decodeFrom args first parameters = decodeFrom args' first parameters := by
  induction parameters generalizing first with
  | nil => rfl
  | cons p rest ih =>
    have hhead : argument p.Carrier args first = argument p.Carrier args' first :=
      argument_congr (h 0 (Nat.succ_pos rest.length))
    have htail : decodeFrom args (first + 1) rest = decodeFrom args' (first + 1) rest := by
      refine ih fun index hi => ?_
      have hnext := h (index + 1) (Nat.succ_lt_succ hi)
      rwa [← Nat.add_assoc, Nat.add_right_comm] at hnext
    rw [decodeFrom, decodeFrom, hhead, htail]

/-! ## Forwarding for any number of positions -/

namespace Declaration

variable {α β γ δ ρ : Type}

/-! ### One position for each argument of an operation -/

def nullary [ToScript ρ] (name : String) (native : Native ρ) : Declaration :=
  { name, parameters := [], Result := ρ, native := fun () => native }

def unary [FromScript α] [ToScript ρ] (name : String) (native : α → Native ρ) : Declaration :=
  { name, parameters := [⟨α⟩], Result := ρ, native := fun (a, ()) => native a }

def binary [FromScript α] [FromScript β] [ToScript ρ] (name : String)
    (native : α → β → Native ρ) : Declaration :=
  { name, parameters := [⟨α⟩, ⟨β⟩], Result := ρ, native := fun (a, b, ()) => native a b }

def ternary [FromScript α] [FromScript β] [FromScript γ] [ToScript ρ] (name : String)
    (native : α → β → γ → Native ρ) : Declaration :=
  { name, parameters := [⟨α⟩, ⟨β⟩, ⟨γ⟩], Result := ρ
    native := fun (a, b, c, ()) => native a b c }

def quaternary [FromScript α] [FromScript β] [FromScript γ] [FromScript δ] [ToScript ρ]
    (name : String) (native : α → β → γ → δ → Native ρ) : Declaration :=
  { name, parameters := [⟨α⟩, ⟨β⟩, ⟨γ⟩, ⟨δ⟩], Result := ρ
    native := fun (a, b, c, d, ()) => native a b c d }

/-! ### Decode, run, encode -/

/-- Decode all positions, run the native operation, and encode its result. -/
def code (d : Declaration) (args : List Value) : Script Exception Value := do
  let values ← Script.ofExcept (decodeFrom args 0 d.parameters)
  BridgeFunction.answer (d.native values)

/-- What script sees of how the native operation ended. -/
def answerOf (d : Declaration) : Outcome FailureChain d.Result → Outcome Exception Value
  | .value r => .value (ToScript.encode r)
  | .error chain => .error (.native (": ".intercalate (chain.contexts.reverse ++ [chain.root])))
  | .halted why => .halted why

end Declaration

/-- What a bridge function has to do for its declaration, wherever it is called. -/
structure BridgeFunction.Forwards (f : BridgeFunction) (d : Declaration) : Prop where
  name_eq : f.name = d.name
  /-- Either some position does not decode, and then there is a first one, or all of them decode. -/
  total : ∀ args, (∃ index m, FirstMismatch d.parameters args 0 index m) ∨
    ∃ values, Decoded args 0 d.parameters values
  /-- The first position that does not decode is reported. No request is made, so neither the
  native operation nor anything else runs, and the machine is as before. -/
  mismatch : ∀ args index m, FirstMismatch d.parameters args 0 index m →
    ∀ invoke inside machine,
      (f.code args).runWith invoke machine =
          (.error (.type ("argument " ++ toString index ++ ": " ++ m.text)), machine) ∧
        (f.code args).traceWith invoke inside machine = []
  /-- If all positions decode, exactly the requests of one run of the native operation on the
  decoded values are made, and its result is encoded. -/
  forwarded : ∀ args values, Decoded args 0 d.parameters values →
    ∀ invoke inside machine,
      (f.code args).runWith invoke machine =
          (d.answerOf ((d.native values).runWith invoke machine).1,
            ((d.native values).runWith invoke machine).2) ∧
        (f.code args).traceWith invoke inside machine =
          (d.native values).traceWith invoke inside machine
  /-- Only the declared positions are looked at, where a missing argument is `undefined`. -/
  agree : ∀ args args',
    (∀ index < d.parameters.length,
      args.getD index .undefined = args'.getD index .undefined) →
      f.code args = f.code args'

namespace BridgeFunction

variable {invoke : Function → List Value → Machine.Run Exception Value}
  {inside : Function → List Value → Machine → List Activity}

theorem runWith_answer (d : Declaration) (values : Arguments d.parameters) (machine : Machine) :
    (answer (d.native values)).runWith invoke machine =
      (d.answerOf ((d.native values).runWith invoke machine).1,
        ((d.native values).runWith invoke machine).2) := by
  rw [answer, Native.toScript, Script.runWith_bind, Script.runWith_mapError]
  rcases (d.native values).runWith invoke machine with ⟨r | chain | why, machine'⟩
  · rfl
  · rw [Declaration.answerOf, ← FailureChain.text_eq_intercalate]
    rfl
  · rfl

theorem traceWith_answer (d : Declaration) (values : Arguments d.parameters) (machine : Machine) :
    (answer (d.native values)).traceWith invoke inside machine =
      (d.native values).traceWith invoke inside machine := by
  rw [answer, Native.toScript, Script.traceWith_bind, Script.traceWith_mapError,
    Script.runWith_mapError]
  rcases (d.native values).runWith invoke machine with ⟨r | chain | why, machine'⟩ <;>
    exact List.append_nil _

/-- A bridge function with the code of its declaration forwards. -/
theorem forwards_of_code_eq {f : BridgeFunction} {d : Declaration} (hname : f.name = d.name)
    (hcode : ∀ args, f.code args = d.code args) : f.Forwards d where
  name_eq := hname
  total args := firstMismatch_or_decoded args 0 d.parameters
  mismatch := by
    intro args index m hm invoke inside machine
    rw [hcode, Declaration.code, decodeFrom_of_firstMismatch hm, Nat.zero_add]
    exact ⟨rfl, rfl⟩
  forwarded := by
    intro args values hv invoke inside machine
    rw [hcode, Declaration.code, decodeFrom_of_decoded hv]
    exact ⟨runWith_answer d values machine, traceWith_answer d values machine⟩
  agree := by
    intro args args' h
    rw [hcode, hcode, Declaration.code, Declaration.code, decodeFrom_congr]
    intro index hi
    rw [Nat.zero_add]
    exact h index hi

/-- Decoding all positions takes the first one and goes on with the others. -/
theorem decodeFrom_cons_bind {p : Parameter} {parameters : List Parameter} {args : List Value}
    {first : Nat} (use : Arguments (p :: parameters) → Script Exception Value) :
    Script.ofExcept (decodeFrom args first (p :: parameters)) >>= use =
      take p.Carrier args first >>= fun a =>
        Script.ofExcept (decodeFrom args (first + 1) parameters) >>= fun values =>
          use (a, values) := by
  rw [decodeFrom, take]
  cases argument p.Carrier args first with
  | error e => rfl
  | ok a => cases decodeFrom args (first + 1) parameters <;> rfl

variable {α β γ δ ρ : Type}

theorem forwards_nullary [ToScript ρ] (name : String) (native : Native ρ) :
    (nullary name native).Forwards (.nullary name native) :=
  forwards_of_code_eq rfl fun _ => rfl

theorem forwards_unary [FromScript α] [ToScript ρ] (name : String) (native : α → Native ρ) :
    (unary name native).Forwards (.unary name native) := by
  refine forwards_of_code_eq rfl fun args => ?_
  rw [Declaration.code, Declaration.unary, decodeFrom_cons_bind]
  rfl

theorem forwards_binary [FromScript α] [FromScript β] [ToScript ρ] (name : String)
    (native : α → β → Native ρ) : (binary name native).Forwards (.binary name native) := by
  refine forwards_of_code_eq rfl fun args => ?_
  rw [Declaration.code, Declaration.binary]
  simp only [decodeFrom_cons_bind]
  rfl

theorem forwards_ternary [FromScript α] [FromScript β] [FromScript γ] [ToScript ρ] (name : String)
    (native : α → β → γ → Native ρ) : (ternary name native).Forwards (.ternary name native) := by
  refine forwards_of_code_eq rfl fun args => ?_
  rw [Declaration.code, Declaration.ternary]
  simp only [decodeFrom_cons_bind]
  rfl

theorem forwards_quaternary [FromScript α] [FromScript β] [FromScript γ] [FromScript δ]
    [ToScript ρ] (name : String) (native : α → β → γ → δ → Native ρ) :
    (quaternary name native).Forwards (.quaternary name native) := by
  refine forwards_of_code_eq rfl fun args => ?_
  rw [Declaration.code, Declaration.quaternary]
  simp only [decodeFrom_cons_bind]
  rfl

end BridgeFunction

/-! ## The catalogues -/

/-- What script is promised of the operations that every renderer offers. -/
def CommonOperations.declarations (ops : CommonOperations) : List Declaration :=
  [{ name := "requestAnimationFrame", parameters := [⟨Value⟩], Result := Unit
     native := fun (callback, ()) => ops.requestAnimationFrame callback },
    { name := "_getAnimationTimestamp", parameters := [], Result := Binary64
      native := fun () => ops.getAnimationTimestamp },
    { name := "_notifyAboutProgress", parameters := [⟨ViewTag⟩, ⟨Object⟩, ⟨Bool⟩], Result := Unit
      native := fun (tag, values, isShared, ()) =>
        ops.progressLayoutAnimation tag values isShared },
    { name := "_notifyAboutEnd", parameters := [⟨ViewTag⟩, ⟨Bool⟩, ⟨Bool⟩], Result := Unit
      native := fun (tag, isCancelled, removeView, ()) =>
        ops.endLayoutAnimation tag isCancelled removeView },
    { name := "_setGestureState", parameters := [⟨Int32⟩, ⟨Int32⟩], Result := Unit
      native := fun (handler, state, ()) => ops.setGestureState handler state },
    { name := "_maybeFlushUIUpdatesQueue", parameters := [], Result := Unit
      native := fun () => ops.maybeFlushUiUpdatesQueue }]

/-- What script is promised of the operations addressed by node handles. -/
def NodeOperations.declarations (ops : NodeOperations) : List Declaration :=
  [{ name := "_updatePropsFabric", parameters := [⟨NodeHandle⟩, ⟨Object⟩], Result := Unit
     native := fun (node, props, ()) => ops.updateProps node props },
    { name := "_removeFromPropsRegistry", parameters := [⟨NodeHandle⟩], Result := Unit
      native := fun (node, ()) => ops.removeFromPropsRegistry node },
    { name := "_dispatchCommandFabric", parameters := [⟨NodeHandle⟩, ⟨String⟩, ⟨Value⟩]
      Result := Unit
      native := fun (node, command, args, ()) => ops.dispatchCommand node command args },
    { name := "_measureFabric", parameters := [⟨NodeHandle⟩], Result := Object
      native := fun (node, ()) => ops.measure node },
    { name := "_obtainProp", parameters := [⟨NodeHandle⟩, ⟨String⟩], Result := Value
      native := fun (node, name, ()) => ops.obtainProp node name }]

/-- What script is promised of the operations addressed by tags. A measurement reaches script as an
object. -/
def TagOperations.declarations (ops : TagOperations) : List Declaration :=
  [{ name := "_updatePropsPaper", parameters := [⟨ViewTag⟩, ⟨String⟩, ⟨Object⟩], Result := Unit
     native := fun (tag, viewName, props, ()) => ops.updateProps tag viewName props },
    { name := "_dispatchCommandPaper", parameters := [⟨ViewTag⟩, ⟨String⟩, ⟨Value⟩]
      Result := Unit
      native := fun (tag, command, args, ()) => ops.dispatchCommand tag command args },
    { name := "_scrollToPaper", parameters := [⟨ViewTag⟩, ⟨Binary64⟩, ⟨Binary64⟩, ⟨Bool⟩]
      Result := Unit
      native := fun (tag, x, y, animated, ()) => ops.scrollTo tag x y animated },
    { name := "_measurePaper", parameters := [⟨ViewTag⟩], Result := Object
      native := fun (tag, ()) => measurementObject <$> ops.measure tag },
    { name := "_obtainProp", parameters := [⟨ViewTag⟩, ⟨String⟩], Result := Value
      native := fun (tag, name, ()) => ops.obtainProp tag name }]

namespace BridgeFunction

theorem forwards_commonOperations (ops : CommonOperations) :
    List.Forall₂ Forwards ops.functions ops.declarations :=
  .cons (forwards_unary _ _) <| .cons (forwards_nullary _ _) <| .cons (forwards_ternary _ _) <|
    .cons (forwards_ternary _ _) <| .cons (forwards_binary _ _) <|
    .cons (forwards_nullary _ _) .nil

theorem forwards_nodeOperations (ops : NodeOperations) :
    List.Forall₂ Forwards ops.functions ops.declarations :=
  .cons (forwards_binary _ _) <| .cons (forwards_unary _ _) <| .cons (forwards_ternary _ _) <|
    .cons (forwards_unary _ _) <| .cons (forwards_binary _ _) .nil

theorem forwards_tagOperations (ops : TagOperations) :
    List.Forall₂ Forwards ops.functions ops.declarations :=
  .cons (forwards_ternary _ _) <| .cons (forwards_ternary _ _) <|
    .cons (forwards_quaternary _ _) <| .cons (forwards_unary _ _) <|
    .cons (forwards_binary _ _) .nil

/-- **All bridge functions forward.** This holds for whatever is built from an operation with up to
four arguments, and for every entry of the three catalogues, in order. -/
theorem forwarding_law :
    (∀ {ρ : Type} [ToScript ρ] (name : String) (native : Native ρ),
      (nullary name native).Forwards (.nullary name native)) ∧
    (∀ {α ρ : Type} [FromScript α] [ToScript ρ] (name : String) (native : α → Native ρ),
      (unary name native).Forwards (.unary name native)) ∧
    (∀ {α β ρ : Type} [FromScript α] [FromScript β] [ToScript ρ] (name : String)
      (native : α → β → Native ρ), (binary name native).Forwards (.binary name native)) ∧
    (∀ {α β γ ρ : Type} [FromScript α] [FromScript β] [FromScript γ] [ToScript ρ] (name : String)
      (native : α → β → γ → Native ρ),
      (ternary name native).Forwards (.ternary name native)) ∧
    (∀ {α β γ δ ρ : Type} [FromScript α] [FromScript β] [FromScript γ] [FromScript δ]
      [ToScript ρ] (name : String) (native : α → β → γ → δ → Native ρ),
      (quaternary name native).Forwards (.quaternary name native)) ∧
    (∀ ops : CommonOperations, List.Forall₂ Forwards ops.functions ops.declarations) ∧
    (∀ ops : NodeOperations, List.Forall₂ Forwards ops.functions ops.declarations) ∧
    (∀ ops : TagOperations, List.Forall₂ Forwards ops.functions ops.declarations) ∧
    ∀ nothing : Unit, ToScript.encode nothing = .undefined := by
  refine ⟨?nullary, ?unary, ?binary, ?ternary, ?quaternary, forwards_commonOperations,
    forwards_nodeOperations, forwards_tagOperations, fun _ => rfl⟩
  case nullary =>
    intro ρ _ name native
    exact forwards_nullary name native
  case unary =>
    intro α ρ _ _ name native
    exact forwards_unary name native
  case binary =>
    intro α β ρ _ _ _ name native
    exact forwards_binary name native
  case ternary =>
    intro α β γ ρ _ _ _ _ name native
    exact forwards_ternary name native
  case quaternary =>
    intro α β γ δ ρ _ _ _ _ _ name native
    exact forwards_quaternary name native

end BridgeFunction

end ScriptBridge
