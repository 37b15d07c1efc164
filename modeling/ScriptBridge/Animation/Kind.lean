import ScriptBridge.Argument

/-!
# Kinds of layout animation

Each kind has a code, by which script code knows it.
-/

namespace ScriptBridge

/-- The kind of a layout animation. -/
inductive AnimationKind where
  | entering
  | exiting
  | layout
  | sharedElementTransition
  | sharedElementTransitionProgress
deriving DecidableEq, Repr

namespace AnimationKind

/-- All kinds, in the order of their codes. -/
def all : List AnimationKind :=
  [entering, exiting, layout, sharedElementTransition, sharedElementTransitionProgress]

/-- The code of a kind. -/
def code : AnimationKind → Int32
  | entering => 1
  | exiting => 2
  | layout => 3
  | sharedElementTransition => 4
  | sharedElementTransitionProgress => 5

/-- The kind with a code. -/
def ofCode? (code : Int32) : Option AnimationKind := all.find? (·.code == code)

theorem ofCode?_code (kind : AnimationKind) : ofCode? kind.code = some kind := by
  cases kind <;> decide

end AnimationKind

instance : ToScript AnimationKind := ⟨fun kind => .ofInt32 kind.code⟩

end ScriptBridge
