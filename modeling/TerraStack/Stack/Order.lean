import TerraStack.Stack.Error
import TerraStack.Stack.Module

namespace TerraStack.Order

/-- How far the walk has come with a module. -/
inductive Mark where
  | inProgress
  | done
  deriving Repr, DecidableEq

/-- A module on the path, and its needs that have not been looked at. -/
structure Frame where
  name : String
  needs : List String
  deriving Repr, DecidableEq

/-- A depth-first walk over the enabled modules, in the order of the stack and of each module's own
list. The frames are the path of modules whose needs are being walked, the innermost first, and the
order is backwards. So the walk is a sequence of steps that can be counted. -/
structure Walk where
  modules : OrderedMap String Module
  marks : OrderedMap String Mark
  frames : List Frame
  finished : List String

/-- Put a module on the path, unless it is done. A module on the path already needs itself, and one
that is not enabled cannot be needed. -/
def Walk.enter (walk : Walk) (referrer name : String) : Except StackError Walk :=
  match walk.marks.find? name with
  | some .done => .ok walk
  | some .inProgress => .error (.cycle name)
  | none =>
    match walk.modules.find? name with
    | none => .error (.unresolved referrer name)
    | some module => .ok { walk with
        marks := walk.marks.insert name .inProgress
        frames := ⟨name, module.dependsOn⟩ :: walk.frames }

/-- Look at the next need of the innermost module, or finish it. -/
def Walk.step (walk : Walk) (frame : Frame) (outer : List Frame) : Except StackError Walk :=
  match frame.needs with
  | need :: needs => { walk with frames := ⟨frame.name, needs⟩ :: outer }.enter frame.name need
  | [] => .ok { walk with
      marks := walk.marks.insert frame.name .done
      frames := outer
      finished := frame.name :: walk.finished }

/-- Walk until the path is empty, for at most `fuel` steps. -/
def Walk.run : Nat → Walk → Except StackError Walk
  | 0, walk => .ok walk
  | fuel + 1, walk =>
    match walk.frames with
    | [] => .ok walk
    | frame :: outer => do (← walk.step frame outer).run fuel

/-- The enabled modules. -/
def enabled (modules : OrderedMap String Module) : OrderedMap String Module :=
  modules.filter fun _ module => module.enabled

/-- One step for each enabled module and one for each of its needs: no walk takes more. -/
def stepBound (modules : OrderedMap String Module) : Nat :=
  (enabled modules).values.foldr (fun module steps => module.dependsOn.length + 1 + steps) 0

/-- Walk all that a module needs, and the module itself. -/
def Walk.visit (fuel : Nat) (walk : Walk) (root : String) : Except StackError Walk := do
  (← walk.enter root root).run fuel

/-- The enabled modules, each behind the modules it needs. -/
def resolve (modules : OrderedMap String Module) : Except StackError (List String) := do
  let walk : Walk := ⟨enabled modules, ∅, [], []⟩
  let walk ← (enabled modules).keys.foldlM (Walk.visit (stepBound modules)) walk
  .ok walk.finished.reverse

end TerraStack.Order
