import TerraStack.Proofs.Order.Resolve
import TerraStack.Proofs.Result
import TerraStack.Stack.Artifacts

namespace TerraStack

variable {stack : Stack} {conventions : Conventions} {order : List String} {error : StackError}

/-- The first of some names that no module of a stack has. -/
def IsFirstUnknown (stack : Stack) (order : List String) (name : String) : Prop :=
  ∃ before after, order = before ++ name :: after ∧ (∀ other ∈ before, other ∈ stack.modules.keys) ∧
    name ∉ stack.modules.keys

theorem not_isFirstUnknown_nil (name : String) : ¬ IsFirstUnknown stack [] name := by
  rintro ⟨before, after, horder, -⟩
  cases before <;> cases horder

/-- Behind a name that is known the first unknown one is the same. -/
theorem isFirstUnknown_cons_of_mem {head name : String} (hhead : head ∈ stack.modules.keys) :
    IsFirstUnknown stack (head :: order) name ↔ IsFirstUnknown stack order name := by
  constructor
  · rintro ⟨before, after, horder, hbefore, hname⟩
    cases before with
    | nil =>
      cases horder
      exact absurd hhead hname
    | cons first rest =>
      obtain ⟨rfl, rfl⟩ := List.cons.inj horder
      exact ⟨rest, after, rfl, fun other hother => hbefore other (List.mem_cons_of_mem _ hother), hname⟩
  · rintro ⟨before, after, rfl, hbefore, hname⟩
    exact ⟨head :: before, after, rfl, List.forall_mem_cons.mpr ⟨hhead, hbefore⟩, hname⟩

theorem isFirstUnknown_cons_of_not_mem {head name : String} (hhead : head ∉ stack.modules.keys) :
    IsFirstUnknown stack (head :: order) name ↔ name = head := by
  constructor
  · rintro ⟨before, after, horder, hbefore, -⟩
    cases before with
    | nil => exact (List.cons.inj horder).1.symm
    | cons first rest =>
      obtain ⟨rfl, -⟩ := List.cons.inj horder
      exact absurd (hbefore _ List.mem_cons_self) hhead
  · rintro rfl
    exact ⟨[], order, rfl, nofun, hhead⟩

namespace Stack

/-- To look names up ends at a name that is unknown. -/
theorem modulesNamed_cons_of_not_mem {head : String} (hhead : head ∉ stack.modules.keys)
    (rest : List String) : stack.modulesNamed (head :: rest) = .error (.unknownModule head) := by
  have hnone : stack.modules.find? head = none := by
    rw [OrderedMap.mem_keys_iff, ← Option.isSome_iff_exists] at hhead
    exact Option.not_isSome_iff_eq_none.mp hhead
  rw [modulesNamed, hnone]

theorem modulesNamed_cons_of_mem {head : String} (hhead : head ∈ stack.modules.keys)
    (rest : List String) :
    ∃ module, stack.modulesNamed (head :: rest) = (stack.modulesNamed rest).map (module :: ·) := by
  obtain ⟨module, hmodule⟩ := OrderedMap.mem_keys_iff.mp hhead
  exact ⟨module, by rw [modulesNamed, hmodule]⟩

/-- Looking names up fails with the first that is unknown. -/
theorem modulesNamed_eq_error_iff :
    stack.modulesNamed order = .error error ↔
      ∃ name, IsFirstUnknown stack order name ∧ error = .unknownModule name := by
  induction order with
  | nil => exact iff_of_false nofun fun ⟨name, hname, _⟩ => not_isFirstUnknown_nil name hname
  | cons head rest ih =>
    by_cases hhead : head ∈ stack.modules.keys
    · obtain ⟨module, hcons⟩ := modulesNamed_cons_of_mem hhead rest
      rw [hcons, map_eq_error, ih]
      simp only [isFirstUnknown_cons_of_mem hhead]
    · rw [modulesNamed_cons_of_not_mem hhead]
      simp only [isFirstUnknown_cons_of_not_mem hhead, exists_eq_left, Except.error.injEq]
      exact eq_comm

/-- All names can be looked up exactly if all are known. -/
theorem exists_modulesNamed_iff :
    (∃ modules, stack.modulesNamed order = .ok modules) ↔ ∀ name ∈ order, name ∈ stack.modules.keys := by
  induction order with
  | nil => exact iff_of_true ⟨[], rfl⟩ nofun
  | cons head rest ih =>
    rw [List.forall_mem_cons, ← ih]
    by_cases hhead : head ∈ stack.modules.keys
    · obtain ⟨module, hcons⟩ := modulesNamed_cons_of_mem hhead rest
      rw [hcons, and_iff_right hhead]
      simp only [map_eq_ok]
      constructor
      · rintro ⟨_, others, hothers, -⟩
        exact ⟨others, hothers⟩
      · rintro ⟨others, hothers⟩
        exact ⟨_, others, hothers, rfl⟩
    · rw [modulesNamed_cons_of_not_mem hhead]
      exact iff_of_false nofun fun hall => hhead hall.1

/-- Files cannot be made only where a name cannot be looked up, and with the same error. -/
theorem artifacts_eq_error_iff :
    stack.artifacts conventions order = .error error ↔ stack.modulesNamed order = .error error := by
  unfold artifacts
  rw [bind_eq_error]
  exact or_iff_left nofun

/-- Files can be made where all names can be looked up. -/
theorem exists_artifacts_iff :
    (∃ artifacts, stack.artifacts conventions order = .ok artifacts) ↔
      ∃ modules, stack.modulesNamed order = .ok modules := by
  unfold artifacts
  simp only [bind_eq_ok]
  constructor
  · rintro ⟨_, modules, hmodules, -⟩
    exact ⟨modules, hmodules⟩
  · rintro ⟨modules, hmodules⟩
    exact ⟨_, modules, hmodules, rfl⟩

/-- An order that has been resolved can be generated. -/
theorem exists_artifacts_of_resolve (conventions : Conventions)
    (hresolve : Order.resolve stack.modules = .ok order) :
    ∃ artifacts, stack.artifacts conventions order = .ok artifacts := by
  have hsorted : Order.Sorted stack.modules order := (Order.resolve_truthful _).of_ok hresolve
  rw [exists_artifacts_iff, exists_modulesNamed_iff]
  intro name hname
  exact ((hsorted.mem_iff name).mp hname).mem_keys

/-- A generation is the order of the modules and the files in that order. -/
theorem generate_eq_ok_iff {generated : Generated} :
    stack.generate conventions = .ok generated ↔
      Order.resolve stack.modules = .ok generated.order ∧
        stack.artifacts conventions generated.order = .ok generated.artifacts := by
  unfold generate
  simp only [bind_eq_ok, Except.ok.injEq]
  constructor
  · rintro ⟨order, hresolve, artifacts, hartifacts, rfl⟩
    exact ⟨hresolve, hartifacts⟩
  · rintro ⟨hresolve, hartifacts⟩
    exact ⟨_, hresolve, _, hartifacts, rfl⟩

/-- What ends a generation is a fault in the stack, and never one in its order, which names enabled
modules only. -/
theorem generate_eq_error_iff :
    stack.generate conventions = .error error ↔ Order.resolve stack.modules = .error error := by
  unfold generate
  rw [bind_eq_error]
  refine or_iff_left ?_
  rintro ⟨order, hresolve, hfails⟩
  obtain ⟨artifacts, hartifacts⟩ := exists_artifacts_of_resolve conventions hresolve
  rw [hartifacts] at hfails
  cases hfails

/-- What stands in the way of an order is a cycle or a need that nobody meets. -/
theorem resolve_ne_unknownModule (modules : OrderedMap String Module) (name : String) :
    Order.resolve modules ≠ .error (.unknownModule name) := by
  intro hresolve
  have hdiagnosis := (Order.resolve_truthful modules).of_error hresolve
  cases hdiagnosis

/-- What becomes of a stack when its files are made. -/
structure GeneratesAsResolved (stack : Stack) (conventions : Conventions) : Prop where
  ok_iff : ∀ order, (∃ artifacts, stack.generate conventions = .ok ⟨order, artifacts⟩) ↔
    Order.resolve stack.modules = .ok order
  artifacts_eq : ∀ generated, stack.generate conventions = .ok generated →
    stack.artifacts conventions generated.order = .ok generated.artifacts
  error_iff : ∀ error, stack.generate conventions = .error error ↔
    Order.resolve stack.modules = .error error
  known : ∀ name, stack.generate conventions ≠ .error (.unknownModule name)

/-- What becomes of a stack when its files are made in some order of names. -/
structure StopsAtUnknown (stack : Stack) (conventions : Conventions) (order : List String) : Prop where
  ok_iff : (∃ artifacts, stack.artifacts conventions order = .ok artifacts) ↔
    ∀ name ∈ order, name ∈ stack.modules.keys
  error_iff : ∀ error, stack.artifacts conventions order = .error error ↔
    ∃ name, IsFirstUnknown stack order name ∧ error = .unknownModule name ∧
      error.message = "Internal error: resolved order names unknown module '" ++ name ++ "'"

/-- Every stack is generated so. -/
theorem generatesAsResolved (stack : Stack) (conventions : Conventions) :
    GeneratesAsResolved stack conventions where
  ok_iff order := by
    simp only [generate_eq_ok_iff, exists_and_left, and_iff_left_iff_imp]
    exact exists_artifacts_of_resolve conventions
  artifacts_eq _ hgenerate := (generate_eq_ok_iff.mp hgenerate).2
  error_iff _ := generate_eq_error_iff
  known name hgenerate := resolve_ne_unknownModule stack.modules name (generate_eq_error_iff.mp hgenerate)

/-- Every order is followed up to its first unknown name. -/
theorem stopsAtUnknown (stack : Stack) (conventions : Conventions) (order : List String) :
    StopsAtUnknown stack conventions order where
  ok_iff := by rw [exists_artifacts_iff, exists_modulesNamed_iff]
  error_iff error := by
    rw [artifacts_eq_error_iff, modulesNamed_eq_error_iff]
    refine exists_congr fun name => and_congr_right fun _ => ?_
    refine (and_iff_left_of_imp ?_).symm
    rintro rfl
    rfl

/-- A stack is generated exactly if its modules can be put in order, in that order, and fails as the
order does. Only an order from elsewhere can name modules that are unknown, and stops at the first. -/
theorem generate_knows_modules (stack : Stack) (conventions : Conventions) :
    GeneratesAsResolved stack conventions ∧ ∀ order, StopsAtUnknown stack conventions order :=
  ⟨generatesAsResolved stack conventions, stopsAtUnknown stack conventions⟩

end Stack
end TerraStack
