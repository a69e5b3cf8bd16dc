import Mathlib.Data.List.Basic
import TerraStack.Proofs.Order.Invariant

namespace TerraStack.Order

variable {modules : OrderedMap String Module}

/-- The steps for modules that have no mark: one for each module and one for each of its needs. -/
def untouchedSteps (marks : OrderedMap String Mark) : List (String × Module) → Nat
  | [] => 0
  | (name, module) :: rest =>
    (if marks.find? name = none then module.dependsOn.length + 1 else 0) + untouchedSteps marks rest

/-- The steps for modules on the path. -/
def pendingSteps : List Frame → Nat
  | [] => 0
  | frame :: outer => frame.needs.length + 1 + pendingSteps outer

/-- The steps that a walk has left, if it meets no error and every module is visited. -/
def Walk.remaining (walk : Walk) : Nat :=
  untouchedSteps walk.marks walk.modules.entries + pendingSteps walk.frames

/-- The entries that have no mark. -/
def untouched (marks : OrderedMap String Mark) (entries : List (String × Module)) :
    List (String × Module) :=
  entries.filter fun entry => (marks.find? entry.1).isNone

/-- A second mark on a module changes nothing about the modules without one. -/
theorem untouched_insert_of_marked {marks : OrderedMap String Mark} {name : String} {old : Mark}
    (hmarked : marks.find? name = some old) (mark : Mark) (entries : List (String × Module)) :
    untouched (marks.insert name mark) entries = untouched marks entries := by
  refine List.filter_congr fun entry _ => ?_
  rw [OrderedMap.find?_insert]
  split
  · next heq => simp [heq, hmarked]
  · rfl

/-- The first mark on a module takes its entry away. -/
theorem untouched_perm_insert {marks : OrderedMap String Mark} {name : String} {module : Module}
    (hunmarked : marks.find? name = none) (hmodule : modules.find? name = some module) (mark : Mark) :
    (untouched marks modules.entries).Perm
      ((name, module) :: untouched (marks.insert name mark) modules.entries) := by
  have hown : (untouched marks modules.entries).filter (fun entry => entry.1 = name) =
      [(name, module)] := by
    unfold untouched
    rw [List.filter_comm, OrderedMap.filter_entries_of_find? hmodule]
    exact List.filter_cons_of_pos (by simp [hunmarked])
  have hothers : (untouched marks modules.entries).filter (fun entry => !decide (entry.1 = name)) =
      untouched (marks.insert name mark) modules.entries := by
    unfold untouched
    rw [List.filter_filter]
    refine List.filter_congr fun entry _ => ?_
    rw [OrderedMap.find?_insert]
    by_cases hname : entry.1 = name <;> simp [hname]
  have hsplit := List.filter_append_perm (fun entry : String × Module => decide (entry.1 = name))
    (untouched marks modules.entries)
  rw [hown, hothers] at hsplit
  exact hsplit.symm

/-- What has a mark takes no steps, and without marks all entries do. -/
theorem untouchedSteps_eq (marks : OrderedMap String Mark) (entries : List (String × Module)) :
    untouchedSteps marks entries = untouchedSteps ∅ (untouched marks entries) := by
  unfold untouched
  induction entries with
  | nil => rfl
  | cons entry entries ih =>
    by_cases hmark : marks.find? entry.1 = none
    · rw [List.filter_cons_of_pos (by simp [hmark])]
      simp only [untouchedSteps, hmark, OrderedMap.find?_empty, if_true, ih]
    · rw [List.filter_cons_of_neg (by simpa using hmark), untouchedSteps, if_neg hmark, Nat.zero_add, ih]

theorem untouchedSteps_perm {marks : OrderedMap String Mark} {entries entries' : List (String × Module)}
    (hperm : entries.Perm entries') : untouchedSteps marks entries = untouchedSteps marks entries' := by
  induction hperm with
  | nil => rfl
  | cons entry _ ih => rw [untouchedSteps, untouchedSteps, ih]
  | swap first second rest =>
    simp only [untouchedSteps]
    omega
  | trans _ _ hfirst hsecond => exact hfirst.trans hsecond

theorem untouchedSteps_insert_of_marked {marks : OrderedMap String Mark} {name : String} {old : Mark}
    (hmarked : marks.find? name = some old) (mark : Mark) (entries : List (String × Module)) :
    untouchedSteps (marks.insert name mark) entries = untouchedSteps marks entries := by
  rw [untouchedSteps_eq, untouched_insert_of_marked hmarked, ← untouchedSteps_eq]

/-- The first mark on a module takes its steps away. -/
theorem untouchedSteps_insert_of_unmarked {marks : OrderedMap String Mark} {name : String}
    {module : Module} (hunmarked : marks.find? name = none)
    (hmodule : modules.find? name = some module) (mark : Mark) :
    untouchedSteps marks modules.entries =
      untouchedSteps (marks.insert name mark) modules.entries + (module.dependsOn.length + 1) := by
  rw [untouchedSteps_eq, untouchedSteps_perm (untouched_perm_insert hunmarked hmodule mark),
    untouchedSteps_eq (marks.insert name mark), untouchedSteps, if_pos (OrderedMap.find?_empty name),
    Nat.add_comm]

/-- A walk that goes on by some steps. It forgets no mark. -/
structure Walk.Advance (modules : OrderedMap String Module) (steps : Nat) (walk next : Walk) : Prop where
  valid : next.Valid modules
  remaining : next.remaining + steps = walk.remaining
  marked : ∀ name, walk.marks.find? name ≠ none → next.marks.find? name ≠ none

/-- A result is good, or it is an error that tells the truth about the modules. -/
def Truthful {α : Type} (modules : OrderedMap String Module) (good : α → Prop) :
    Except StackError α → Prop
  | .ok value => good value
  | .error error => Diagnosis modules error

theorem Truthful.of_ok {α : Type} {good : α → Prop} {result : Except StackError α} {value : α}
    (hresult : Truthful modules good result) (hok : result = .ok value) : good value := by
  rw [hok] at hresult
  exact hresult

theorem Truthful.of_error {α : Type} {good : α → Prop} {result : Except StackError α}
    {error : StackError} (hresult : Truthful modules good result) (herror : result = .error error) :
    Diagnosis modules error := by
  rw [herror] at hresult
  exact hresult

/-- Where the next computation tells the truth of all good values, both together do. -/
theorem Truthful.bind {α β : Type} {good : α → Prop} {better : β → Prop}
    {result : Except StackError α} {next : α → Except StackError β}
    (hresult : Truthful modules good result)
    (hnext : ∀ value, good value → Truthful modules better (next value)) :
    Truthful modules better (result >>= next) := by
  cases result with
  | ok value => exact hnext value hresult
  | error error => exact hresult

theorem Truthful.mono {α : Type} {good better : α → Prop} {result : Except StackError α}
    (hresult : Truthful modules good result) (hbetter : ∀ value, good value → better value) :
    Truthful modules better result := by
  cases result with
  | ok value => exact hbetter value hresult
  | error error => exact hresult

/-- A name with a mark has one after any other mark is set. -/
theorem find?_insert_ne_none {marks : OrderedMap String Mark} {name : String}
    (hmarked : marks.find? name ≠ none) (other : String) (mark : Mark) :
    (marks.insert other mark).find? name ≠ none := by
  rw [OrderedMap.find?_insert]
  split
  · exact Option.some_ne_none mark
  · exact hmarked

namespace Walk.Advance

variable {walk middle next : Walk} {first second : Nat}

theorem refl (hvalid : walk.Valid modules) : Walk.Advance modules 0 walk walk :=
  ⟨hvalid, rfl, fun _ => id⟩

theorem trans (hfirst : Walk.Advance modules first walk middle)
    (hsecond : Walk.Advance modules second middle next) :
    Walk.Advance modules (first + second) walk next where
  valid := hsecond.valid
  remaining := by
    have hfar := hfirst.remaining
    have hnear := hsecond.remaining
    omega
  marked name hmarked := hsecond.marked name (hfirst.marked name hmarked)

end Walk.Advance

namespace Walk.Valid

variable {walk : Walk} {frame : Frame} {outer : List Frame} {name : String}

/-- Without a path, what has a mark is finished. -/
theorem mem_finished_of_marked (hvalid : walk.Valid modules) (hframes : walk.frames = [])
    (hmarked : walk.marks.find? name ≠ none) : name ∈ walk.finished := by
  rw [← hvalid.done_iff]
  cases hmark : walk.marks.find? name with
  | none => exact absurd hmark hmarked
  | some mark =>
    cases mark with
    | done => rfl
    | inProgress =>
      have hmem := (hvalid.inProgress_iff name).mp hmark
      rw [hframes] at hmem
      cases hmem

/-- One step of a walk either counts as one or tells what is wrong with the modules. -/
theorem step (hvalid : walk.Valid modules) (hframes : walk.frames = frame :: outer) :
    Truthful modules (Walk.Advance modules 1 walk) (walk.step frame outer) := by
  obtain ⟨name, needs⟩ := frame
  cases needs with
  | nil =>
    have hmark : walk.marks.find? name = some .inProgress :=
      (hvalid.inProgress_iff name).mpr (by simp [hframes])
    refine ⟨hvalid.finish hframes, ?_, fun other hmarked => find?_insert_ne_none hmarked name .done⟩
    simp only [Walk.remaining, hframes, pendingSteps, List.length_nil,
      untouchedSteps_insert_of_marked hmark]
    omega
  | cons need needs =>
    have hentered := entered_enter { walk with frames := ⟨name, needs⟩ :: outer } name need
    show Truthful modules _ (Walk.enter { walk with frames := ⟨name, needs⟩ :: outer } name need)
    generalize Walk.enter { walk with frames := ⟨name, needs⟩ :: outer } name need = result at hentered ⊢
    cases hentered with
    | done hmark =>
      refine ⟨hvalid.skip hframes hmark, ?_, fun _ => id⟩
      simp only [Walk.remaining, hframes, pendingSteps, List.length_cons]
      omega
    | cycle hmark => exact hvalid.diagnosis_cycle hframes hmark
    | unresolved _ hmissing => exact hvalid.diagnosis_unresolved hframes hmissing
    | @pushed module hmark hmodule =>
      refine ⟨hvalid.push (by simp [hframes]) (hvalid.path_look hframes) hmark hmodule, ?_,
        fun other hmarked => find?_insert_ne_none hmarked need .inProgress⟩
      have huntouched : untouchedSteps walk.marks walk.modules.entries =
          untouchedSteps (walk.marks.insert need .inProgress) walk.modules.entries +
            (module.dependsOn.length + 1) :=
        untouchedSteps_insert_of_unmarked hmark hmodule .inProgress
      simp only [Walk.remaining, hframes, pendingSteps, List.length_cons]
      omega

end Walk.Valid
end TerraStack.Order
