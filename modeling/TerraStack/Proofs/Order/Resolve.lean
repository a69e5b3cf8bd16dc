import TerraStack.Proofs.Order.Progress

namespace TerraStack.Order

variable {modules : OrderedMap String Module}

/-- A walk from here to where its path ends. -/
structure Walk.Completes (modules : OrderedMap String Module) (walk last : Walk) : Prop where
  advance : ∃ steps, Walk.Advance modules steps walk last
  frames_eq : last.frames = []

namespace Walk.Completes

variable {walk middle last : Walk}

/-- A walk that comes to its end is still a valid one. -/
theorem valid (hcompletes : Walk.Completes modules walk last) : last.Valid modules := by
  obtain ⟨_, hadvance⟩ := hcompletes.advance
  exact hadvance.valid

/-- A walk that has come to its end has no more steps left than it had. -/
theorem remaining_le (hcompletes : Walk.Completes modules walk last) :
    last.remaining ≤ walk.remaining := by
  obtain ⟨steps, hadvance⟩ := hcompletes.advance
  exact hadvance.remaining ▸ Nat.le_add_right _ _

/-- A walk that goes on to one that comes to its end comes to the same end. -/
theorem after {steps : Nat} (hcompletes : Walk.Completes modules middle last)
    (hadvance : Walk.Advance modules steps walk middle) : Walk.Completes modules walk last := by
  obtain ⟨more, hmore⟩ := hcompletes.advance
  exact ⟨⟨_, hadvance.trans hmore⟩, hcompletes.frames_eq⟩

/-- What has a mark is finished when the path ends. -/
theorem mem_finished (hcompletes : Walk.Completes modules walk last) {name : String}
    (hmarked : walk.marks.find? name ≠ none) : name ∈ last.finished := by
  obtain ⟨_, hadvance⟩ := hcompletes.advance
  exact hadvance.valid.mem_finished_of_marked hcompletes.frames_eq (hadvance.marked name hmarked)

end Walk.Completes

namespace Walk.Valid

variable {walk : Walk} {root : String} {fuel : Nat}

/-- With as many steps as it has left, a walk comes to its end. -/
theorem run (hvalid : walk.Valid modules) (hfuel : walk.remaining ≤ fuel) :
    Truthful modules (Walk.Completes modules walk) (walk.run fuel) := by
  induction fuel generalizing walk with
  | zero =>
    -- Every frame has a step left, and there is none, so there is no frame.
    refine ⟨⟨0, .refl hvalid⟩, ?_⟩
    cases hframes : walk.frames with
    | nil => rfl
    | cons frame outer =>
      simp only [Walk.remaining, hframes, pendingSteps] at hfuel
      omega
  | succ fuel ih =>
    unfold Walk.run
    split
    · next hframes => exact ⟨⟨0, .refl hvalid⟩, hframes⟩
    · next frame outer hframes =>
      refine (hvalid.step hframes).bind fun next hadvance => ?_
      have hremaining := hadvance.remaining
      exact (ih hadvance.valid (by omega)).mono fun last hcompletes => hcompletes.after hadvance

/-- A root is enabled and no module is on the path, so it can be entered. -/
theorem enter_root (hvalid : walk.Valid modules) (hframes : walk.frames = [])
    (henabled : Enabled modules root) :
    Truthful modules (fun next => Walk.Advance modules 0 walk next ∧ next.marks.find? root ≠ none)
      (walk.enter root root) := by
  have hentered := entered_enter walk root root
  generalize walk.enter root root = result at hentered ⊢
  cases hentered with
  | done hmark => exact ⟨.refl hvalid, by simp [hmark]⟩
  | cycle hmark =>
    have hmem := (hvalid.inProgress_iff root).mp hmark
    rw [hframes] at hmem
    cases hmem
  | unresolved _ hmissing =>
    obtain ⟨module, hmodule⟩ := enabled_iff.mp henabled
    rw [hvalid.modules_eq, hmodule] at hmissing
    cases hmissing
  | @pushed module hmark hmodule =>
    have hnames : ([] : List Frame).map Frame.name = walk.frames.map Frame.name := by rw [hframes]
    have hpush := hvalid.push hnames (.nil _) hmark hmodule
    rw [← hframes] at hpush
    refine ⟨⟨hpush, ?_, fun other hmarked => find?_insert_ne_none hmarked root .inProgress⟩, ?_⟩
    · have huntouched := untouchedSteps_insert_of_unmarked hmark hmodule .inProgress
      simp only [Walk.remaining, pendingSteps]
      omega
    · simp [OrderedMap.find?_insert]

/-- A visit of a root ends with the root finished, or with an error that tells the truth. -/
theorem visit (hvalid : walk.Valid modules) (hframes : walk.frames = [])
    (henabled : Enabled modules root) (hfuel : walk.remaining ≤ fuel) :
    Truthful modules (fun last => Walk.Completes modules walk last ∧ root ∈ last.finished)
      (walk.visit fuel root) := by
  refine (hvalid.enter_root hframes henabled).bind fun next hentered => ?_
  obtain ⟨hadvance, hmarked⟩ := hentered
  have hremaining := hadvance.remaining
  refine (hadvance.valid.run (by omega)).mono fun last hcompletes => ?_
  exact ⟨hcompletes.after hadvance, hcompletes.mem_finished hmarked⟩

/-- Visit one root after another. -/
theorem visits {roots : List String} (hvalid : walk.Valid modules) (hframes : walk.frames = [])
    (henabled : ∀ root ∈ roots, Enabled modules root) (hfuel : walk.remaining ≤ fuel) :
    Truthful modules
      (fun last => Walk.Completes modules walk last ∧ ∀ root ∈ roots, root ∈ last.finished)
      (roots.foldlM (Walk.visit fuel) walk) := by
  induction roots generalizing walk with
  | nil => exact ⟨⟨⟨0, .refl hvalid⟩, hframes⟩, nofun⟩
  | cons root roots ih =>
    rw [List.foldlM_cons]
    have hroot := hvalid.visit hframes (henabled root List.mem_cons_self) hfuel
    refine hroot.bind fun middle hmiddle => ?_
    obtain ⟨hcompletes, hfinished⟩ := hmiddle
    have hrest := ih hcompletes.valid hcompletes.frames_eq
      (fun other hother => henabled other (List.mem_cons_of_mem root hother))
      (Nat.le_trans hcompletes.remaining_le hfuel)
    refine hrest.mono fun last hlast => ?_
    obtain ⟨steps, hadvance⟩ := hcompletes.advance
    refine ⟨hlast.1.after hadvance, fun other hother => ?_⟩
    rcases List.mem_cons.mp hother with rfl | hother
    · refine hlast.1.mem_finished ?_
      rw [(hcompletes.valid.done_iff other).mpr hfinished]
      exact Option.some_ne_none Mark.done
    · exact hlast.2 other hother

end Walk.Valid

/-- Before the first step, the steps that are left are the bound that is given to the walk. -/
theorem remaining_start (modules : OrderedMap String Module) :
    Walk.remaining ⟨enabled modules, ∅, [], []⟩ = stepBound modules := by
  unfold Walk.remaining stepBound OrderedMap.values
  induction (enabled modules).entries with
  | nil => rfl
  | cons entry entries ih =>
    simp only [untouchedSteps, pendingSteps, OrderedMap.find?_empty, if_true, List.map_cons,
      List.foldr_cons, Nat.add_zero] at ih ⊢
    rw [ih]

/-- Either an order of the modules is found or the error tells what is wrong with them. -/
theorem resolve_truthful (modules : OrderedMap String Module) :
    Truthful modules (Sorted modules) (resolve modules) := by
  have hwalk := (Walk.Valid.start modules).visits rfl
    (fun root hroot => mem_keys_enabled.mp hroot) (Nat.le_of_eq (remaining_start modules))
  refine hwalk.bind fun last hlast => ?_
  exact hlast.1.valid.settled.sorted fun name henabled => hlast.2 name (mem_keys_enabled.mpr henabled)

/-- The order that is found has every enabled module, each once and behind all that it needs. -/
theorem resolve_sorted {order : List String} (hresolve : resolve modules = .ok order) :
    Sorted modules order :=
  (resolve_truthful modules).of_ok hresolve

/-- Modules that need others, one of them twice, and a disabled one whose need is nowhere. -/
def layered : OrderedMap String Module := .ofList
  [("app", (Module.ofAddress "app" "./app").needing ["db", "net", "db"]),
    ("old", (Module.ofAddress "old" "./old").needing ["gone"] |>.disabled),
    ("db", (Module.ofAddress "db" "./db").needing ["net"]),
    ("net", Module.ofAddress "net" "./net")]

/-- The layered modules come behind their needs, and the disabled one is left out. -/
theorem layered_sorted : resolve layered = .ok ["net", "db", "app"] ∧
    Sorted layered ["net", "db", "app"] :=
  ⟨rfl, resolve_sorted rfl⟩

/-- Whether there is an order is a matter of the needs alone. -/
theorem resolves_iff (modules : OrderedMap String Module) :
    (∃ order, resolve modules = .ok order) ↔ Closed modules ∧ Acyclic modules := by
  constructor
  · rintro ⟨order, hresolve⟩
    have hsorted : Sorted modules order := (resolve_truthful modules).of_ok hresolve
    exact ⟨hsorted.closed, hsorted.acyclic⟩
  · rintro ⟨hclosed, hacyclic⟩
    cases hresolve : resolve modules with
    | ok order => exact ⟨order, rfl⟩
    | error error =>
      have hdiagnosis := (resolve_truthful modules).of_error hresolve
      cases hdiagnosis with
      | cycle _ hcycle => exact absurd hcycle (hacyclic _)
      | unresolved hneeds hmissing => exact absurd (hclosed _ _ hneeds) hmissing

/-- An order is found exactly if all needs are enabled and no module needs itself, in whatever order
the modules are declared. An error always names a module on a cycle or a need that is not enabled. -/
theorem resolve_complete (modules : OrderedMap String Module) :
    ((∃ order, resolve modules = .ok order) ↔ Closed modules ∧ Acyclic modules) ∧
    (∀ other : OrderedMap String Module, other.entries.Perm modules.entries →
      ((∃ order, resolve other = .ok order) ↔ ∃ order, resolve modules = .ok order)) ∧
    ∀ error, resolve modules = .error error → Diagnosis modules error := by
  refine ⟨resolves_iff modules, ?_, fun error => (resolve_truthful modules).of_error⟩
  intro other hperm
  rw [resolves_iff, resolves_iff]
  unfold Closed Acyclic
  rw [needs_congr hperm, enabled_congr hperm]

end TerraStack.Order
