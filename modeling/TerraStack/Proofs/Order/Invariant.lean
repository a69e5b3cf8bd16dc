import TerraStack.Proofs.Order.Needs

namespace TerraStack.Order

variable {modules : OrderedMap String Module}

/-- What entering a module comes to. -/
inductive Entered (walk : Walk) (referrer name : String) : Except StackError Walk → Prop where
  | done (hmark : walk.marks.find? name = some .done) : Entered walk referrer name (.ok walk)
  | cycle (hmark : walk.marks.find? name = some .inProgress) :
      Entered walk referrer name (.error (.cycle name))
  | unresolved (hmark : walk.marks.find? name = none) (hmissing : walk.modules.find? name = none) :
      Entered walk referrer name (.error (.unresolved referrer name))
  | pushed {module : Module} (hmark : walk.marks.find? name = none)
      (hmodule : walk.modules.find? name = some module) :
      Entered walk referrer name (.ok { walk with
        marks := walk.marks.insert name .inProgress
        frames := ⟨name, module.dependsOn⟩ :: walk.frames })

/-- To enter a module comes to one of these cases, by the mark of the module. -/
theorem entered_enter (walk : Walk) (referrer name : String) :
    Entered walk referrer name (walk.enter referrer name) := by
  unfold Walk.enter
  split
  · next hmark => exact .done hmark
  · next hmark => exact .cycle hmark
  · next hmark =>
    split
    · next hmissing => exact .unresolved hmark hmissing
    · next hmodule => exact .pushed hmark hmodule

/-- A path of modules, the innermost first, each needed by the next one, so a module that is met
again on the path needs itself. The needs that were looked at are finished, but for the one that is
next inside. -/
inductive Path (modules : OrderedMap String Module) (finished : List String) :
    Option String → List Frame → Prop where
  | nil (inner : Option String) : Path modules finished inner []
  | cons {inner : Option String} {frame : Frame} {outer : List Frame} {module : Module}
      {seen : List String} (hmodule : (enabled modules).find? frame.name = some module)
      (hneeds : module.dependsOn = seen ++ frame.needs)
      (hseen : ∀ need ∈ seen, need ∈ finished ∨ inner = some need)
      (hinner : ∀ need, inner = some need → need ∈ seen)
      (houter : Path modules finished (some frame.name) outer) :
      Path modules finished inner (frame :: outer)

namespace Path

variable {finished : List String} {frames outer : List Frame} {name need : String} {needs : List String}

/-- Every module on a path is enabled. -/
theorem enabled {inner : Option String} (hpath : Path modules finished inner frames)
    (hmem : name ∈ frames.map Frame.name) : Enabled modules name := by
  induction hpath with
  | nil _ => cases hmem
  | cons hmodule _ _ _ _ ih =>
    rcases List.mem_cons.mp hmem with rfl | hmem
    · exact enabled_iff.mpr ⟨_, hmodule⟩
    · exact ih hmem

/-- Every module on a path needs what is inside. -/
theorem reaches {inner : String} (hpath : Path modules finished (some inner) frames)
    (hmem : name ∈ frames.map Frame.name) : Relation.TransGen (Needs modules) name inner := by
  -- The induction goes outwards: what reaches a frame reaches what is inside of it.
  induction frames generalizing inner with
  | nil => cases hmem
  | cons frame outer ih =>
    obtain _ | ⟨hmodule, hneeds, _, hinner, houter⟩ := hpath
    have hedge : Needs modules frame.name inner := by
      rw [needs_iff_of_find? hmodule, hneeds]
      exact List.mem_append_left _ (hinner inner rfl)
    rcases List.mem_cons.mp hmem with rfl | hmem
    · exact .single hedge
    · exact .tail (ih houter hmem) hedge

/-- The need that is next is a need of the innermost module. -/
theorem needs_of_pending {inner : Option String}
    (hpath : Path modules finished inner (⟨name, need :: needs⟩ :: outer)) :
    Needs modules name need := by
  obtain _ | ⟨hmodule, hneeds, _, _, _⟩ := hpath
  rw [needs_iff_of_find? hmodule, hneeds]
  exact List.mem_append_right _ List.mem_cons_self

/-- Look at a need: it is finished, or it goes inside. -/
theorem look {inner : Option String}
    (hpath : Path modules finished none (⟨name, need :: needs⟩ :: outer))
    (hneed : need ∈ finished ∨ inner = some need) (hinner : ∀ other, inner = some other → other = need) :
    Path modules finished inner (⟨name, needs⟩ :: outer) := by
  obtain _ | ⟨hmodule, hneeds, hseen, _, houter⟩ := hpath
  refine .cons hmodule (hneeds.trans (List.append_cons _ need needs)) ?_ ?_ houter
  · intro other hother
    rcases List.mem_append.mp hother with hother | hother
    · exact .inl ((hseen other hother).resolve_right nofun)
    · exact List.mem_singleton.mp hother ▸ hneed
  · intro other hother
    exact List.mem_append_right _ (List.mem_singleton.mpr (hinner other hother))

/-- A path stays one while more modules are finished. -/
theorem mono {finished' : List String} {inner : Option String} (hsub : finished ⊆ finished')
    (hpath : Path modules finished inner frames) : Path modules finished' inner frames := by
  induction hpath with
  | nil inner => exact .nil inner
  | cons hmodule hneeds hseen hinner _ ih =>
    exact .cons hmodule hneeds (fun need hneed => (hseen need hneed).imp_left (@hsub need)) hinner ih

/-- Finish what is inside. -/
theorem finish (hpath : Path modules finished (some name) frames) :
    Path modules (name :: finished) none frames := by
  cases hpath with
  | nil _ => exact .nil none
  | cons hmodule hneeds hseen _ houter =>
    refine .cons hmodule hneeds ?_ nofun (houter.mono (List.subset_cons_self name finished))
    intro need hneed
    rcases hseen need hneed with hfinished | hinner
    · exact .inl (List.mem_cons_of_mem name hfinished)
    · exact .inl (Option.some.inj hinner ▸ List.mem_cons_self)

/-- A module all of whose needs were looked at needs only what is finished. -/
theorem mem_finished (hpath : Path modules finished none (⟨name, []⟩ :: outer))
    (hneeded : Needs modules name need) : need ∈ finished := by
  obtain _ | ⟨hmodule, hneeds, hseen, _, _⟩ := hpath
  rw [needs_iff_of_find? hmodule, hneeds] at hneeded
  simp only [List.append_nil] at hneeded
  exact (hseen need hneeded).resolve_right nofun

/-- Without its innermost module a path goes on to that module. -/
theorem tail (hpath : Path modules finished none (⟨name, needs⟩ :: outer)) :
    Path modules finished (some name) outer := by
  obtain _ | ⟨_, _, _, _, houter⟩ := hpath
  exact houter

end Path

/-- The invariant of a walk. The marks tell what is on the path and what is finished. -/
structure Walk.Valid (modules : OrderedMap String Module) (walk : Walk) : Prop where
  modules_eq : walk.modules = enabled modules
  done_iff : ∀ name, walk.marks.find? name = some .done ↔ name ∈ walk.finished
  inProgress_iff : ∀ name,
    walk.marks.find? name = some .inProgress ↔ name ∈ walk.frames.map Frame.name
  names_nodup : (walk.frames.map Frame.name).Nodup
  settled : Settled modules walk.finished
  path : Path modules walk.finished none walk.frames

namespace Walk.Valid

variable {walk : Walk} {outer : List Frame} {name need : String} {needs : List String}

/-- Before the first step there is no path, and nothing has a mark. -/
theorem start (modules : OrderedMap String Module) :
    Walk.Valid modules ⟨enabled modules, ∅, [], []⟩ where
  modules_eq := rfl
  done_iff name := by simp
  inProgress_iff name := by simp
  names_nodup := List.nodup_nil
  settled := .nil
  path := .nil none

/-- The next need goes inside the path. -/
theorem path_look (hvalid : walk.Valid modules)
    (hframes : walk.frames = ⟨name, need :: needs⟩ :: outer) :
    Path modules walk.finished (some need) (⟨name, needs⟩ :: outer) :=
  (hframes ▸ hvalid.path).look (.inr rfl) fun _ hother => (Option.some.inj hother).symm

/-- Skip a need that is done. -/
theorem skip (hvalid : walk.Valid modules) (hframes : walk.frames = ⟨name, need :: needs⟩ :: outer)
    (hmark : walk.marks.find? need = some .done) :
    Walk.Valid modules { walk with frames := ⟨name, needs⟩ :: outer } where
  modules_eq := hvalid.modules_eq
  done_iff := hvalid.done_iff
  inProgress_iff other := by simpa [hframes] using hvalid.inProgress_iff other
  names_nodup := by simpa [hframes] using hvalid.names_nodup
  settled := hvalid.settled
  path := (hframes ▸ hvalid.path).look (.inl ((hvalid.done_iff need).mp hmark)) nofun

/-- Put a module on the path. -/
theorem push {module : Module} (hvalid : walk.Valid modules)
    (hnames : outer.map Frame.name = walk.frames.map Frame.name)
    (hpath : Path modules walk.finished (some need) outer) (hmark : walk.marks.find? need = none)
    (hmodule : walk.modules.find? need = some module) :
    Walk.Valid modules { walk with
      marks := walk.marks.insert need .inProgress
      frames := ⟨need, module.dependsOn⟩ :: outer } where
  modules_eq := hvalid.modules_eq
  done_iff other := by
    rw [OrderedMap.find?_insert]
    split
    · next heq =>
      rw [heq, ← hvalid.done_iff need, hmark]
      simp
    · exact hvalid.done_iff other
  inProgress_iff other := by
    rw [OrderedMap.find?_insert, List.map_cons, List.mem_cons, hnames, ← hvalid.inProgress_iff]
    split
    · next heq => simp [heq]
    · next hne => simp [hne]
  names_nodup := by
    rw [List.map_cons, List.nodup_cons, hnames, ← hvalid.inProgress_iff need, hmark]
    exact ⟨by simp, hvalid.names_nodup⟩
  settled := hvalid.settled
  path := .cons (hvalid.modules_eq ▸ hmodule) (List.nil_append _).symm (by simp) (by simp) hpath

/-- Finish a module that has no needs left. -/
theorem finish (hvalid : walk.Valid modules) (hframes : walk.frames = ⟨name, []⟩ :: outer) :
    Walk.Valid modules { walk with
      marks := walk.marks.insert name .done
      frames := outer
      finished := name :: walk.finished } := by
  have hpath := hframes ▸ hvalid.path
  have hnames : (name :: outer.map Frame.name).Nodup := by
    simpa [hframes] using hvalid.names_nodup
  have hmark : walk.marks.find? name = some .inProgress :=
    (hvalid.inProgress_iff name).mpr (by simp [hframes])
  have hfresh : name ∉ walk.finished := by simp [← hvalid.done_iff, hmark]
  exact {
    modules_eq := hvalid.modules_eq
    done_iff := fun other => by
      rw [OrderedMap.find?_insert, List.mem_cons, ← hvalid.done_iff]
      split
      · next heq => simp [heq]
      · next hne => simp [hne]
    inProgress_iff := fun other => by
      rw [OrderedMap.find?_insert]
      split
      · next heq => simpa [heq] using (List.nodup_cons.mp hnames).1
      · next hne =>
        rw [hvalid.inProgress_iff, hframes, List.map_cons, List.mem_cons]
        simp [hne]
    names_nodup := (List.nodup_cons.mp hnames).2
    settled := .cons hfresh (hpath.enabled (by simp)) (fun _ => hpath.mem_finished) hvalid.settled
    path := hpath.tail.finish }

/-- A need that is on the path already tells of a cycle. -/
theorem diagnosis_cycle (hvalid : walk.Valid modules)
    (hframes : walk.frames = ⟨name, need :: needs⟩ :: outer)
    (hmark : walk.marks.find? need = some .inProgress) : Diagnosis modules (.cycle need) := by
  have hmem : need ∈ (Frame.mk name needs :: outer).map Frame.name := by
    simpa [hframes] using (hvalid.inProgress_iff need).mp hmark
  have hpath := hvalid.path_look hframes
  exact .cycle (hpath.enabled hmem) (hpath.reaches hmem)

/-- A need that is not among the enabled modules is no need that could be met. -/
theorem diagnosis_unresolved (hvalid : walk.Valid modules)
    (hframes : walk.frames = ⟨name, need :: needs⟩ :: outer)
    (hmissing : walk.modules.find? need = none) : Diagnosis modules (.unresolved name need) := by
  refine .unresolved (hframes ▸ hvalid.path).needs_of_pending ?_
  rw [enabled_iff, ← hvalid.modules_eq, hmissing]
  simp

end Walk.Valid
end TerraStack.Order
