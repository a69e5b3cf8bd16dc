import TerraStack.Proofs.Order.Resolve

namespace TerraStack.Order

/-- A module is white before it is reached, grey while its needs are searched, and black behind
them. -/
inductive Colour where
  | white
  | grey
  | black
  deriving Repr, DecidableEq

/-- The colours of all names, and the finished modules, the last one first. -/
structure Colouring where
  colour : String → Colour := fun _ => .white
  finished : List String := []

namespace Colouring

variable {modules : OrderedMap String Module} {colouring : Colouring} {name : String} {colour : Colour}

/-- Give a name a colour. -/
def paint (colouring : Colouring) (name : String) (colour : Colour) : Colouring :=
  { colouring with colour := fun other => if other = name then colour else colouring.colour other }

/-- Make a name black and put it in front of the finished ones. -/
def finish (colouring : Colouring) (name : String) : Colouring :=
  { colouring.paint name .black with finished := name :: colouring.finished }

/-- The number of modules that have not been reached. -/
def whites (modules : OrderedMap String Module) (colouring : Colouring) : Nat :=
  modules.keys.countP fun name => colouring.colour name = .white

/-- What is still white was white before and is not the module that was painted. -/
theorem white_of_white_paint (hcolour : colour ≠ .white) {other : String}
    (hwhite : (colouring.paint name colour).colour other = .white) :
    colouring.colour other = .white ∧ other ≠ name := by
  unfold paint at hwhite
  dsimp only at hwhite
  split at hwhite
  · exact absurd hwhite hcolour
  · next hother => exact ⟨hwhite, hother⟩

theorem countP_white_paint_le (colouring : Colouring) (name : String) (hcolour : colour ≠ .white)
    (names : List String) :
    (names.countP fun other => (colouring.paint name colour).colour other = .white) ≤
      names.countP fun other => colouring.colour other = .white := by
  apply List.countP_mono_left
  intro other _ hwhite
  have hpainted := white_of_white_paint hcolour (of_decide_eq_true hwhite)
  exact decide_eq_true hpainted.1

/-- To paint a module with another colour makes no module white. -/
theorem whites_paint_le (hcolour : colour ≠ .white) :
    (colouring.paint name colour).whites modules ≤ colouring.whites modules :=
  countP_white_paint_le colouring name hcolour modules.keys

/-- To finish a module makes none white either. -/
theorem whites_finish_le : (colouring.finish name).whites modules ≤ colouring.whites modules :=
  whites_paint_le (by decide)

/-- To reach a module leaves one less that has not been reached. -/
theorem whites_paint_lt (hmem : name ∈ modules.keys) (hwhite : colouring.colour name = .white)
    (hcolour : colour ≠ .white) :
    (colouring.paint name colour).whites modules < colouring.whites modules := by
  obtain ⟨before, after, hkeys⟩ := List.append_of_mem hmem
  have hname : (colouring.paint name colour).colour name ≠ .white :=
    fun hpainted => (white_of_white_paint hcolour hpainted).2 rfl
  have hbefore := countP_white_paint_le colouring name hcolour before
  have hafter := countP_white_paint_le colouring name hcolour after
  unfold whites
  simp only [hkeys, List.countP_append, List.countP_cons, hname, hwhite, decide_true, decide_false,
    if_true, Bool.false_eq_true, if_false]
  omega

end Colouring

/-- What a search makes of the colours. It never makes a module white. -/
abbrev Later (modules : OrderedMap String Module) (colouring : Colouring) : Type :=
  { next : Colouring // next.whites modules ≤ colouring.whites modules }

mutual

/-- Search a name that a module refers to, and before it all that it needs. The first error ends the
search, which ends in any case: each module that is entered is white no longer. -/
def search (modules : OrderedMap String Module) (referrer name : String) (colouring : Colouring) :
    Except StackError (Later modules colouring) :=
  match hcolour : colouring.colour name with
  | .black => .ok ⟨colouring, Nat.le_refl _⟩
  | .grey => .error (.cycle name)
  | .white =>
    match hmodule : modules.find? name with
    | none => .error (.unresolved referrer name)
    | some module => do
      let ⟨next, hnext⟩ ← searchEach modules name module.dependsOn (colouring.paint name .grey)
      have hpaint := Colouring.whites_paint_le (by decide)
      .ok ⟨next.finish name, Nat.le_trans (Nat.le_trans Colouring.whites_finish_le hnext) hpaint⟩
termination_by (colouring.whites modules, 0)
decreasing_by
  apply Prod.Lex.left
  have hmem : name ∈ modules.keys := OrderedMap.mem_keys_iff.mpr ⟨module, hmodule⟩
  exact Colouring.whites_paint_lt hmem hcolour (by decide)

/-- Search the names that a module refers to, one after another. -/
def searchEach (modules : OrderedMap String Module) (referrer : String) (names : List String)
    (colouring : Colouring) : Except StackError (Later modules colouring) :=
  match names with
  | [] => .ok ⟨colouring, Nat.le_refl _⟩
  | name :: rest => do
    let ⟨middle, hmiddle⟩ ← search modules referrer name colouring
    let ⟨last, hlast⟩ ← searchEach modules referrer rest middle
    .ok ⟨last, Nat.le_trans hlast hmiddle⟩
termination_by (colouring.whites modules, names.length + 1)
decreasing_by
  · apply Prod.Lex.right
    omega
  · rcases Nat.lt_or_eq_of_le hmiddle with hfewer | hsame
    · exact Prod.Lex.left _ _ hfewer
    · rw [hsame]
      apply Prod.Lex.right
      exact Nat.lt_succ_self _

end

/-- The colours with which a search ends. -/
def reached {modules : OrderedMap String Module} {colouring : Colouring}
    (result : Except StackError (Later modules colouring)) : Except StackError Colouring :=
  result.map Subtype.val

/-- Search the enabled modules one after another, in the order of the stack. -/
def searchAll (modules : OrderedMap String Module) : Except StackError (List String) := do
  let colouring ← (enabled modules).keys.foldlM
    (fun colouring root => reached (search (enabled modules) root root colouring)) {}
  return colouring.finished.reverse

/-- The calls of a search that have these modules on the stack, from the innermost outwards. What
the recursion keeps on its stack are the frames of a walk. -/
def unwind (modules : OrderedMap String Module) : List Frame → Colouring → Except StackError Colouring
  | [], colouring => .ok colouring
  | frame :: outer, colouring => do
    let colouring ← reached (searchEach modules frame.name frame.needs colouring)
    unwind modules outer (colouring.finish frame.name)

section search

variable (modules : OrderedMap String Module) (referrer : String)

/-- What a search for a name comes to, by its colour and its module. -/
theorem reached_search (name : String) (colouring : Colouring) :
    reached (search modules referrer name colouring) =
      match colouring.colour name, modules.find? name with
      | .black, _ => .ok colouring
      | .grey, _ => .error (.cycle name)
      | .white, none => .error (.unresolved referrer name)
      | .white, some module =>
        (reached (searchEach modules name module.dependsOn (colouring.paint name .grey))).map
          (·.finish name) := by
  rw [search]
  split
  · next hcolour =>
    rw [hcolour]
    rfl
  · next hcolour =>
    rw [hcolour]
    rfl
  · next hcolour =>
    rw [hcolour]
    split
    · next hmodule =>
      rw [hmodule]
      rfl
    · next module hmodule =>
      rw [hmodule]
      dsimp only
      cases searchEach modules name module.dependsOn (colouring.paint name .grey) with
      | error error => rfl
      | ok next => rfl

theorem reached_searchEach_nil (colouring : Colouring) :
    reached (searchEach modules referrer [] colouring) = .ok colouring := by
  rw [searchEach]
  rfl

theorem reached_searchEach_cons (name : String) (rest : List String) (colouring : Colouring) :
    reached (searchEach modules referrer (name :: rest) colouring) =
      reached (search modules referrer name colouring) >>= fun middle =>
        reached (searchEach modules referrer rest middle) := by
  rw [searchEach]
  cases search modules referrer name colouring with
  | error error => rfl
  | ok middle =>
    obtain ⟨middle, hmiddle⟩ := middle
    have hrest : reached (Except.ok ⟨middle, hmiddle⟩ : Except StackError (Later modules colouring)) =
        .ok middle := rfl
    rw [hrest]
    dsimp only [bind, Except.bind]
    cases searchEach modules referrer rest middle with
    | error error => rfl
    | ok last => rfl

end search

/-- The colour of a module with a mark, or without one. -/
def colourOf : Option Mark → Colour
  | none => .white
  | some .inProgress => .grey
  | some .done => .black

/-- What a search knows where a walk has come. -/
def Walk.colouring (walk : Walk) : Colouring where
  colour name := colourOf (walk.marks.find? name)
  finished := walk.finished

variable {modules : OrderedMap String Module} {walk : Walk}

/-- To put a module on the path is to make it grey. -/
theorem Walk.colouring_push (walk : Walk) (name : String) (frames : List Frame) :
    Walk.colouring { walk with marks := walk.marks.insert name .inProgress, frames } =
      walk.colouring.paint name .grey := by
  unfold Walk.colouring Colouring.paint
  congr 1
  funext other
  rw [OrderedMap.find?_insert]
  split <;> rfl

/-- To finish a module of the path is to make it black. -/
theorem Walk.colouring_finish (walk : Walk) (name : String) (frames : List Frame) :
    Walk.colouring { walk with
      marks := walk.marks.insert name .done, frames, finished := name :: walk.finished } =
      walk.colouring.finish name := by
  unfold Walk.colouring Colouring.finish Colouring.paint
  simp only [OrderedMap.find?_insert, Colouring.mk.injEq, and_true]
  funext other
  split <;> rfl

/-- To enter a name is to call the search for it: what was on the path goes on where the call
returns. -/
theorem search_bind_unwind (walk : Walk) (referrer name : String) :
    reached (search walk.modules referrer name walk.colouring) >>= unwind walk.modules walk.frames =
      walk.enter referrer name >>= fun next => unwind walk.modules next.frames next.colouring := by
  have hentered := entered_enter walk referrer name
  generalize walk.enter referrer name = result at hentered ⊢
  have hcolour : walk.colouring.colour name = colourOf (walk.marks.find? name) := rfl
  rw [reached_search, hcolour]
  cases hentered with
  | done hmark =>
    rw [hmark]
    rfl
  | cycle hmark =>
    rw [hmark]
    rfl
  | unresolved hmark hmissing =>
    rw [hmark, hmissing]
    rfl
  | @pushed module hmark hmodule =>
    rw [hmark, hmodule]
    have hended (next : Walk) : ((.ok next : Except StackError Walk) >>=
        fun next => unwind walk.modules next.frames next.colouring) =
          unwind walk.modules next.frames next.colouring := rfl
    rw [hended, Walk.colouring_push]
    dsimp only [colourOf, unwind]
    cases reached (searchEach walk.modules name module.dependsOn (walk.colouring.paint name .grey)) with
    | error error => rfl
    | ok next => rfl

/-- No step of a walk changes what comes of the calls that are still to return. -/
theorem unwind_step {frame : Frame} {outer : List Frame} (hframes : walk.frames = frame :: outer) :
    unwind walk.modules walk.frames walk.colouring = walk.step frame outer >>= fun next =>
      unwind walk.modules next.frames next.colouring := by
  obtain ⟨name, needs⟩ := frame
  rw [hframes, unwind]
  cases needs with
  | nil =>
    have hcolouring := walk.colouring_finish name outer
    rw [reached_searchEach_nil]
    dsimp only [bind, Except.bind]
    rw [← hcolouring]
    rfl
  | cons need needs =>
    have hcall := search_bind_unwind { walk with frames := ⟨name, needs⟩ :: outer } name need
    rw [reached_searchEach_cons, bind_assoc]
    exact hcall

/-- A walk that comes to its end has the result of the calls that it stands for. -/
theorem Walk.Valid.unwind_eq_run (hvalid : walk.Valid modules) {fuel : Nat}
    (hfuel : walk.remaining ≤ fuel) :
    unwind (enabled modules) walk.frames walk.colouring = (walk.run fuel).map Walk.colouring := by
  induction fuel generalizing walk with
  | zero =>
    cases hframes : walk.frames with
    | nil => rfl
    | cons frame outer =>
      simp only [Walk.remaining, hframes, pendingSteps] at hfuel
      omega
  | succ fuel ih =>
    unfold Walk.run
    split
    · next hframes =>
      rw [hframes]
      rfl
    · next frame outer hframes =>
      have hstep := unwind_step hframes
      have hadvances := hvalid.step hframes
      rw [hvalid.modules_eq] at hstep
      rw [hstep]
      cases hresult : walk.step frame outer with
      | error error => rfl
      | ok next =>
        have hadvance := hadvances.of_ok hresult
        have hremaining := hadvance.remaining
        exact ih hadvance.valid (by omega)

/-- The search for a root is the visit of that root. -/
theorem Walk.Valid.search_eq_visit (hvalid : walk.Valid modules) (hframes : walk.frames = [])
    {root : String} (henabled : Enabled modules root) {fuel : Nat} (hfuel : walk.remaining ≤ fuel) :
    reached (search (enabled modules) root root walk.colouring) =
      (walk.visit fuel root).map Walk.colouring := by
  have hcall := search_bind_unwind walk root root
  have hreturn : unwind (enabled modules) [] = pure := rfl
  rw [hvalid.modules_eq, hframes, hreturn, bind_pure] at hcall
  rw [hcall]
  have henters := hvalid.enter_root hframes henabled
  unfold Walk.visit
  cases hresult : walk.enter root root with
  | error error => rfl
  | ok next =>
    obtain ⟨hadvance, _⟩ := henters.of_ok hresult
    have hremaining := hadvance.remaining
    exact hadvance.valid.unwind_eq_run (by omega)

/-- The searches for some roots are the visits of those roots. -/
theorem Walk.Valid.searches_eq_visits {roots : List String} (hvalid : walk.Valid modules)
    (hframes : walk.frames = []) (henabled : ∀ root ∈ roots, Enabled modules root) {fuel : Nat}
    (hfuel : walk.remaining ≤ fuel) :
    roots.foldlM (fun colouring root => reached (search (enabled modules) root root colouring))
        walk.colouring = (roots.foldlM (Walk.visit fuel) walk).map Walk.colouring := by
  induction roots generalizing walk with
  | nil => rfl
  | cons root roots ih =>
    have hroot := henabled root List.mem_cons_self
    rw [List.foldlM_cons, List.foldlM_cons, hvalid.search_eq_visit hframes hroot hfuel]
    have hvisits := hvalid.visit hframes hroot hfuel
    cases hresult : walk.visit fuel root with
    | error error => rfl
    | ok middle =>
      obtain ⟨hcompletes, _⟩ := hvisits.of_ok hresult
      have hremaining := hcompletes.remaining_le
      exact ih hcompletes.valid hcompletes.frames_eq
        (fun other hother => henabled other (List.mem_cons_of_mem root hother)) (by omega)

/-- The walk has the very result of the search: the same order, or the same error about the same
modules. -/
theorem resolve_eq_searchAll (modules : OrderedMap String Module) :
    resolve modules = searchAll modules := by
  have hstart : ({} : Colouring) = Walk.colouring ⟨enabled modules, ∅, [], []⟩ := rfl
  have hroots (root : String) (hroot : root ∈ (enabled modules).keys) : Enabled modules root :=
    mem_keys_enabled.mp hroot
  have hsearches := (Walk.Valid.start modules).searches_eq_visits rfl hroots
    (Nat.le_of_eq (remaining_start modules))
  unfold searchAll resolve
  dsimp only
  rw [hstart, hsearches]
  generalize (enabled modules).keys.foldlM (Walk.visit (stepBound modules))
    ⟨enabled modules, ∅, [], []⟩ = result
  cases result with
  | error error => rfl
  | ok last => rfl

end TerraStack.Order
