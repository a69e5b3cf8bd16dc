import Mathlib.Data.List.Infix
import Mathlib.Data.List.Nodup
import Mathlib.Data.List.Perm.Subperm
import TerraStack.Proofs.Order.Resolve

namespace TerraStack.Order

variable {modules : OrderedMap String Module}

/-- What a walk does: it puts a module on the path, or it takes a step with the innermost frame. A
step looks at the first need that the frame has left, or finishes the module if there is none, so
each occurrence of a need has a step of its own. -/
inductive Move where
  | enter (name : String)
  | step (frame : Frame)
  deriving Repr, DecidableEq

/-- The module that a move is made for. -/
def Move.owner : Move → String
  | .enter name => name
  | .step frame => frame.name

/-- Whether a move is a step of a frame. -/
def Move.isStep : Move → Bool
  | .enter _ => false
  | .step _ => true

/-- The modules that are put on the path between one walk and the next. -/
def Walk.addedToPath (walk next : Walk) : List Move :=
  (next.frames.take (next.frames.length - walk.frames.length)).map fun frame => .enter frame.name

/-- The moves of the loop of a visit, and what it ends with: the path gets empty or a step fails. A
loop is related to its result without any bound on its steps. -/
inductive Walk.Loop : Walk → List Move → Except StackError Walk → Prop where
  | ends {walk : Walk} (hframes : walk.frames = []) : Loop walk [] (.ok walk)
  | fails {walk : Walk} {frame : Frame} {outer : List Frame} {error : StackError}
      (hframes : walk.frames = frame :: outer) (hstep : walk.step frame outer = .error error) :
      Loop walk [.step frame] (.error error)
  | goesOn {walk next : Walk} {frame : Frame} {outer : List Frame} {moves : List Move}
      {result : Except StackError Walk} (hframes : walk.frames = frame :: outer)
      (hstep : walk.step frame outer = .ok next) (hrest : Loop next moves result) :
      Loop walk (.step frame :: (walk.addedToPath next ++ moves)) result

/-- The moves of the visits of one root after another, and what they end with. A visit is refused if
its root cannot be entered, and fails if its loop does. -/
inductive Walk.Visits : Walk → List String → List Move → Except StackError Walk → Prop where
  | ends {walk : Walk} : Visits walk [] [] (.ok walk)
  | refused {walk : Walk} {root : String} {roots : List String} {error : StackError}
      (henter : walk.enter root root = .error error) : Visits walk (root :: roots) [] (.error error)
  | fails {walk entered : Walk} {root : String} {roots : List String} {moves : List Move}
      {error : StackError} (henter : walk.enter root root = .ok entered)
      (hloop : entered.Loop moves (.error error)) :
      Visits walk (root :: roots) (walk.addedToPath entered ++ moves) (.error error)
  | goesOn {walk entered middle : Walk} {root : String} {roots : List String}
      {moves more : List Move} {result : Except StackError Walk}
      (henter : walk.enter root root = .ok entered) (hloop : entered.Loop moves (.ok middle))
      (hrest : Visits middle roots more result) :
      Visits walk (root :: roots) (walk.addedToPath entered ++ moves ++ more) result

/-- The steps that a frame has left: one for each need and one to finish the module. -/
def movesFrom (frame : Frame) : List Move :=
  frame.needs.tails.map fun left => .step ⟨frame.name, left⟩

/-- The moves for one module, if it is enabled. -/
def movesFor (entry : String × Module) : List Move :=
  .enter entry.1 :: movesFrom ⟨entry.1, entry.2.dependsOn⟩

/-- The moves for all modules that are enabled. -/
def allMoves (modules : OrderedMap String Module) : List Move :=
  (enabled modules).entries.flatMap movesFor

/-- The moves that a walk makes if it meets no error and every module is visited. A move is ahead no
longer once it is made: the length of the path may rise and fall, but the moves ahead only get
fewer. -/
def Walk.ahead (walk : Walk) : List Move :=
  (untouched walk.marks walk.modules.entries).flatMap movesFor ++ walk.frames.flatMap movesFrom

theorem movesFrom_nil (name : String) : movesFrom ⟨name, []⟩ = [.step ⟨name, []⟩] := rfl

theorem movesFrom_cons (name need : String) (needs : List String) :
    movesFrom ⟨name, need :: needs⟩ = .step ⟨name, need :: needs⟩ :: movesFrom ⟨name, needs⟩ := by
  unfold movesFrom
  rw [List.tails_cons, List.map_cons]

/-- The moves from a frame are the steps with what is left of its needs, now or later. -/
theorem mem_movesFrom {frame : Frame} {move : Move} :
    move ∈ movesFrom frame ↔ ∃ left, left <:+ frame.needs ∧ move = .step ⟨frame.name, left⟩ := by
  simp only [movesFrom, List.mem_map, List.mem_tails, eq_comm]

/-- No two steps of a frame are the same, for each has fewer needs left. -/
theorem nodup_movesFrom (name : String) (needs : List String) : (movesFrom ⟨name, needs⟩).Nodup := by
  induction needs with
  | nil => exact List.nodup_singleton _
  | cons need needs ih =>
    rw [movesFrom_cons, List.nodup_cons]
    refine ⟨fun hmem => ?_, ih⟩
    -- A step for the longer list would be one for an end of the shorter.
    obtain ⟨left, hsuffix, hmove⟩ := mem_movesFrom.mp hmem
    have hleft : need :: needs = left := congrArg Frame.needs (Move.step.inj hmove)
    have hlength : left.length ≤ needs.length := hsuffix.length_le
    rw [← hleft, List.length_cons] at hlength
    omega

theorem nodup_movesFor (entry : String × Module) : (movesFor entry).Nodup := by
  refine List.nodup_cons.mpr ⟨fun hmem => ?_, nodup_movesFrom _ _⟩
  obtain ⟨_, _, hmove⟩ := mem_movesFrom.mp hmem
  cases hmove

/-- The moves for a module are made for it. -/
theorem owner_of_mem_movesFor {entry : String × Module} {move : Move} (hmem : move ∈ movesFor entry) :
    move.owner = entry.1 := by
  rcases List.mem_cons.mp hmem with rfl | hmem
  · rfl
  · obtain ⟨_, _, rfl⟩ := mem_movesFrom.mp hmem
    rfl

/-- No two moves for all modules are the same, for two modules have two names. -/
theorem nodup_allMoves (modules : OrderedMap String Module) : (allMoves modules).Nodup := by
  refine List.nodup_flatMap.mpr ⟨fun entry _ => nodup_movesFor entry, ?_⟩
  have hdistinct := List.pairwise_map.mp (enabled modules).distinct
  refine hdistinct.imp fun hne move hmem hmem' => hne ?_
  rw [← owner_of_mem_movesFor hmem, owner_of_mem_movesFor hmem']

/-- A module takes one step for each of its needs and one to be finished. -/
theorem countP_movesFor (entry : String × Module) :
    (movesFor entry).countP Move.isStep = entry.2.dependsOn.length + 1 := by
  have hall : (movesFrom ⟨entry.1, entry.2.dependsOn⟩).countP Move.isStep =
      (movesFrom ⟨entry.1, entry.2.dependsOn⟩).length := by
    refine List.countP_eq_length.mpr fun move hmem => ?_
    obtain ⟨_, _, rfl⟩ := mem_movesFrom.mp hmem
    rfl
  unfold movesFor
  rw [List.countP_cons_of_neg Bool.false_ne_true, hall]
  simp only [movesFrom, List.length_map, List.length_tails]

/-- One step for each enabled module and one for each of its needs. -/
theorem countP_allMoves (modules : OrderedMap String Module) :
    (allMoves modules).countP Move.isStep =
      (enabled modules).keys.length + ((enabled modules).values.flatMap Module.dependsOn).length := by
  unfold allMoves OrderedMap.keys OrderedMap.values
  induction (enabled modules).entries with
  | nil => rfl
  | cons entry entries ih =>
    simp only [List.flatMap_cons, List.countP_append, ih, countP_movesFor, List.map_cons,
      List.length_cons, List.length_append]
    omega

/-- Before the first step the moves for all modules are ahead. -/
theorem ahead_start (modules : OrderedMap String Module) :
    Walk.ahead ⟨enabled modules, ∅, [], []⟩ = allMoves modules := by
  have huntouched : untouched ∅ (enabled modules).entries = (enabled modules).entries :=
    List.filter_eq_self.mpr fun entry _ => rfl
  simp only [Walk.ahead, huntouched, allMoves, List.flatMap_nil, List.append_nil]

/-- A step that does not lengthen the path puts nothing on it. -/
theorem Walk.addedToPath_of_le {walk next : Walk} (hlength : next.frames.length ≤ walk.frames.length) :
    walk.addedToPath next = [] := by
  rw [Walk.addedToPath, Nat.sub_eq_zero_of_le hlength, List.take_zero, List.map_nil]

/-- The module that is put on the path was ahead of the walk, and its steps still are. -/
theorem Walk.ahead_enter {walk next : Walk} {referrer name : String}
    (henter : walk.enter referrer name = .ok next) :
    walk.ahead.Perm (walk.addedToPath next ++ next.ahead) := by
  have hentered := entered_enter walk referrer name
  rw [henter] at hentered
  cases hentered with
  | done _ =>
    rw [Walk.addedToPath_of_le (Nat.le_refl _)]
    exact .refl _
  | @pushed module hunmarked hmodule =>
    have huntouched := (untouched_perm_insert hunmarked hmodule .inProgress).flatMap_right movesFor
    refine (huntouched.append_right (walk.frames.flatMap movesFrom)).trans ?_
    simp only [Walk.ahead, Walk.addedToPath, List.length_cons, Nat.add_sub_cancel_left, List.take_succ_cons,
      List.take_zero, List.map_cons, List.map_nil, List.flatMap_cons, movesFor, List.cons_append,
      List.nil_append, List.append_assoc]
    exact .cons _ (List.perm_append_comm_assoc _ _ _)

/-- Nothing is ahead of a walk without a path if every module has a mark. -/
theorem Walk.ahead_eq_nil {walk : Walk} (hframes : walk.frames = [])
    (hmarked : ∀ name ∈ walk.modules.keys, walk.marks.find? name ≠ none) : walk.ahead = [] := by
  have huntouched : untouched walk.marks walk.modules.entries = [] := by
    refine List.filter_eq_nil_iff.mpr fun entry hentry hunmarked => ?_
    exact hmarked entry.1 (List.mem_map_of_mem hentry) (Option.isNone_iff_eq_none.mp hunmarked)
  rw [Walk.ahead, huntouched, hframes]
  rfl

/-- The next step of the innermost frame is ahead of the walk. -/
theorem Walk.step_mem_ahead {walk : Walk} {frame : Frame} {outer : List Frame}
    (hframes : walk.frames = frame :: outer) : .step frame ∈ walk.ahead := by
  refine List.mem_append_right _ (List.mem_flatMap.mpr ⟨frame, ?_, ?_⟩)
  · rw [hframes]
    exact List.mem_cons_self
  · exact mem_movesFrom.mpr ⟨frame.needs, List.suffix_refl _, rfl⟩

/-- A step of a walk is ahead of it no longer, and neither are the modules that it puts on the path. -/
theorem Walk.Valid.ahead_step {walk next : Walk} {frame : Frame} {outer : List Frame}
    (hvalid : walk.Valid modules) (hframes : walk.frames = frame :: outer)
    (hstep : walk.step frame outer = .ok next) :
    walk.ahead.Perm (.step frame :: (walk.addedToPath next ++ next.ahead)) := by
  obtain ⟨name, needs⟩ := frame
  cases needs with
  | nil =>
    have hmark : walk.marks.find? name = some .inProgress :=
      (hvalid.inProgress_iff name).mpr (by simp [hframes])
    obtain rfl := Except.ok.inj hstep
    rw [Walk.addedToPath_of_le (by simp [hframes])]
    simp only [Walk.ahead, untouched_insert_of_marked hmark, hframes, List.flatMap_cons, movesFrom_nil,
      List.nil_append, List.singleton_append]
    exact List.perm_middle
  | cons need needs =>
    -- The frame goes behind its need first, and the need is entered from there.
    have henter : Walk.enter { walk with frames := ⟨name, needs⟩ :: outer } name need = .ok next := hstep
    have hlook : walk.ahead.Perm (.step ⟨name, need :: needs⟩ ::
        Walk.ahead { walk with frames := ⟨name, needs⟩ :: outer }) := by
      simp only [Walk.ahead, hframes, List.flatMap_cons, movesFrom_cons, List.cons_append]
      exact List.perm_middle
    have hadded : Walk.addedToPath { walk with frames := ⟨name, needs⟩ :: outer } next =
        walk.addedToPath next := by
      simp only [Walk.addedToPath, hframes, List.length_cons]
    have hentered := Walk.ahead_enter henter
    rw [hadded] at hentered
    exact hlook.trans (.cons _ hentered)

/-- The moves were ahead of the walk, each as often as it is made. Without an error they are all but
those that are still ahead of the last walk. -/
def Walk.Spends (walk : Walk) (moves : List Move) : Except StackError Walk → Prop
  | .ok last => walk.ahead.Perm (moves ++ last.ahead)
  | .error _ => moves.Subperm walk.ahead

/-- Moves that were ahead may be made before others that were. -/
theorem Walk.Spends.after {walk middle : Walk} {first moves : List Move}
    {result : Except StackError Walk} (hspends : middle.Spends moves result)
    (hfirst : walk.ahead.Perm (first ++ middle.ahead)) : walk.Spends (first ++ moves) result := by
  cases result with
  | ok last =>
    have hsecond : (first ++ middle.ahead).Perm (first ++ (moves ++ last.ahead)) :=
      List.Perm.append_left first hspends
    rw [← List.append_assoc] at hsecond
    exact hfirst.trans hsecond
  | error error =>
    have hsecond : (first ++ moves).Subperm (first ++ middle.ahead) :=
      (List.subperm_append_left first).mpr hspends
    exact hsecond.trans hfirst.symm.subperm

/-- A frame has a step left. -/
theorem Walk.ne_zero_of_remaining_le {walk : Walk} {frame : Frame} {outer : List Frame} {fuel : Nat}
    (hframes : walk.frames = frame :: outer) (hfuel : walk.remaining ≤ fuel) : fuel ≠ 0 := by
  simp only [Walk.remaining, hframes, pendingSteps] at hfuel
  omega

namespace Walk.Loop

variable {walk : Walk} {moves : List Move} {result : Except StackError Walk}

/-- A loop makes moves that were ahead of its walk. -/
theorem spends (hloop : walk.Loop moves result) (hvalid : walk.Valid modules) :
    walk.Spends moves result := by
  induction hloop with
  | ends _ => exact .refl _
  | fails hframes _ => exact List.singleton_subperm_iff.mpr (Walk.step_mem_ahead hframes)
  | goesOn hframes hstep _ ih =>
    have hadvance := (hvalid.step hframes).of_ok hstep
    rw [← List.cons_append]
    exact (ih hadvance.valid).after (hvalid.ahead_step hframes hstep)

/-- A walk that may take all steps it has left does what its loop does. -/
theorem run_eq {fuel : Nat} (hloop : walk.Loop moves result) (hvalid : walk.Valid modules)
    (hfuel : walk.remaining ≤ fuel) : walk.run fuel = result := by
  induction hloop generalizing fuel with
  | ends hframes =>
    cases fuel with
    | zero => rfl
    | succ fuel => rw [Walk.run, hframes]
  | @fails walk frame outer error hframes hstep =>
    obtain ⟨fuel, rfl⟩ := Nat.exists_eq_succ_of_ne_zero (Walk.ne_zero_of_remaining_le hframes hfuel)
    simp only [Walk.run, hframes, hstep]
    rfl
  | @goesOn walk next frame outer moves result hframes hstep hrest ih =>
    obtain ⟨fuel, rfl⟩ := Nat.exists_eq_succ_of_ne_zero (Walk.ne_zero_of_remaining_le hframes hfuel)
    have hadvance := (hvalid.step hframes).of_ok hstep
    have hremaining := hadvance.remaining
    simp only [Walk.run, hframes, hstep]
    exact ih hadvance.valid (by omega)

/-- A visit that enters its root does what the loop from there does, with as many steps as the walk
has left. -/
theorem visit_eq {start : Walk} {root : String} {fuel : Nat} (hloop : walk.Loop moves result)
    (henter : start.enter root root = .ok walk) (hvalid : walk.Valid modules)
    (hfuel : walk.remaining ≤ fuel) : start.visit fuel root = result := by
  rw [Walk.visit, henter]
  exact hloop.run_eq hvalid hfuel

/-- A loop without an error ends a walk of its own. -/
theorem completes {last : Walk} (hloop : walk.Loop moves (.ok last)) (hvalid : walk.Valid modules) :
    Walk.Completes modules walk last :=
  (hvalid.run (Nat.le_refl _)).of_ok (hloop.run_eq hvalid (Nat.le_refl _))

end Walk.Loop

/-- Every loop ends: each step leaves one less to be taken. -/
theorem Walk.Valid.exists_loop {walk : Walk} (hvalid : walk.Valid modules) :
    ∃ moves result, walk.Loop moves result := by
  induction hsteps : walk.remaining generalizing walk with
  | zero =>
    cases hframes : walk.frames with
    | nil => exact ⟨_, _, .ends hframes⟩
    | cons frame outer => exact absurd rfl (Walk.ne_zero_of_remaining_le hframes (Nat.le_of_eq hsteps))
  | succ steps ih =>
    cases hframes : walk.frames with
    | nil => exact ⟨_, _, .ends hframes⟩
    | cons frame outer =>
      cases hstep : walk.step frame outer with
      | error error => exact ⟨_, _, .fails hframes hstep⟩
      | ok next =>
        have hadvance := (hvalid.step hframes).of_ok hstep
        have hremaining := hadvance.remaining
        obtain ⟨moves, result, hrest⟩ := ih hadvance.valid (by omega)
        exact ⟨_, _, .goesOn hframes hstep hrest⟩

namespace Walk.Visits

variable {walk : Walk} {roots : List String} {moves : List Move} {result : Except StackError Walk}

/-- Visits make moves that were ahead of the first walk. -/
theorem spends (hvisits : walk.Visits roots moves result) (hvalid : walk.Valid modules)
    (hframes : walk.frames = []) (henabled : ∀ root ∈ roots, Enabled modules root) :
    walk.Spends moves result := by
  induction hvisits with
  | ends => exact .refl _
  | refused _ => exact List.nil_subperm
  | fails henter hloop =>
    have hentered := (hvalid.enter_root hframes (henabled _ List.mem_cons_self)).of_ok henter
    exact (hloop.spends hentered.1.valid).after (Walk.ahead_enter henter)
  | goesOn henter hloop _ ih =>
    have hentered := (hvalid.enter_root hframes (henabled _ List.mem_cons_self)).of_ok henter
    have hcompletes := hloop.completes hentered.1.valid
    have hmiddle := (hloop.spends hentered.1.valid).after (Walk.ahead_enter henter)
    have hrest := ih hcompletes.valid hcompletes.frames_eq
      fun root hroot => henabled root (List.mem_cons_of_mem _ hroot)
    exact hrest.after hmiddle

/-- The visits of all roots, bounded by the steps that are left, do what the unbounded ones do. -/
theorem foldlM_eq {fuel : Nat} (hvisits : walk.Visits roots moves result) (hvalid : walk.Valid modules)
    (hframes : walk.frames = []) (henabled : ∀ root ∈ roots, Enabled modules root)
    (hfuel : walk.remaining ≤ fuel) : roots.foldlM (Walk.visit fuel) walk = result := by
  induction hvisits with
  | ends => rfl
  | refused henter =>
    rw [List.foldlM_cons, Walk.visit, henter]
    rfl
  | fails henter hloop =>
    have hentered := (hvalid.enter_root hframes (henabled _ List.mem_cons_self)).of_ok henter
    have hremaining := hentered.1.remaining
    rw [List.foldlM_cons, hloop.visit_eq henter hentered.1.valid (by omega)]
    rfl
  | goesOn henter hloop _ ih =>
    have hentered := (hvalid.enter_root hframes (henabled _ List.mem_cons_self)).of_ok henter
    have hremaining := hentered.1.remaining
    have hcompletes := (hloop.completes hentered.1.valid).after hentered.1
    rw [List.foldlM_cons, hloop.visit_eq henter hentered.1.valid (by omega)]
    exact ih hcompletes.valid hcompletes.frames_eq
      (fun root hroot => henabled root (List.mem_cons_of_mem _ hroot))
      (Nat.le_trans hcompletes.remaining_le hfuel)

end Walk.Visits

/-- Roots can always be visited one after another, to the last one or to an error. -/
theorem Walk.Valid.exists_visits {walk : Walk} {roots : List String} (hvalid : walk.Valid modules)
    (hframes : walk.frames = []) (henabled : ∀ root ∈ roots, Enabled modules root) :
    ∃ moves result, walk.Visits roots moves result := by
  induction roots generalizing walk with
  | nil => exact ⟨_, _, .ends⟩
  | cons root roots ih =>
    cases henter : walk.enter root root with
    | error error => exact ⟨_, _, .refused henter⟩
    | ok entered =>
      have hentered := (hvalid.enter_root hframes (henabled root List.mem_cons_self)).of_ok henter
      obtain ⟨moves, result, hloop⟩ := hentered.1.valid.exists_loop
      cases result with
      | error error => exact ⟨_, _, .fails henter hloop⟩
      | ok middle =>
        have hcompletes := hloop.completes hentered.1.valid
        obtain ⟨more, result, hrest⟩ := ih hcompletes.valid hcompletes.frames_eq
          fun other hother => henabled other (List.mem_cons_of_mem root hother)
        exact ⟨_, _, .goesOn henter hloop hrest⟩

/-- The walk over all enabled modules, from where nothing is marked. -/
def WalksAll (modules : OrderedMap String Module) (moves : List Move)
    (result : Except StackError Walk) : Prop :=
  Walk.Visits ⟨enabled modules, ∅, [], []⟩ (enabled modules).keys moves result

namespace WalksAll

variable {moves : List Move} {result : Except StackError Walk}

/-- The bound that is given to the visits of all modules is never met. -/
theorem foldlM_eq (hwalks : WalksAll modules moves result) :
    (enabled modules).keys.foldlM (Walk.visit (stepBound modules)) ⟨enabled modules, ∅, [], []⟩ =
      result :=
  Walk.Visits.foldlM_eq hwalks (.start modules) rfl (fun _ => mem_keys_enabled.mp)
    (Nat.le_of_eq (remaining_start modules))

/-- The order of the modules, or the error, is what the walk without bounds ends with. -/
theorem resolve_eq (hwalks : WalksAll modules moves result) :
    resolve modules = result.map (·.finished.reverse) := by
  unfold resolve
  simp only [hwalks.foldlM_eq]
  cases result <;> rfl

theorem spends (hwalks : WalksAll modules moves result) :
    Walk.Spends ⟨enabled modules, ∅, [], []⟩ moves result :=
  Walk.Visits.spends hwalks (.start modules) rfl fun _ => mem_keys_enabled.mp

/-- No move of the walk is made more often than it was ahead at the start. -/
theorem subperm (hwalks : WalksAll modules moves result) : moves.Subperm (allMoves modules) := by
  have hspends := hwalks.spends
  rw [← ahead_start]
  cases result with
  | ok last => exact (List.sublist_append_left moves last.ahead).subperm.trans hspends.symm.subperm
  | error error => exact hspends

/-- If no error is met, every module is visited, so no move is left. -/
theorem perm {last : Walk} (hwalks : WalksAll modules moves (.ok last)) :
    moves.Perm (allMoves modules) := by
  have hvisits := (Walk.Valid.start modules).visits rfl (fun _ => mem_keys_enabled.mp)
    (Nat.le_of_eq (remaining_start modules))
  obtain ⟨hcompletes, hfinished⟩ := hvisits.of_ok hwalks.foldlM_eq
  have hmarked : ∀ name ∈ last.modules.keys, last.marks.find? name ≠ none := by
    intro name hname
    rw [hcompletes.valid.modules_eq] at hname
    rw [(hcompletes.valid.done_iff name).mpr (hfinished name hname)]
    exact Option.some_ne_none Mark.done
  have hspends : (Walk.ahead ⟨enabled modules, ∅, [], []⟩).Perm (moves ++ last.ahead) := hwalks.spends
  rw [ahead_start, Walk.ahead_eq_nil hcompletes.frames_eq hmarked, List.append_nil] at hspends
  exact hspends.symm

/-- No move is made twice. -/
theorem nodup (hwalks : WalksAll modules moves result) : moves.Nodup := by
  obtain ⟨some, hperm, hsublist⟩ := hwalks.subperm
  exact hperm.nodup_iff.mp ((nodup_allMoves modules).sublist hsublist)

end WalksAll

/-- The walk ends, whatever the modules need, and no loop was given a bound. No move is made twice:
each enabled module is put on the path at most once, and each of its needs is looked at at most
once. So the loops take at most one step for each enabled module and one for each of its needs, and
exactly as many if an order is found. -/
theorem resolve_moves (modules : OrderedMap String Module) :
    (∃ moves result, WalksAll modules moves result) ∧
    ∀ moves result, WalksAll modules moves result →
      let steps := (enabled modules).keys.length +
        ((enabled modules).values.flatMap Module.dependsOn).length
      resolve modules = result.map (·.finished.reverse) ∧
      moves.Nodup ∧ moves ⊆ allMoves modules ∧ moves.countP Move.isStep ≤ steps ∧
      ((∃ order, resolve modules = .ok order) →
        moves.Perm (allMoves modules) ∧ moves.countP Move.isStep = steps) := by
  refine ⟨(Walk.Valid.start modules).exists_visits rfl fun _ => mem_keys_enabled.mp, ?_⟩
  intro moves result hwalks steps
  have hsteps : (allMoves modules).countP Move.isStep = steps := countP_allMoves modules
  refine ⟨hwalks.resolve_eq, hwalks.nodup, hwalks.subperm.subset, ?_, ?_⟩
  · rw [← hsteps]
    exact hwalks.subperm.countP_le Move.isStep
  · rintro ⟨order, horder⟩
    rw [hwalks.resolve_eq] at horder
    cases result with
    | error error => cases horder
    | ok last => exact ⟨hwalks.perm, (hwalks.perm.countP_eq Move.isStep).trans hsteps⟩

end TerraStack.Order
