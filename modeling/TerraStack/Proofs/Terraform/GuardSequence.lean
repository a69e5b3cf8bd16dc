import TerraStack.Proofs.Terraform.Destruction
import TerraStack.Proofs.Terraform.Listings
import TerraStack.Terraform.Rehearsal

namespace TerraStack.Terraform.Lifecycle

open Procedure

/-- What is done before the resources are known. -/
def openingActions (workspace : String) : List Action :=
  .run listWorkspacesArgs ::
    ((if workspace = defaultWorkspace then [] else [.run (selectArgs workspace)]) ++
      [.run listResourcesArgs])

/-- What is asked before the resources of a workspace are destroyed. -/
def confirmingActions (workspace : String) (resources : Nat) : List Action :=
  .ask (destroyQuestion resources workspace) ::
    if isProduction workspace = true then [.ask productionQuestion] else []

/-- What is done once the resources are known. -/
def removalActions (workspace : String) (resources : Nat) : List Action :=
  .run planDestroyArgs :: (confirmingActions workspace resources ++ [.run destroyArgs])

/-- What a destruction does if nothing stops it, word by word. -/
def destructionActions (workspace : String) (resources : Nat) : List Action :=
  [.run ["workspace", "list"]] ++
    (if workspace = "default" then [] else [.run ["workspace", "select", workspace]]) ++
    [.run ["state", "list"], .run ["plan", "-destroy", "-input=false", "-var-file=../terraform.tfvars"],
      .ask (.yesNo
        ("Destroy " ++ toString resources ++ " resources in '" ++ workspace ++ "' workspace?"))] ++
    (if IsProductionName workspace then
      [.ask (.phrase "This is a production workspace." "destroy-production")]
    else []) ++
    [.run ["destroy", "-input=false", "-var-file=../terraform.tfvars", "-auto-approve"]]

/-- The commands that a destruction runs if nothing stops it. -/
def destructionCommands (workspace : String) : List (List String) :=
  [["workspace", "list"]] ++
    (if workspace = "default" then [] else [["workspace", "select", workspace]]) ++
    [["state", "list"], ["plan", "-destroy", "-input=false", "-var-file=../terraform.tfvars"],
      ["destroy", "-input=false", "-var-file=../terraform.tfvars", "-auto-approve"]]

/-- The resources were listed with success, on so many lines. -/
def CountedAs (events : List Event) (resources : Nat) : Prop :=
  ∃ output, Succeeded events listResourcesArgs output ∧ filledLines output.stdout = resources

/-- Every guard before the destruction of a workspace passed, and the phrase was asked for behind
the question. -/
structure GuardsPassed (initialized : Bool) (workspace : String) (resources : Nat)
    (events : List Event) : Prop where
  initialized : initialized = true
  known : ∃ listing, Succeeded events listWorkspacesArgs listing ∧ Names listing.stdout workspace
  selected : workspace ≠ defaultWorkspace → ∃ output, Succeeded events (selectArgs workspace) output
  counted : CountedAs events resources
  nonempty : 0 < resources
  planned : ∃ output, Succeeded events planDestroyArgs output
  agreed : .asked (destroyQuestion resources workspace) true ∈ events
  phrased : IsProductionName workspace →
    [.asked (destroyQuestion resources workspace) true, .asked productionQuestion true].Sublist events

/-- The guard at which a destruction ended, and the error of that guard. Nothing was done behind it:
an event that a guard refuses is the last one. -/
inductive FirstRefusal (directory : String) (initialized : Bool) (workspace : String)
    (events : List Event) : Error → Prop where
  | uninitialized (hinitialized : initialized = false) (hevents : events = []) :
      FirstRefusal directory initialized workspace events (.notInitialized directory)
  | unknown {listing : CommandOutput} (hlisting : listing.exitCode = 0)
      (hlast : events.getLast? = some (.ran listWorkspacesArgs (.ok listing)))
      (hunknown : ¬ Names listing.stdout workspace) :
      FirstRefusal directory initialized workspace events (.workspaceNotFound workspace)
  | failed {args : List String} {result : Except Error CommandOutput} {error : Error}
      (hlast : events.getLast? = some (.ran args result)) (hfails : FailsWith result error) :
      FirstRefusal directory initialized workspace events error
  | declined {resources : Nat}
      (hlast : events.getLast? = some (.asked (destroyQuestion resources workspace) false)) :
      FirstRefusal directory initialized workspace events (.aborted "destroy declined")
  | phraseDeclined (hlast : events.getLast? = some (.asked productionQuestion false)) :
      FirstRefusal directory initialized workspace events (.aborted "production destroy declined")

/-- What the guards make of a destruction with its events and its result: it is told by its events alone
which result a destruction has, and how far it goes.

What counts as a guard is said of the texts that terraform prints and of its exit codes, whatever way they
are read. -/
structure GuardSequence (directory : String) (initialized : Bool) (workspace : String)
    (events : List Event) (outcome : Except Error DestroyOutcome) : Prop where
  commands_isPrefix : commandsOf events <+: destructionCommands workspace
  /-- Commands and questions keep to one order, and the question tells what was counted. -/
  actions_isPrefix : ∃ resources, (∀ count, CountedAs events count → count = resources) ∧
    events.map Event.action <+: destructionActions workspace resources
  passed : ∀ event ∈ events.dropLast, event.Passed
  destroy_count_le_one : (commandsOf events).count destroyArgs ≤ 1
  destroy_iff : destroyArgs ∈ commandsOf events ↔
    ∃ resources, GuardsPassed initialized workspace resources events
  destroyed_iff : ∀ resources, outcome = .ok (.destroyed resources) ↔
    CountedAs events resources ∧ ∃ output, Succeeded events destroyArgs output
  nothing_iff : outcome = .ok .nothingToDestroy ↔ CountedAs events 0
  error_iff : ∀ error, outcome = .error error ↔
    FirstRefusal directory initialized workspace events error

/-- An event whose action was not done did not happen. -/
theorem not_mem_of_action {event : Event} {events : List Event}
    (haction : event.action ∉ events.map Event.action) : event ∉ events :=
  fun hmem => haction (List.mem_map_of_mem hmem)

/-- A command that ran but once and failed did not succeed. -/
theorem not_succeeded_of_last_fails {before : List Event} {args : List String}
    {result : Except Error CommandOutput} {error : Error}
    (hfresh : .run args ∉ before.map Event.action)
    (hfails : result.bind CommandOutput.checked = .error error) (output : CommandOutput) :
    ¬ Succeeded (before ++ [.ran args result]) args output := by
  rintro ⟨hmem, hsuccess⟩
  rcases List.mem_append.mp hmem with hbefore | hlast
  · exact not_mem_of_action hfresh hbefore
  · cases List.mem_singleton.mp hlast
    rw [checked_eq_ok_iff.mpr ⟨rfl, hsuccess⟩] at hfails
    cases hfails

/-- Where the last command succeeded no command that came last failed. -/
theorem not_failsWith_of_last_succeeds {events : List Event} {args other : List String}
    {output : CommandOutput} {result : Except Error CommandOutput} {error : Error}
    (hsuccess : output.exitCode = 0) (hlast : events.getLast? = some (.ran args (.ok output)))
    (hother : events.getLast? = some (.ran other result)) : ¬ FailsWith result error := by
  rw [hlast] at hother
  cases hother
  have hpassed : (Event.ran args (.ok output)).Passed := ⟨output, rfl, hsuccess⟩
  exact hpassed.not_failsWith

/-- A question that was asked but once and declined was not agreed to. -/
theorem not_agreed_of_last_declined {before : List Event} {question : Question}
    (hfresh : .ask question ∉ before.map Event.action) :
    .asked question true ∉ before ++ [.asked question false] := by
  intro hmem
  rcases List.mem_append.mp hmem with hbefore | hlast
  · exact not_mem_of_action hfresh hbefore
  · cases List.mem_singleton.mp hlast

/-- The default workspace is not selected, and any other by one command. -/
theorem Selected.actions {workspace : String} {events : List Event}
    (hselected : Selected workspace events) :
    events.map Event.action =
      if workspace = defaultWorkspace then [] else [.run (selectArgs workspace)] := by
  cases hselected with
  | needless hdefault => rw [if_pos hdefault]; rfl
  | selected hother _ => rw [if_neg hother]; rfl

/-- The phrase is asked for in production and nowhere else. -/
theorem Phrased.actions {workspace : String} {events : List Event}
    (hphrased : Phrased workspace events) :
    events.map Event.action =
      if isProduction workspace = true then [.ask productionQuestion] else [] := by
  cases hphrased with
  | needless hproduction => rw [if_neg (by simp [hproduction])]; rfl
  | given hproduction => rw [if_pos hproduction]; rfl

/-- What is done before the resources are known is the beginning of the sequence. -/
theorem Counting.actions {initialized : Bool} {workspace : String} {resources : Nat}
    {opening : List Event} (hcounting : Counting initialized workspace resources opening) :
    opening.map Event.action = openingActions workspace := by
  obtain ⟨_, _, _, hselected, _, _⟩ := hcounting
  rw [List.map_cons, List.map_append, hselected.actions]
  rfl

/-- The sequence is what comes before the resources are known, and what comes behind that. -/
theorem destructionActions_eq (workspace : String) (resources : Nat) :
    destructionActions workspace resources =
      openingActions workspace ++ removalActions workspace resources := by
  have hphrase : (if IsProductionName workspace then [Action.ask productionQuestion] else []) =
      if isProduction workspace = true then [.ask productionQuestion] else [] := by
    simp only [isProduction_iff]
  unfold destructionActions openingActions removalActions confirmingActions
  rw [← hphrase]
  simp only [List.cons_append, List.append_assoc, List.nil_append]
  rfl

theorem mem_openingActions {workspace : String} {action : Action} :
    action ∈ openingActions workspace ↔ action = .run listWorkspacesArgs ∨
      (workspace ≠ defaultWorkspace ∧ action = .run (selectArgs workspace)) ∨
        action = .run listResourcesArgs := by
  unfold openingActions
  by_cases hdefault : workspace = defaultWorkspace <;> simp [hdefault]

theorem mem_removalActions {workspace : String} {resources : Nat} {action : Action} :
    action ∈ removalActions workspace resources ↔ action = .run planDestroyArgs ∨
      action = .ask (destroyQuestion resources workspace) ∨
        (isProduction workspace = true ∧ action = .ask productionQuestion) ∨
          action = .run destroyArgs := by
  unfold removalActions confirmingActions
  cases hproduction : isProduction workspace <;> simp

/-- The resources are not listed again once they are known. -/
theorem run_listResourcesArgs_not_mem_removalActions (workspace : String) (resources : Nat) :
    .run listResourcesArgs ∉ removalActions workspace resources := by
  simp [mem_removalActions, listResourcesArgs, planDestroyArgs, destroyArgs]

/-- No destruction is planned before the resources are known. -/
theorem run_planDestroyArgs_not_mem_openingActions (workspace : String) :
    .run planDestroyArgs ∉ openingActions workspace := by
  simp [mem_openingActions, planDestroyArgs, listWorkspacesArgs, selectArgs, listResourcesArgs]

theorem run_destroyArgs_not_mem_openingActions (workspace : String) :
    .run destroyArgs ∉ openingActions workspace := by
  simp [mem_openingActions, destroyArgs, listWorkspacesArgs, selectArgs, listResourcesArgs]

theorem ask_not_mem_openingActions (workspace : String) (question : Question) :
    .ask question ∉ openingActions workspace := by
  simp [mem_openingActions]

/-- Only what was counted before is the count: nothing behind the count lists resources again. -/
theorem Counting.countedAs_iff {initialized : Bool} {workspace : String} {resources : Nat}
    {opening rest : List Event} (hcounting : Counting initialized workspace resources opening)
    (hrest : rest.map Event.action <+: removalActions workspace resources) (count : Nat) :
    CountedAs (opening ++ rest) count ↔ count = resources := by
  obtain @⟨listing, counting, selection, _, _, _, hselected, hsuccess, hresources⟩ := hcounting
  constructor
  · rintro ⟨output, ⟨hmem, _⟩, rfl⟩
    have hselection : Event.ran listResourcesArgs (.ok output) ∉ selection := by
      apply not_mem_of_action
      rw [hselected.actions]
      split <;> simp [Event.action, listResourcesArgs, selectArgs]
    have hbehind : Event.ran listResourcesArgs (.ok output) ∉ rest := not_mem_of_action fun haction =>
      run_listResourcesArgs_not_mem_removalActions workspace resources (hrest.subset haction)
    have heq : output = counting := by
      simp only [List.cons_append, List.append_assoc, List.nil_append, List.mem_cons,
        List.mem_append, Event.ran.injEq, Except.ok.injEq, true_and] at hmem
      rcases hmem with ⟨hargs, _⟩ | hmem | heq | hmem
      · simp [listResourcesArgs, listWorkspacesArgs] at hargs
      · exact absurd hmem hselection
      · exact heq
      · exact absurd hmem hbehind
    rw [heq, ← countResources_eq, hresources]
  · rintro rfl
    exact ⟨counting, ⟨by simp, hsuccess⟩, countResources_eq counting.stdout ▸ hresources⟩

/-- A count is a success of the command that lists resources. -/
theorem not_countedAs_of_action {events : List Event}
    (hactions : .run listResourcesArgs ∉ events.map Event.action) (count : Nat) :
    ¬ CountedAs events count := by
  rintro ⟨output, ⟨hmem, _⟩, _⟩
  exact not_mem_of_action hactions hmem

/-- With everything agreed to, too, the resources are those that were counted. -/
theorem Counting.countedAs_destroys_iff {initialized : Bool} {workspace : String} {resources : Nat}
    {opening phrase : List Event} (hcounting : Counting initialized workspace resources opening)
    (hphrased : Phrased workspace phrase) (planning : CommandOutput)
    (result : Except Error CommandOutput) (count : Nat) :
    CountedAs ((opening ++ .ran planDestroyArgs (.ok planning) ::
      .asked (destroyQuestion resources workspace) true :: phrase) ++ [.ran destroyArgs result]) count ↔
      count = resources := by
  rw [List.append_assoc, hcounting.countedAs_iff]
  simp [removalActions, confirmingActions, Event.action, hphrased.actions]

/-- Up to the last agreement nothing has been destroyed. -/
theorem Counting.run_destroyArgs_not_mem {initialized : Bool} {workspace : String} {resources : Nat}
    {opening phrase : List Event} (hcounting : Counting initialized workspace resources opening)
    (hphrased : Phrased workspace phrase) (planning : CommandOutput) :
    .run destroyArgs ∉ (opening ++ .ran planDestroyArgs (.ok planning) ::
      .asked (destroyQuestion resources workspace) true :: phrase).map Event.action := by
  rw [List.map_append, hcounting.actions, List.map_cons, List.map_cons, hphrased.actions,
    List.mem_append]
  rintro (hopening | hbehind)
  · exact run_destroyArgs_not_mem_openingActions workspace hopening
  · simp [Event.action, destroyArgs, planDestroyArgs] at hbehind

theorem Selected.passed {workspace : String} {events : List Event}
    (hselected : Selected workspace events) : ∀ event ∈ events, event.Passed := by
  intro event hmem
  cases hselected with
  | needless _ => cases hmem
  | selected _ hsuccess =>
    cases List.mem_singleton.mp hmem
    exact ⟨_, rfl, hsuccess⟩

theorem Phrased.passed {workspace : String} {events : List Event}
    (hphrased : Phrased workspace events) : ∀ event ∈ events, event.Passed := by
  intro event hmem
  cases hphrased with
  | needless _ => cases hmem
  | given _ =>
    cases List.mem_singleton.mp hmem
    rfl

theorem Counting.passed {initialized : Bool} {workspace : String} {resources : Nat}
    {opening : List Event} (hcounting : Counting initialized workspace resources opening) :
    ∀ event ∈ opening, event.Passed := by
  obtain ⟨_, hlisting, _, hselected, hsuccess, _⟩ := hcounting
  intro event hmem
  simp only [List.mem_cons, List.mem_append, List.not_mem_nil, or_false] at hmem
  rcases hmem with rfl | hselection | rfl
  · exact ⟨_, rfl, hlisting⟩
  · exact hselected.passed event hselection
  · exact ⟨_, rfl, hsuccess⟩

variable {directory workspace : String} {initialized : Bool} {events : List Event}
  {outcome : Except Error DestroyOutcome}

/-- Only the last way to end runs the destruction itself. -/
theorem Destruction.destroys_of_mem
    (hdestruction : Destruction directory initialized workspace events outcome)
    (hmem : .run destroyArgs ∈ events.map Event.action) :
    ∃ resources opening phrase planning result, Counting initialized workspace resources opening ∧
      0 < resources ∧ planning.exitCode = 0 ∧ Phrased workspace phrase ∧
      events = (opening ++ .ran planDestroyArgs (.ok planning) ::
        .asked (destroyQuestion resources workspace) true :: phrase) ++ [.ran destroyArgs result] ∧
      outcome = (result.bind CommandOutput.checked).map fun _ => .destroyed resources := by
  cases hdestruction with
  | uninitialized _ => cases hmem
  | listFails _ _ | unknown _ _ _ =>
    simp [Event.action, destroyArgs, listWorkspacesArgs] at hmem
  | selectFails _ _ _ _ _ =>
    simp [Event.action, destroyArgs, listWorkspacesArgs, selectArgs] at hmem
  | countFails _ _ _ hselected _ =>
    have hopening : Action.run destroyArgs ∈ openingActions workspace := by
      rw [List.map_append, List.map_cons, hselected.actions] at hmem
      exact hmem
    exact absurd hopening (run_destroyArgs_not_mem_openingActions workspace)
  | nothing hcounting =>
    rw [hcounting.actions] at hmem
    exact absurd hmem (run_destroyArgs_not_mem_openingActions workspace)
  | planFails hcounting _ _ | declined hcounting _ _ | phraseDeclined hcounting _ _ _ =>
    simp [hcounting.actions, mem_openingActions, Event.action, destroyArgs, planDestroyArgs,
      listWorkspacesArgs, selectArgs, listResourcesArgs] at hmem
  | destroys hcounting hsome hplanning hphrased =>
    exact ⟨_, _, _, _, _, hcounting, hsome, hplanning, hphrased, rfl, rfl⟩

/-- Behind every event but the last something was done, so the event passed. -/
theorem Destruction.passed
    (hdestruction : Destruction directory initialized workspace events outcome) :
    ∀ event ∈ events.dropLast, event.Passed := by
  intro event hmem
  cases hdestruction with
  | uninitialized _ => cases hmem
  | listFails _ _ | unknown _ _ _ => cases hmem
  | selectFails _ hlisting _ _ _ =>
    rw [List.dropLast_concat] at hmem
    cases List.mem_singleton.mp hmem
    exact ⟨_, rfl, hlisting⟩
  | countFails _ hlisting _ hselected _ =>
    rw [List.dropLast_concat] at hmem
    rcases List.mem_cons.mp hmem with rfl | hselection
    · exact ⟨_, rfl, hlisting⟩
    · exact hselected.passed event hselection
  | nothing hcounting => exact hcounting.passed event (List.dropLast_subset _ hmem)
  | planFails hcounting _ _ =>
    rw [List.dropLast_concat] at hmem
    exact hcounting.passed event hmem
  | declined hcounting _ hplanning =>
    rw [List.dropLast_concat] at hmem
    rcases List.mem_append.mp hmem with hopening | hplan
    · exact hcounting.passed event hopening
    · cases List.mem_singleton.mp hplan
      exact ⟨_, rfl, hplanning⟩
  | phraseDeclined hcounting _ hplanning _ =>
    rw [List.dropLast_concat] at hmem
    simp only [List.mem_append, List.mem_cons, List.not_mem_nil, or_false] at hmem
    rcases hmem with hopening | rfl | rfl
    · exact hcounting.passed event hopening
    · exact ⟨_, rfl, hplanning⟩
    · rfl
  | destroys hcounting _ hplanning hphrased =>
    rw [List.dropLast_concat] at hmem
    simp only [List.mem_append, List.mem_cons] at hmem
    rcases hmem with hopening | rfl | rfl | hphrase
    · exact hcounting.passed event hopening
    · exact ⟨_, rfl, hplanning⟩
    · rfl
    · exact hphrased.passed event hphrase

/-- A destruction either fails before the resources are known, or knows them and goes on to remove
them. -/
theorem Destruction.count_cases
    (hdestruction : Destruction directory initialized workspace events outcome) :
    (events.map Event.action <+: openingActions workspace ∧ (∀ count, ¬ CountedAs events count) ∧
        ∃ error, outcome = .error error) ∨
      ∃ resources opening rest, Counting initialized workspace resources opening ∧
        events = opening ++ rest ∧ rest.map Event.action <+: removalActions workspace resources ∧
        (outcome = .ok .nothingToDestroy ↔ resources = 0) := by
  cases hdestruction with
  | uninitialized _ => exact .inl ⟨List.nil_prefix, not_countedAs_of_action (by simp), _, rfl⟩
  | listFails _ _ | unknown _ _ _ =>
    refine .inl ⟨by simp [openingActions, Event.action], not_countedAs_of_action ?_, _, rfl⟩
    simp [Event.action, listResourcesArgs, listWorkspacesArgs]
  | selectFails _ _ _ hother _ =>
    refine .inl ⟨by simp [openingActions, Event.action, hother], not_countedAs_of_action ?_, _, rfl⟩
    simp [Event.action, listResourcesArgs, listWorkspacesArgs, selectArgs]
  | countFails _ _ _ hselected hfails =>
    refine .inl ⟨?_, ?_, _, rfl⟩
    · rw [List.map_append, List.map_cons, hselected.actions]
      exact List.prefix_rfl
    · rintro count ⟨output, hsucceeded, _⟩
      refine not_succeeded_of_last_fails ?_ hfails output hsucceeded
      rw [List.map_cons, hselected.actions]
      split <;> simp [Event.action, listResourcesArgs, listWorkspacesArgs, selectArgs]
  | nothing hcounting =>
    exact .inr ⟨0, _, [], hcounting, (List.append_nil _).symm, List.nil_prefix, by simp⟩
  | planFails hcounting hsome _ =>
    refine .inr ⟨_, _, _, hcounting, rfl, ?_, by simp; omega⟩
    simp [removalActions, Event.action]
  | declined hcounting hsome _ =>
    refine .inr ⟨_, _, _, hcounting, List.append_assoc .., ?_, by simp; omega⟩
    simp [removalActions, confirmingActions, Event.action]
  | phraseDeclined hcounting hsome _ hproduction =>
    refine .inr ⟨_, _, _, hcounting, List.append_assoc .., ?_, by simp; omega⟩
    simp [removalActions, confirmingActions, Event.action, hproduction]
  | @destroys resources _ _ _ result hcounting hsome _ hphrased =>
    refine .inr ⟨_, _, _, hcounting, List.append_assoc .., ?_, ?_⟩
    · simp [removalActions, confirmingActions, Event.action, hphrased.actions]
    · cases result.bind CommandOutput.checked <;> simp [Except.map] <;> omega

/-- A destruction does a beginning of its sequence of actions, in which the question tells the
resources that were counted. -/
theorem Destruction.actions_isPrefix
    (hdestruction : Destruction directory initialized workspace events outcome) {resources : Nat}
    (hcount : ∀ count, CountedAs events count → count = resources) :
    events.map Event.action <+: destructionActions workspace resources := by
  rcases hdestruction.count_cases with ⟨hactions, _, _⟩ | ⟨actual, opening, rest, hcounting, rfl, hrest, _⟩
  · rw [destructionActions_eq]
    exact hactions.trans (List.prefix_append _ _)
  · have hactual : actual = resources := hcount actual ((hcounting.countedAs_iff hrest actual).mpr rfl)
    subst hactual
    rw [List.map_append, hcounting.actions, destructionActions_eq]
    exact (List.prefix_append_right_inj _).mpr hrest

/-- There is nothing to destroy exactly if no resource was counted. -/
theorem Destruction.nothing_iff
    (hdestruction : Destruction directory initialized workspace events outcome) :
    outcome = .ok .nothingToDestroy ↔ CountedAs events 0 := by
  rcases hdestruction.count_cases with
    ⟨_, hnone, error, rfl⟩ | ⟨resources, opening, rest, hcounting, rfl, hrest, hnothing⟩
  · simp [hnone]
  · rw [hnothing, hcounting.countedAs_iff hrest, eq_comm]

/-- Resources were destroyed exactly if the command for it succeeded, and they are those that were
counted. -/
theorem Destruction.destroyed_iff
    (hdestruction : Destruction directory initialized workspace events outcome) (resources : Nat) :
    outcome = .ok (.destroyed resources) ↔
      CountedAs events resources ∧ ∃ output, Succeeded events destroyArgs output := by
  constructor
  · intro houtcome
    cases hdestruction with
    | uninitialized _ | listFails _ _ | unknown _ _ _ | selectFails _ _ _ _ _
    | countFails _ _ _ _ _ | nothing _ | planFails _ _ _ | declined _ _ _
    | phraseDeclined _ _ _ _ => cases houtcome
    | @destroys actual _ _ _ result hcounting _ _ hphrased =>
      obtain ⟨output, rfl, hsuccess, hactual⟩ := checked_map_eq_ok houtcome
      cases hactual
      exact ⟨(hcounting.countedAs_destroys_iff hphrased _ _ _).mpr rfl, output, by simp, hsuccess⟩
  · rintro ⟨hcounted, output, hsucceeded⟩
    obtain ⟨actual, opening, phrase, planning, result, hcounting, _, _, hphrased, rfl, rfl⟩ :=
      hdestruction.destroys_of_mem (List.mem_map_of_mem hsucceeded.1)
    have hresources : resources = actual :=
      (hcounting.countedAs_destroys_iff hphrased _ _ _).mp hcounted
    cases hresult : result.bind CommandOutput.checked with
    | error error =>
      have hfresh := hcounting.run_destroyArgs_not_mem hphrased planning
      exact absurd hsucceeded (not_succeeded_of_last_fails hfresh hresult output)
    | ok output => rw [hresources]; rfl

/-- Resources are destroyed only behind guards that passed. -/
theorem Destruction.guardsPassed
    (hdestruction : Destruction directory initialized workspace events outcome)
    (hmem : .run destroyArgs ∈ events.map Event.action) :
    ∃ resources, GuardsPassed initialized workspace resources events := by
  obtain ⟨resources, opening, phrase, planning, result, hcounting, hsome, hplanning, hphrased, rfl, _⟩ :=
    hdestruction.destroys_of_mem hmem
  have hcounted := (hcounting.countedAs_destroys_iff hphrased planning result resources).mpr rfl
  obtain @⟨listing, _, selection, hinitialized, hlisting, hknown, hselected, _, _⟩ := hcounting
  refine ⟨resources, hinitialized, ⟨listing, ⟨by simp, hlisting⟩, mem_parseWorkspaces_iff.mp hknown⟩, ?_,
    hcounted, hsome, ⟨planning, by simp, hplanning⟩, by simp, ?_⟩
  · intro hother
    cases hselected with
    | needless hdefault => exact absurd hdefault hother
    | @selected output _ hsuccess => exact ⟨output, by simp, hsuccess⟩
  · intro hproduction
    cases hphrased with
    | needless hpeaceful => simp [isProduction_iff.mpr hproduction] at hpeaceful
    | given _ =>
      have hconfirming : [Event.asked (destroyQuestion resources workspace) true,
          .asked productionQuestion true].Sublist (.ran planDestroyArgs (.ok planning) ::
            .asked (destroyQuestion resources workspace) true :: [.asked productionQuestion true]) :=
        .cons _ (List.Sublist.refl _)
      exact (hconfirming.trans (List.sublist_append_right _ _)).trans (List.sublist_append_left _ _)

/-- Once all guards passed, the resources are destroyed: with any other end, one did not. -/
theorem GuardsPassed.runs_destroy {resources : Nat}
    (hpassed : GuardsPassed initialized workspace resources events)
    (hdestruction : Destruction directory initialized workspace events outcome) :
    .run destroyArgs ∈ events.map Event.action := by
  cases hdestruction with
  | uninitialized hinitialized => simp [hpassed.initialized] at hinitialized
  | listFails _ hfails =>
    obtain ⟨listing, hlisted, _⟩ := hpassed.known
    have hfresh : .run listWorkspacesArgs ∉ ([] : List Event).map Event.action := List.not_mem_nil
    exact absurd hlisted (not_succeeded_of_last_fails hfresh hfails listing)
  | unknown _ _ hunknown =>
    obtain ⟨listing, ⟨hmem, _⟩, hknown⟩ := hpassed.known
    cases List.mem_singleton.mp hmem
    exact absurd (mem_parseWorkspaces_iff.mpr hknown) hunknown
  | selectFails _ _ _ hother hfails =>
    obtain ⟨output, hselected⟩ := hpassed.selected hother
    refine absurd hselected (not_succeeded_of_last_fails ?_ hfails output)
    simp [Event.action, selectArgs, listWorkspacesArgs]
  | countFails _ _ _ hselected hfails =>
    obtain ⟨output, hcounted, _⟩ := hpassed.counted
    refine absurd hcounted (not_succeeded_of_last_fails ?_ hfails output)
    rw [List.map_cons, hselected.actions]
    split <;> simp [Event.action, listResourcesArgs, listWorkspacesArgs, selectArgs]
  | nothing hcounting =>
    have hrest : ([] : List Event).map Event.action <+: removalActions workspace 0 := List.nil_prefix
    have hcounted : CountedAs (events ++ []) resources := by simpa using hpassed.counted
    have hzero := (hcounting.countedAs_iff hrest resources).mp hcounted
    have hsome := hpassed.nonempty
    omega
  | planFails hcounting _ hfails =>
    obtain ⟨output, hplanned⟩ := hpassed.planned
    refine absurd hplanned (not_succeeded_of_last_fails ?_ hfails output)
    rw [hcounting.actions]
    exact run_planDestroyArgs_not_mem_openingActions workspace
  | @declined actual opening planning hcounting _ _ =>
    have hcounted := hpassed.counted
    rw [List.append_assoc, hcounting.countedAs_iff
      (by simp [removalActions, confirmingActions, Event.action])] at hcounted
    subst hcounted
    refine absurd hpassed.agreed (not_agreed_of_last_declined ?_)
    simp [hcounting.actions, ask_not_mem_openingActions, Event.action]
  | phraseDeclined hcounting _ _ hproduction =>
    have hagreed : Event.asked productionQuestion true ∈ _ :=
      (hpassed.phrased (isProduction_iff.mp hproduction)).subset (by simp)
    refine absurd hagreed (not_agreed_of_last_declined ?_)
    simp [hcounting.actions, ask_not_mem_openingActions, Event.action, productionQuestion,
      destroyQuestion]
  | destroys _ _ _ _ => simp [Event.action]

/-- A destruction that does not fail ends with a command that succeeded, in an initialized
directory. -/
theorem Destruction.last_of_ok {result : DestroyOutcome}
    (hdestruction : Destruction directory initialized workspace events (.ok result)) :
    initialized = true ∧ ∃ args output, args ≠ listWorkspacesArgs ∧ output.exitCode = 0 ∧
      events.getLast? = some (.ran args (.ok output)) := by
  generalize houtcome : (Except.ok result : Except Error DestroyOutcome) = outcome at hdestruction
  cases hdestruction with
  | uninitialized _ | listFails _ _ | unknown _ _ _ | selectFails _ _ _ _ _
  | countFails _ _ _ _ _ | planFails _ _ _ | declined _ _ _ | phraseDeclined _ _ _ _ =>
    cases houtcome
  | nothing hcounting =>
    obtain @⟨_, counting, _, hinitialized, _, _, _, hcounting, _⟩ := hcounting
    refine ⟨hinitialized, _, counting, ?_, hcounting, by rw [← List.cons_append, List.getLast?_concat]⟩
    simp [listResourcesArgs, listWorkspacesArgs]
  | destroys hcounting _ _ _ =>
    obtain ⟨output, rfl, hsuccess, _⟩ := checked_map_eq_ok houtcome.symm
    obtain ⟨hinitialized, _, _, _, _, _⟩ := hcounting
    refine ⟨hinitialized, _, output, ?_, hsuccess, List.getLast?_concat⟩
    simp [destroyArgs, listWorkspacesArgs]

/-- A destruction that fails has met a guard that refuses. -/
theorem Destruction.refusal_of_error {error : Error}
    (hdestruction : Destruction directory initialized workspace events (.error error)) :
    FirstRefusal directory initialized workspace events error := by
  generalize houtcome : (Except.error error : Except Error DestroyOutcome) = outcome at hdestruction
  cases hdestruction with
  | uninitialized hinitialized =>
    cases houtcome
    exact .uninitialized hinitialized rfl
  | listFails _ hfails =>
    cases houtcome
    exact .failed rfl (checked_eq_error_iff.mp hfails)
  | unknown _ hlisting hunknown =>
    cases houtcome
    exact .unknown hlisting rfl fun hnames => hunknown (mem_parseWorkspaces_iff.mpr hnames)
  | selectFails _ _ _ _ hfails | countFails _ _ _ _ hfails | planFails _ _ hfails =>
    cases houtcome
    exact .failed List.getLast?_concat (checked_eq_error_iff.mp hfails)
  | nothing _ => cases houtcome
  | declined _ _ _ =>
    cases houtcome
    exact .declined List.getLast?_concat
  | phraseDeclined _ _ _ _ =>
    cases houtcome
    exact .phraseDeclined List.getLast?_concat
  | destroys _ _ _ _ =>
    have hfails := checked_map_eq_error houtcome.symm
    exact .failed List.getLast?_concat (checked_eq_error_iff.mp hfails)

/-- There is but one guard at which a destruction can have ended. -/
theorem FirstRefusal.unique {first second : Error}
    (hfirst : FirstRefusal directory initialized workspace events first)
    (hsecond : FirstRefusal directory initialized workspace events second) : first = second := by
  cases hfirst with
  | uninitialized _ hevents =>
    subst hevents
    cases hsecond with
    | uninitialized _ _ => rfl
    | unknown _ hlast _ | failed hlast _ | declined hlast | phraseDeclined hlast => cases hlast
  | unknown hlisting hlast _ =>
    cases hsecond with
    | uninitialized _ hevents => simp [hevents] at hlast
    | unknown _ _ _ => rfl
    | failed hother hfails =>
      exact absurd hfails (not_failsWith_of_last_succeeds hlisting hlast hother)
    | declined hother | phraseDeclined hother =>
      rw [hlast] at hother
      cases hother
  | failed hlast hfails =>
    cases hsecond with
    | uninitialized _ hevents => simp [hevents] at hlast
    | unknown hlisting hother _ =>
      exact absurd hfails (not_failsWith_of_last_succeeds hlisting hother hlast)
    | failed hother hsecond =>
      rw [hlast] at hother
      cases hother
      exact hfails.unique hsecond
    | declined hother | phraseDeclined hother =>
      rw [hlast] at hother
      cases hother
  | declined hlast =>
    cases hsecond with
    | uninitialized _ hevents => simp [hevents] at hlast
    | declined _ => rfl
    | unknown _ hother _ | failed hother _ | phraseDeclined hother =>
      rw [hlast] at hother
      simp [destroyQuestion, productionQuestion] at hother
  | phraseDeclined hlast =>
    cases hsecond with
    | uninitialized _ hevents => simp [hevents] at hlast
    | phraseDeclined _ => rfl
    | unknown _ hother _ | failed hother _ | declined hother =>
      rw [hlast] at hother
      simp [destroyQuestion, productionQuestion] at hother

/-- A destruction fails exactly with the error of the guard that refused first. -/
theorem Destruction.error_iff
    (hdestruction : Destruction directory initialized workspace events outcome) (error : Error) :
    outcome = .error error ↔ FirstRefusal directory initialized workspace events error := by
  constructor
  · rintro rfl
    exact hdestruction.refusal_of_error
  · intro hrefusal
    cases outcome with
    | error actual => rw [hdestruction.refusal_of_error.unique hrefusal]
    | ok result =>
      obtain ⟨hinitialized, args, output, hargs, hsuccess, hlast⟩ := hdestruction.last_of_ok
      cases hrefusal with
      | uninitialized huninitialized _ => simp [hinitialized] at huninitialized
      | unknown _ hother _ =>
        rw [hlast] at hother
        cases hother
        exact absurd rfl hargs
      | failed hother hfails =>
        exact absurd hfails (not_failsWith_of_last_succeeds hsuccess hlast hother)
      | declined hother | phraseDeclined hother =>
        rw [hlast] at hother
        cases hother

/-- The resources were counted once at most. -/
theorem Destruction.exists_count
    (hdestruction : Destruction directory initialized workspace events outcome) :
    ∃ resources, ∀ count, CountedAs events count → count = resources := by
  rcases hdestruction.count_cases with
    ⟨_, hnone, _⟩ | ⟨resources, opening, rest, hcounting, rfl, hrest, _⟩
  · exact ⟨0, fun count hcounted => absurd hcounted (hnone count)⟩
  · exact ⟨resources, fun count => (hcounting.countedAs_iff hrest count).mp⟩

theorem commands_destructionActions (workspace : String) (resources : Nat) :
    (destructionActions workspace resources).filterMap Action.args? = destructionCommands workspace := by
  unfold destructionActions destructionCommands
  by_cases hdefault : workspace = "default" <;> by_cases hproduction : IsProductionName workspace <;>
    simp [hdefault, hproduction, List.filterMap_cons, Action.args?]

theorem mem_commandsOf {events : List Event} {args : List String} :
    args ∈ commandsOf events ↔ .run args ∈ events.map Event.action := by
  unfold commandsOf
  rw [List.mem_filterMap]
  constructor
  · rintro ⟨action, hmem, hargs⟩
    cases action with
    | run _ =>
      cases hargs
      exact hmem
    | ask _ => cases hargs
  · exact fun hmem => ⟨_, hmem, rfl⟩

/-- The destruction itself is in the sequence once. -/
theorem count_destroyArgs_destructionCommands (workspace : String) :
    (destructionCommands workspace).count destroyArgs = 1 := by
  unfold destructionCommands
  split <;> simp [destroyArgs, varFileArgument]

/-- Each way in which a destruction ends keeps to the guards. -/
theorem Destruction.guardSequence
    (hdestruction : Destruction directory initialized workspace events outcome) :
    GuardSequence directory initialized workspace events outcome := by
  obtain ⟨resources, hcount⟩ := hdestruction.exists_count
  have hactions := hdestruction.actions_isPrefix hcount
  have hcommands : commandsOf events <+: destructionCommands workspace := by
    rw [← commands_destructionActions workspace resources]
    exact hactions.filterMap Action.args?
  exact {
    commands_isPrefix := hcommands
    actions_isPrefix := ⟨resources, hcount, hactions⟩
    passed := hdestruction.passed
    destroy_count_le_one :=
      count_destroyArgs_destructionCommands workspace ▸ hcommands.sublist.count_le destroyArgs
    destroy_iff := mem_commandsOf.trans
      ⟨hdestruction.guardsPassed, fun ⟨_, hpassed⟩ => hpassed.runs_destroy hdestruction⟩
    destroyed_iff := hdestruction.destroyed_iff
    nothing_iff := hdestruction.nothing_iff
    error_iff := hdestruction.error_iff }

/-- Whatever terraform leaves and the operator answers, the destruction of a workspace keeps to its
guards. Nothing is assumed of the handler: any command may fail in any way, and any answer may come. -/
theorem destroyWorkspace_guardSequence {σ : Type} (handler : Handler σ) (directory : String)
    (initialized : Bool) (workspace : String) (state : σ) :
    GuardSequence directory initialized workspace
      ((destroyWorkspace directory initialized workspace).events handler state)
      ((destroyWorkspace directory initialized workspace).perform handler state).1 :=
  (destruction_events handler directory initialized workspace state).guardSequence

/-- A terraform with one resource in a workspace in production, and an operator who agrees and types
the phrase. -/
def productionRehearsal : Rehearsal where
  script := { responses := [("workspace list", .success "* default\n  Prod\n"),
    ("state list", .success "aws_db_instance.main\n \n")] }
  operator := .scripted { given := ["yes", "destroy-production"] }

/-- What happens when that workspace is to be destroyed. -/
def productionEvents : List Event :=
  (destroyWorkspace "generated" true "Prod").events (Rehearsal.handler "generated") productionRehearsal

/-- All guards pass, and what is in production is destroyed. -/
theorem productionRehearsal_guardsPassed :
    let outcome := ((destroyWorkspace "generated" true "Prod").perform (Rehearsal.handler "generated")
      productionRehearsal).1
    IsProductionName "Prod" ∧
      productionEvents.map Event.action = [
        .run ["workspace", "list"],
        .run ["workspace", "select", "Prod"],
        .run ["state", "list"],
        .run ["plan", "-destroy", "-input=false", "-var-file=../terraform.tfvars"],
        .ask (.yesNo "Destroy 1 resources in 'Prod' workspace?"),
        .ask (.phrase "This is a production workspace." "destroy-production"),
        .run ["destroy", "-input=false", "-var-file=../terraform.tfvars", "-auto-approve"]] ∧
      outcome = .ok (.destroyed 1) ∧
      GuardsPassed true "Prod" 1 productionEvents ∧
      GuardSequence "generated" true "Prod" productionEvents outcome := by
  intro outcome
  have hsequence : GuardSequence "generated" true "Prod" productionEvents outcome :=
    destroyWorkspace_guardSequence (Rehearsal.handler "generated") "generated" true "Prod"
      productionRehearsal
  have houtcome : outcome = .ok (.destroyed 1) := rfl
  have hdestroys : destroyArgs ∈ commandsOf productionEvents := mem_commandsOf.mpr (by decide)
  refine ⟨by decide, by decide, houtcome, ?_, hsequence⟩
  -- The guards passed for some number of resources, and only one number was counted.
  obtain ⟨counted, hunique, _⟩ := hsequence.actions_isPrefix
  have hone : 1 = counted := hunique 1 ((hsequence.destroyed_iff 1).mp houtcome).1
  obtain ⟨resources, hpassed⟩ := hsequence.destroy_iff.mp hdestroys
  obtain rfl : resources = 1 := (hunique resources hpassed.counted).trans hone.symm
  exact hpassed

end TerraStack.Terraform.Lifecycle
