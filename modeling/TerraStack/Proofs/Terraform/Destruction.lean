import TerraStack.Proofs.Terraform.Transcript
import TerraStack.Terraform.Lifecycle

namespace TerraStack.Terraform.Lifecycle

open Procedure

/-- The events by which a workspace becomes the current one. -/
inductive Selected (workspace : String) : List Event → Prop where
  | needless (hdefault : workspace = defaultWorkspace) : Selected workspace []
  | selected {output : CommandOutput} (hother : workspace ≠ defaultWorkspace)
      (hsuccess : output.exitCode = 0) :
      Selected workspace [.ran (selectArgs workspace) (.ok output)]

/-- The events by which the operator agrees to the destruction of a workspace in production. -/
inductive Phrased (workspace : String) : List Event → Prop where
  | needless (hproduction : isProduction workspace = false) : Phrased workspace []
  | given (hproduction : isProduction workspace = true) :
      Phrased workspace [.asked productionQuestion true]

/-- The events up to the count of the resources, with all guards passed. -/
inductive Counting (initialized : Bool) (workspace : String) (resources : Nat) : List Event → Prop where
  | intro {listing counting : CommandOutput} {selection : List Event}
      (hinitialized : initialized = true) (hlisting : listing.exitCode = 0)
      (hknown : workspace ∈ parseWorkspaces listing.stdout) (hselected : Selected workspace selection)
      (hcounting : counting.exitCode = 0)
      (hresources : countResources counting.stdout = resources) :
      Counting initialized workspace resources
        (.ran listWorkspacesArgs (.ok listing) ::
          (selection ++ [.ran listResourcesArgs (.ok counting)]))

/-- The ways in which the destruction of a workspace ends. All but the first are some guards passed
and then one event more. -/
inductive Destruction (directory : String) (initialized : Bool) (workspace : String) :
    List Event → Except Error DestroyOutcome → Prop where
  | uninitialized (hinitialized : initialized = false) :
      Destruction directory initialized workspace [] (.error (.notInitialized directory))
  | listFails {result : Except Error CommandOutput} {error : Error} (hinitialized : initialized = true)
      (hfails : result.bind CommandOutput.checked = .error error) :
      Destruction directory initialized workspace [.ran listWorkspacesArgs result] (.error error)
  | unknown {listing : CommandOutput} (hinitialized : initialized = true)
      (hlisting : listing.exitCode = 0) (hunknown : workspace ∉ parseWorkspaces listing.stdout) :
      Destruction directory initialized workspace [.ran listWorkspacesArgs (.ok listing)]
        (.error (.workspaceNotFound workspace))
  | selectFails {listing : CommandOutput} {result : Except Error CommandOutput} {error : Error}
      (hinitialized : initialized = true) (hlisting : listing.exitCode = 0)
      (hknown : workspace ∈ parseWorkspaces listing.stdout) (hother : workspace ≠ defaultWorkspace)
      (hfails : result.bind CommandOutput.checked = .error error) :
      Destruction directory initialized workspace
        ([.ran listWorkspacesArgs (.ok listing)] ++ [.ran (selectArgs workspace) result]) (.error error)
  | countFails {listing : CommandOutput} {selection : List Event}
      {result : Except Error CommandOutput} {error : Error} (hinitialized : initialized = true)
      (hlisting : listing.exitCode = 0) (hknown : workspace ∈ parseWorkspaces listing.stdout)
      (hselected : Selected workspace selection)
      (hfails : result.bind CommandOutput.checked = .error error) :
      Destruction directory initialized workspace
        ((.ran listWorkspacesArgs (.ok listing) :: selection) ++ [.ran listResourcesArgs result])
        (.error error)
  | nothing {opening : List Event} (hcounting : Counting initialized workspace 0 opening) :
      Destruction directory initialized workspace opening (.ok .nothingToDestroy)
  | planFails {resources : Nat} {opening : List Event} {result : Except Error CommandOutput}
      {error : Error} (hcounting : Counting initialized workspace resources opening)
      (hsome : 0 < resources) (hfails : result.bind CommandOutput.checked = .error error) :
      Destruction directory initialized workspace (opening ++ [.ran planDestroyArgs result])
        (.error error)
  | declined {resources : Nat} {opening : List Event} {planning : CommandOutput}
      (hcounting : Counting initialized workspace resources opening) (hsome : 0 < resources)
      (hplanning : planning.exitCode = 0) :
      Destruction directory initialized workspace
        ((opening ++ [.ran planDestroyArgs (.ok planning)]) ++
          [.asked (destroyQuestion resources workspace) false])
        (.error (.aborted "destroy declined"))
  | phraseDeclined {resources : Nat} {opening : List Event} {planning : CommandOutput}
      (hcounting : Counting initialized workspace resources opening) (hsome : 0 < resources)
      (hplanning : planning.exitCode = 0) (hproduction : isProduction workspace = true) :
      Destruction directory initialized workspace
        ((opening ++ [.ran planDestroyArgs (.ok planning),
          .asked (destroyQuestion resources workspace) true]) ++ [.asked productionQuestion false])
        (.error (.aborted "production destroy declined"))
  | destroys {resources : Nat} {opening phrase : List Event} {planning : CommandOutput}
      {result : Except Error CommandOutput}
      (hcounting : Counting initialized workspace resources opening) (hsome : 0 < resources)
      (hplanning : planning.exitCode = 0) (hphrased : Phrased workspace phrase) :
      Destruction directory initialized workspace
        ((opening ++ .ran planDestroyArgs (.ok planning) ::
          .asked (destroyQuestion resources workspace) true :: phrase) ++ [.ran destroyArgs result])
        ((result.bind CommandOutput.checked).map fun _ => .destroyed resources)

/-- The workspaces are those that terraform prints, unless the command fails. -/
theorem run_listWorkspaces_iff {outcome : Except Error (List String)} {events : List Event} :
    Run listWorkspaces events outcome ↔ ∃ result, events = [.ran listWorkspacesArgs result] ∧
      outcome = (result.bind CommandOutput.checked).map fun output => parseWorkspaces output.stdout :=
  run_run_map_iff

/-- The resources are counted on what terraform prints, unless the command fails. -/
theorem run_resourceCount_iff {outcome : Except Error Nat} {events : List Event} :
    Run resourceCount events outcome ↔ ∃ result, events = [.ran listResourcesArgs result] ∧
      outcome = (result.bind CommandOutput.checked).map fun output => countResources output.stdout :=
  run_run_map_iff

/-- A command of which a part came out was a success, and the part is a part of its output. -/
theorem checked_map_eq_ok {α : Type} {result : Except Error CommandOutput}
    {part : CommandOutput → α} {value : α}
    (hok : (result.bind CommandOutput.checked).map part = .ok value) :
    ∃ output, result = .ok output ∧ output.exitCode = 0 ∧ part output = value := by
  cases hresult : result.bind CommandOutput.checked with
  | error error =>
    rw [hresult] at hok
    cases hok
  | ok output =>
    rw [hresult] at hok
    obtain ⟨rfl, hsuccess⟩ := checked_eq_ok_iff.mp hresult
    exact ⟨output, rfl, hsuccess, Except.ok.inj hok⟩

/-- A command that fails leaves no output of which to take a part. -/
theorem checked_map_eq_error {α : Type} {result : Except Error CommandOutput}
    {part : CommandOutput → α} {error : Error}
    (herror : (result.bind CommandOutput.checked).map part = .error error) :
    result.bind CommandOutput.checked = .error error := by
  cases hresult : result.bind CommandOutput.checked with
  | error actual =>
    rw [hresult] at herror
    exact congrArg Except.error (Except.error.inj herror)
  | ok output =>
    rw [hresult] at herror
    cases herror

/-- Selecting the default workspace does nothing, and any other takes one command. -/
theorem run_selectWorkspace {workspace : String} {outcome : Except Error Unit} {events : List Event}
    (hrun : Run (selectWorkspace workspace) events outcome) :
    (outcome = .ok () ∧ Selected workspace events) ∨
      ∃ result error, workspace ≠ defaultWorkspace ∧ events = [.ran (selectArgs workspace) result] ∧
        result.bind CommandOutput.checked = .error error ∧ outcome = .error error := by
  unfold selectWorkspace at hrun
  by_cases hdefault : workspace = defaultWorkspace
  · rw [if_neg (by simpa using hdefault)] at hrun
    obtain ⟨rfl, rfl⟩ := run_pure_iff.mp hrun
    exact .inl ⟨rfl, .needless hdefault⟩
  · rw [if_pos hdefault] at hrun
    obtain ⟨result, rfl, rfl⟩ := run_run_map_iff.mp hrun
    cases hresult : result.bind CommandOutput.checked with
    | error error => exact .inr ⟨result, error, hdefault, rfl, hresult, rfl⟩
    | ok output =>
      obtain ⟨rfl, hsuccess⟩ := checked_eq_ok_iff.mp hresult
      exact .inl ⟨rfl, .selected hdefault hsuccess⟩

/-- The phrase is asked for in production and nowhere else. -/
theorem run_insistOnPhrase {workspace : String} {outcome : Except Error Unit} {events : List Event}
    (hrun : Run (insistOnPhrase workspace) events outcome) :
    (outcome = .ok () ∧ Phrased workspace events) ∨
      (isProduction workspace = true ∧ events = [.asked productionQuestion false] ∧
        outcome = .error (.aborted "production destroy declined")) := by
  unfold insistOnPhrase at hrun
  cases hproduction : isProduction workspace with
  | false =>
    simp only [hproduction, Bool.false_eq_true, if_false] at hrun
    obtain ⟨rfl, rfl⟩ := run_pure_iff.mp hrun
    exact .inl ⟨rfl, .needless hproduction⟩
  | true =>
    simp only [hproduction, if_true] at hrun
    rcases run_insist_iff.mp hrun with ⟨rfl, rfl⟩ | ⟨rfl, rfl⟩
    · exact .inl ⟨rfl, .given hproduction⟩
    · exact .inr ⟨rfl, rfl, rfl⟩

/-- What is left to do once a workspace is known to hold resources. -/
private def removal (workspace : String) (resources : Nat) : Procedure DestroyOutcome := do
  let _ ← run planDestroyArgs
  insist (destroyQuestion resources workspace) "destroy declined"
  insistOnPhrase workspace
  let _ ← destroy
  return .destroyed resources

private theorem destruction_of_run_removal {directory workspace : String} {initialized : Bool}
    {resources : Nat} {opening events : List Event} {outcome : Except Error DestroyOutcome}
    (hcounting : Counting initialized workspace resources opening) (hsome : 0 < resources)
    (hrun : Run (removal workspace resources) events outcome) :
    Destruction directory initialized workspace (opening ++ events) outcome := by
  rcases run_bind_iff.mp hrun with ⟨error, hplan, rfl⟩ | ⟨planning, _, _, hplan, hconfirm, rfl⟩
  · obtain ⟨result, rfl, hresult⟩ := run_run_iff.mp hplan
    exact .planFails hcounting hsome hresult.symm
  obtain ⟨result, rfl, hresult⟩ := run_run_iff.mp hplan
  obtain ⟨rfl, hplanning⟩ := checked_eq_ok_iff.mp hresult.symm
  rcases run_bind_iff.mp hconfirm with ⟨error, hask, rfl⟩ | ⟨_, _, _, hask, hphrase, rfl⟩
  · rcases run_insist_iff.mp hask with ⟨_, hok⟩ | ⟨rfl, herror⟩
    · cases hok
    · cases herror
      have hended : Destruction directory initialized workspace _ _ :=
        .declined hcounting hsome hplanning
      simpa using hended
  rcases run_insist_iff.mp hask with ⟨rfl, _⟩ | ⟨_, herror⟩
  · rcases run_bind_iff.mp hphrase with ⟨error, htype, rfl⟩ | ⟨_, _, _, htype, hdestroy, rfl⟩
    · rcases run_insistOnPhrase htype with ⟨hok, _⟩ | ⟨hproduction, rfl, herror⟩
      · cases hok
      · cases herror
        have hended : Destruction directory initialized workspace _ _ :=
          .phraseDeclined hcounting hsome hplanning hproduction
        simpa using hended
    · rcases run_insistOnPhrase htype with ⟨_, hphrased⟩ | ⟨_, _, herror⟩
      · obtain ⟨result, rfl, rfl⟩ := run_run_map_iff.mp hdestroy
        have hended : Destruction directory initialized workspace (_ ++ [.ran destroyArgs result]) _ :=
          .destroys hcounting hsome hplanning hphrased
        simpa using hended
      · cases herror
  · cases herror

/-- The destruction of a workspace has no other way to end. -/
theorem destruction_of_run {directory workspace : String} {initialized : Bool} {events : List Event}
    {outcome : Except Error DestroyOutcome}
    (hrun : Run (destroyWorkspace directory initialized workspace) events outcome) :
    Destruction directory initialized workspace events outcome := by
  unfold destroyWorkspace at hrun
  rcases run_bind_iff.mp hrun with ⟨error, hrequire, rfl⟩ | ⟨_, _, _, hrequire, hlisted, rfl⟩
  · obtain ⟨rfl, ⟨_, hok⟩ | ⟨hinitialized, herror⟩⟩ := run_require_iff.mp hrequire
    · cases hok
    · cases herror
      exact .uninitialized hinitialized
  obtain ⟨rfl, ⟨hinitialized, _⟩ | ⟨_, herror⟩⟩ := run_require_iff.mp hrequire
  · rcases run_bind_iff.mp hlisted with ⟨error, hlist, rfl⟩ | ⟨names, _, _, hlist, hchecked, rfl⟩
    · obtain ⟨result, rfl, hresult⟩ := run_listWorkspaces_iff.mp hlist
      exact .listFails hinitialized (checked_map_eq_error hresult.symm)
    obtain ⟨result, rfl, hresult⟩ := run_listWorkspaces_iff.mp hlist
    obtain ⟨listing, rfl, hlisting, rfl⟩ := checked_map_eq_ok hresult.symm
    rcases run_bind_iff.mp hchecked with ⟨error, hexists, rfl⟩ | ⟨_, _, _, hexists, hopened, rfl⟩
    · obtain ⟨rfl, ⟨_, hok⟩ | ⟨hunknown, herror⟩⟩ := run_require_iff.mp hexists
      · cases hok
      · cases herror
        exact .unknown hinitialized hlisting (by simpa using hunknown)
    obtain ⟨rfl, ⟨hcontains, _⟩ | ⟨_, herror⟩⟩ := run_require_iff.mp hexists
    · have hknown : workspace ∈ parseWorkspaces listing.stdout := by simpa using hcontains
      rcases run_bind_iff.mp hopened with ⟨error, hselect, rfl⟩ | ⟨_, _, _, hselect, hcounted, rfl⟩
      · rcases run_selectWorkspace hselect with ⟨hok, _⟩ | ⟨result, _, hother, rfl, hfails, herror⟩
        · cases hok
        · cases herror
          exact .selectFails hinitialized hlisting hknown hother hfails
      rcases run_selectWorkspace hselect with ⟨_, hselected⟩ | ⟨_, _, _, _, _, herror⟩
      · rcases run_bind_iff.mp hcounted with ⟨error, hcount, rfl⟩ | ⟨resources, _, _, hcount, hrest, rfl⟩
        · obtain ⟨result, rfl, hresult⟩ := run_resourceCount_iff.mp hcount
          exact .countFails hinitialized hlisting hknown hselected (checked_map_eq_error hresult.symm)
        obtain ⟨result, rfl, hresult⟩ := run_resourceCount_iff.mp hcount
        obtain ⟨counting, rfl, hsuccess, hresources⟩ := checked_map_eq_ok hresult.symm
        have hcounting := Counting.intro hinitialized hlisting hknown hselected hsuccess hresources
        by_cases hnone : resources = 0
        · subst hnone
          rw [if_pos rfl] at hrest
          obtain ⟨rfl, rfl⟩ := run_pure_iff.mp hrest
          have hended : Destruction directory initialized workspace _ _ := .nothing hcounting
          simpa using hended
        · rw [if_neg hnone] at hrest
          have hended : Destruction directory initialized workspace _ _ :=
            destruction_of_run_removal hcounting (Nat.pos_of_ne_zero hnone) hrest
          simpa using hended
      · cases herror
    · cases herror
  · cases herror

/-- Under every handler, too, a destruction ends in one of these ways. -/
theorem destruction_events {σ : Type} (handler : Handler σ) (directory : String) (initialized : Bool)
    (workspace : String) (state : σ) :
    Destruction directory initialized workspace
      ((destroyWorkspace directory initialized workspace).events handler state)
      ((destroyWorkspace directory initialized workspace).perform handler state).1 :=
  destruction_of_run (run_events handler _ state)

end TerraStack.Terraform.Lifecycle
