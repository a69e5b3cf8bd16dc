import TerraStack.Proofs.Terraform.Deploying
import TerraStack.Proofs.Terraform.GuardSequence
import TerraStack.Terraform.Rehearsal

namespace TerraStack.Terraform

/-- Behind events that passed, only the last command can have failed. -/
theorem exists_failsWith_concat_iff {before : List Event} (hpassed : ∀ event ∈ before, event.Passed)
    {args : List String} {result : Except Error CommandOutput} {error : Error} :
    (∃ other answer, .ran other answer ∈ before ++ [.ran args result] ∧ FailsWith answer error) ↔
      FailsWith result error := by
  constructor
  · rintro ⟨other, answer, hmem, hfails⟩
    rcases List.mem_append.mp hmem with hbefore | hlast
    · exact absurd hfails (hpassed _ hbefore).not_failsWith
    · cases List.mem_singleton.mp hlast
      exact hfails
  · intro hfails
    exact ⟨args, result, List.mem_append_right _ List.mem_cons_self, hfails⟩

/-- A handler that never says of a command that the operator did not agree has no such event in any
run. -/
theorem Procedure.not_aborted_of_mem_events {α σ : Type} {handler : Handler σ}
    (hcommands : ∀ args state reason, (handler.command args state).1 ≠ .error (.aborted reason))
    (procedure : Procedure α) (state : σ) (args : List String) (reason : String) :
    .ran args (.error (.aborted reason)) ∉ procedure.events handler state := by
  intro hmem
  obtain ⟨moment, hresult⟩ := exists_state_of_mem_events hmem
  exact hcommands args moment reason hresult

namespace Lifecycle

open Procedure

/-- Init and plan succeeded. -/
def IsPlanned (events : List Event) : Prop :=
  (∃ output, Succeeded events initArgs output) ∧ ∃ output, Succeeded events planArgs output

/-- What a deployment does if nothing stops it. -/
def deployActions (planOnly : Bool) : List Action :=
  [.run initArgs, .run planArgs] ++
    if planOnly = true then [] else [.ask applyQuestion, .run applyArgs]

/-- What becomes of a deployment with its events and its result. -/
structure DeploySequence (planOnly : Bool) (events : List Event)
    (outcome : Except Error DeployOutcome) : Prop where
  commands_isPrefix : commandsOf events <+: [initArgs, planArgs, applyArgs]
  /-- The one question stands between plan and apply. Where only a plan is wanted there is none. -/
  actions_isPrefix : events.map Event.action <+: deployActions planOnly
  passed : ∀ event ∈ events.dropLast, event.Passed
  applies_iff : applyArgs ∈ commandsOf events ↔
    IsPlanned events ∧ planOnly = false ∧ .asked applyQuestion true ∈ events
  planned_iff : outcome = .ok .planned ↔ planOnly = true ∧ IsPlanned events
  applied_iff : outcome = .ok .applied ↔ ∃ output, Succeeded events applyArgs output
  aborted_iff : (∃ reason, outcome = .error (.aborted reason)) ↔ .asked applyQuestion false ∈ events
  /-- The error is that of the question or of the one command that failed. -/
  error_iff : ∀ error, outcome = .error error ↔
    (error = .aborted "apply declined" ∧ .asked applyQuestion false ∈ events) ∨
      ∃ args result, .ran args result ∈ events ∧ FailsWith result error

variable {planOnly : Bool} {events : List Event} {outcome : Except Error DeployOutcome}

/-- A deployment does a beginning of its sequence of actions. -/
theorem Deploying.actions_isPrefix (hdeploying : Deploying planOnly events outcome) :
    events.map Event.action <+: deployActions planOnly := by
  unfold deployActions
  cases hdeploying with
  | initFails _ => simp [Event.action]
  | planFails _ _ => simp [Event.action]
  | planned _ _ _ => simp [Event.action]
  | declined _ _ hplanOnly => simp [Event.action, hplanOnly]
  | applies _ _ hplanOnly => simp [Event.action, hplanOnly]

/-- The commands of that sequence are init, plan and apply, or the first two. -/
theorem deployActions_commands_isPrefix (planOnly : Bool) :
    (deployActions planOnly).filterMap Action.args? <+: [initArgs, planArgs, applyArgs] := by
  cases planOnly <;> decide

/-- Behind every event but the last something was done, so the event passed. -/
theorem Deploying.passed (hdeploying : Deploying planOnly events outcome) :
    ∀ event ∈ events.dropLast, event.Passed := by
  intro event hmem
  cases hdeploying with
  | initFails _ => cases hmem
  | planFails hinit _ | planned hinit _ _ =>
    cases List.mem_singleton.mp hmem
    exact ⟨_, rfl, hinit⟩
  | declined hinit hplan _ =>
    simp only [List.dropLast, List.mem_cons, List.not_mem_nil, or_false] at hmem
    rcases hmem with rfl | rfl
    · exact ⟨_, rfl, hinit⟩
    · exact ⟨_, rfl, hplan⟩
  | applies hinit hplan _ =>
    simp only [List.dropLast, List.mem_cons, List.not_mem_nil, or_false] at hmem
    rcases hmem with rfl | rfl | rfl
    · exact ⟨_, rfl, hinit⟩
    · exact ⟨_, rfl, hplan⟩
    · rfl

theorem isPlanned_cons {initializing planning : CommandOutput} (hinit : initializing.exitCode = 0)
    (hplan : planning.exitCode = 0) (rest : List Event) :
    IsPlanned (.ran initArgs (.ok initializing) :: .ran planArgs (.ok planning) :: rest) := by
  constructor
  · exact ⟨initializing, List.mem_cons_self, hinit⟩
  · exact ⟨planning, List.mem_cons_of_mem _ List.mem_cons_self, hplan⟩

theorem not_isPlanned_of_init (result : Except Error CommandOutput) :
    ¬ IsPlanned [.ran initArgs result] := by
  rintro ⟨-, output, hmem, -⟩
  simp [initArgs, planArgs] at hmem

/-- Where plan fails nothing is planned. -/
theorem not_isPlanned_of_planFails {initializing : CommandOutput}
    {result : Except Error CommandOutput} {error : Error}
    (hfails : result.bind CommandOutput.checked = .error error) :
    ¬ IsPlanned [.ran initArgs (.ok initializing), .ran planArgs result] := by
  rintro ⟨-, output, hplanned⟩
  have hfresh : .run planArgs ∉ [Event.ran initArgs (.ok initializing)].map Event.action := by
    simp [Event.action, initArgs, planArgs]
  exact not_succeeded_of_last_fails hfresh hfails output hplanned

/-- Apply is run exactly if the deployment is planned, not for the plan only, and agreed to. -/
theorem Deploying.applies_iff (hdeploying : Deploying planOnly events outcome) :
    applyArgs ∈ commandsOf events ↔
      IsPlanned events ∧ planOnly = false ∧ .asked applyQuestion true ∈ events := by
  rw [mem_commandsOf]
  cases hdeploying with
  | initFails _ => simp [Event.action, initArgs, applyArgs]
  | planFails _ _ => simp [Event.action, initArgs, planArgs, applyArgs]
  | planned _ _ _ => simp [Event.action, initArgs, planArgs, applyArgs]
  | declined _ _ _ => simp [Event.action, initArgs, planArgs, applyArgs]
  | applies hinit hplan hplanOnly => simp [Event.action, hplanOnly, isPlanned_cons hinit hplan]

/-- A deployment ends with its plan exactly if that was all that was wanted, and it was made. -/
theorem Deploying.planned_iff (hdeploying : Deploying planOnly events outcome) :
    outcome = .ok .planned ↔ planOnly = true ∧ IsPlanned events := by
  cases hdeploying with
  | @initFails result _ _ => simp [not_isPlanned_of_init result]
  | planFails _ hfails => simp [not_isPlanned_of_planFails hfails]
  | planned hinit hplan hplanOnly => simp [hplanOnly, isPlanned_cons hinit hplan]
  | declined _ _ hplanOnly => simp [hplanOnly]
  | @applies _ _ result _ _ hplanOnly =>
    cases result.bind CommandOutput.checked <;> simp [Except.map, hplanOnly]

/-- A deployment has been applied exactly if apply succeeded. -/
theorem Deploying.applied_iff (hdeploying : Deploying planOnly events outcome) :
    outcome = .ok .applied ↔ ∃ output, Succeeded events applyArgs output := by
  cases hdeploying with
  | initFails _ => simp [Succeeded, initArgs, applyArgs]
  | planFails _ _ => simp [Succeeded, initArgs, planArgs, applyArgs]
  | planned _ _ _ => simp [Succeeded, initArgs, planArgs, applyArgs]
  | declined _ _ _ => simp [Succeeded, initArgs, planArgs, applyArgs]
  | @applies initializing planning result _ _ _ =>
    constructor
    · intro hok
      obtain ⟨output, rfl, hsuccess, -⟩ := checked_map_eq_ok hok
      exact ⟨output, by simp, hsuccess⟩
    · rintro ⟨output, hmem, hsuccess⟩
      have hresult : Except.ok output = result := by
        simpa [initArgs, planArgs, applyArgs] using hmem
      rw [checked_eq_ok_iff.mpr ⟨hresult.symm, hsuccess⟩]
      rfl

/-- The result of a deployment that ends with a command is told by that command. -/
theorem error_iff_of_last_ran (before : List Event) (hpassed : ∀ event ∈ before, event.Passed)
    {args : List String} {result : Except Error CommandOutput} {error : Error}
    (houtcome : outcome = .error error ↔ FailsWith result error) :
    outcome = .error error ↔
      (error = .aborted "apply declined" ∧
          .asked applyQuestion false ∈ before ++ [.ran args result]) ∨
        ∃ other answer, .ran other answer ∈ before ++ [.ran args result] ∧ FailsWith answer error := by
  have hagreed : .asked applyQuestion false ∉ before ++ [.ran args result] := by
    intro hmem
    rcases List.mem_append.mp hmem with hbefore | hlast
    · cases hpassed _ hbefore
    · cases List.mem_singleton.mp hlast
  rw [exists_failsWith_concat_iff hpassed, houtcome]
  simp [hagreed]

/-- A deployment fails with the error of the command that failed, or because the operator declined. -/
theorem Deploying.error_iff (hdeploying : Deploying planOnly events outcome) (error : Error) :
    outcome = .error error ↔
      (error = .aborted "apply declined" ∧ .asked applyQuestion false ∈ events) ∨
        ∃ args result, .ran args result ∈ events ∧ FailsWith result error := by
  have hpassed := hdeploying.passed
  cases hdeploying with
  | initFails hfails =>
    apply error_iff_of_last_ran [] hpassed
    rw [← checked_eq_error_iff, hfails]
    simp
  | @planFails initializing _ _ _ hfails =>
    apply error_iff_of_last_ran [.ran initArgs (.ok initializing)] hpassed
    rw [← checked_eq_error_iff, hfails]
    simp
  | @planned initializing planning _ hplan _ =>
    apply error_iff_of_last_ran [.ran initArgs (.ok initializing)] hpassed
    rw [← checked_eq_error_iff, checked_eq_ok_iff.mpr ⟨rfl, hplan⟩]
    simp
  | @declined initializing planning _ _ _ =>
    constructor
    · intro herror
      cases herror
      exact .inl ⟨rfl, by simp⟩
    · rintro (⟨rfl, -⟩ | ⟨args, result, hmem, hfails⟩)
      · rfl
      · have hbefore : .ran args result ∈ [Event.ran initArgs (.ok initializing),
            .ran planArgs (.ok planning)] := by simpa using hmem
        exact absurd hfails (hpassed _ hbefore).not_failsWith
  | @applies initializing planning result _ _ _ =>
    apply error_iff_of_last_ran [.ran initArgs (.ok initializing),
      .ran planArgs (.ok planning), .asked applyQuestion true] hpassed
    rw [← checked_eq_error_iff]
    cases result.bind CommandOutput.checked <;> simp [Except.map]

/-- A deployment was aborted exactly if the operator declined. -/
theorem Deploying.aborted_iff (hdeploying : Deploying planOnly events outcome)
    (hcommands : ∀ args reason, .ran args (.error (.aborted reason)) ∉ events) :
    (∃ reason, outcome = .error (.aborted reason)) ↔ .asked applyQuestion false ∈ events := by
  constructor
  · rintro ⟨reason, herror⟩
    rcases (hdeploying.error_iff _).mp herror with ⟨-, hasked⟩ | ⟨args, result, hmem, hfails⟩
    · exact hasked
    · cases hfails with
      | unrun => exact absurd hmem (hcommands args reason)
  · intro hasked
    exact ⟨_, (hdeploying.error_iff _).mpr (.inl ⟨rfl, hasked⟩)⟩

/-- Whatever terraform leaves and the operator answers, a deployment keeps to its sequence. Of the
handler it is assumed only that no command fails with the error of an operator who does not agree. -/
theorem deploy_sequence {σ : Type} {handler : Handler σ}
    (hcommands : ∀ args state reason, (handler.command args state).1 ≠ .error (.aborted reason))
    (planOnly : Bool) (state : σ) :
    DeploySequence planOnly ((deploy planOnly).events handler state)
      ((deploy planOnly).perform handler state).1 := by
  have hdeploying := deploying_of_run (run_events handler (deploy planOnly) state)
  have hactions := hdeploying.actions_isPrefix
  exact {
    commands_isPrefix := by
      have hcommands := hactions.filterMap Action.args?
      exact hcommands.trans (deployActions_commands_isPrefix planOnly)
    actions_isPrefix := hactions
    passed := hdeploying.passed
    applies_iff := hdeploying.applies_iff
    planned_iff := hdeploying.planned_iff
    applied_iff := hdeploying.applied_iff
    aborted_iff := hdeploying.aborted_iff (not_aborted_of_mem_events hcommands _ state)
    error_iff := hdeploying.error_iff }

/-- An operator who agrees, and a terraform whose apply ends with an exit code of its own. -/
def scarceRehearsal : Rehearsal where
  script := { responses := [("apply", .failure 3 "Error: 2 zones\nError: no quota")] }
  operator := .scripted { given := ["yes"] }

/-- The question is answered well, apply is run, and its failure is that of the deployment. -/
theorem scarceRehearsal_sequence :
    let handler := Rehearsal.handler "generated"
    let events := (deploy false).events handler scarceRehearsal
    let outcome := ((deploy false).perform handler scarceRehearsal).1
    (∀ args state reason, (handler.command args state).1 ≠ .error (.aborted reason)) ∧
      commandsOf events = [initArgs, planArgs, applyArgs] ∧
      outcome = .error (.commandFailed
        "terraform apply -input=false -var-file=../terraform.tfvars -auto-approve" 3
        "Error: no quota") ∧
      DeploySequence false events outcome := by
  have hcommands (args : List String) (state : Rehearsal) (reason : String) :
      ((Rehearsal.handler "generated").command args state).1 ≠ .error (.aborted reason) := by
    simp only [Rehearsal.handler, Script.run]
    split <;> simp
  refine ⟨hcommands, ?_, ?_, deploy_sequence hcommands false scarceRehearsal⟩
  · rfl
  · rfl

end Lifecycle
end TerraStack.Terraform
