import TerraStack.Proofs.Terraform.Deploying
import TerraStack.Proofs.Terraform.GuardSequence

namespace TerraStack.Terraform

/-- Whether a command changes what is deployed. -/
def changesDeployment (args : List String) : Bool :=
  args.head? = some "apply" || args.head? = some "destroy"

/-- The question that was asked, and whether the operator agreed. -/
def Event.answer? : Event → Option (Question × Bool)
  | .ran _ _ => none
  | .asked question agreed => some (question, agreed)

/-- The questions that were asked, in order, and whether the operator agreed to each. -/
def answersOf (events : List Event) : List (Question × Bool) :=
  events.filterMap Event.answer?

theorem answersOf_append (events more : List Event) :
    answersOf (events ++ more) = answersOf events ++ answersOf more :=
  List.filterMap_append

/-- What is deployed is changed by one command at most, with one word for its first argument. All
questions were agreed to then: one for a yes, and those for some phrases behind it. -/
structure Consented (word : String) (phrases : List Question) (events : List Event) : Prop where
  once : (commandsOf events).countP changesDeployment ≤ 1
  agreed : ∀ args ∈ commandsOf events, changesDeployment args = true →
    args.head? = some word ∧ ∃ prompt, answersOf events = (.yesNo prompt :: phrases).map (·, true)

/-- Where nothing that is deployed is changed, nothing had to be agreed to. -/
theorem consented_of_unchanged {word : String} {phrases : List Question} {events : List Event}
    (hunchanged : ∀ args ∈ commandsOf events, changesDeployment args = false) :
    Consented word phrases events where
  once := by
    have hnone : (commandsOf events).countP changesDeployment = 0 :=
      List.countP_eq_zero.mpr fun args hargs => by simp [hunchanged args hargs]
    omega
  agreed args hargs hchanges := by
    rw [hunchanged args hargs] at hchanges
    cases hchanges

namespace Lifecycle

open Procedure

variable {events : List Event}

/-- What is planned only is not applied. -/
theorem Deploying.unchanged {outcome : Except Error DeployOutcome}
    (hdeploying : Deploying true events outcome) :
    ∀ args ∈ commandsOf events, changesDeployment args = false := by
  intro args hargs
  cases hdeploying with
  | initFails _ =>
    obtain rfl := List.mem_singleton.mp hargs
    rfl
  | planFails _ _ | planned _ _ _ =>
    have hcommands : args ∈ [initArgs, planArgs] := hargs
    simp only [List.mem_cons, List.not_mem_nil, or_false] at hcommands
    obtain rfl | rfl := hcommands
    · rfl
    · rfl
  | declined _ _ hplanOnly | applies _ _ hplanOnly => cases hplanOnly

/-- A deployment applies behind one agreement. -/
theorem Deploying.consented {planOnly : Bool} {outcome : Except Error DeployOutcome}
    (hdeploying : Deploying planOnly events outcome) : Consented "apply" [] events := by
  have hinit : changesDeployment initArgs = false := rfl
  have hplan : changesDeployment planArgs = false := rfl
  cases hdeploying with
  | initFails _ => exact consented_of_unchanged fun args hargs => List.mem_singleton.mp hargs ▸ hinit
  | planFails _ _ | planned _ _ _ | declined _ _ _ =>
    refine consented_of_unchanged fun args hargs => ?_
    have hcommands : args ∈ [initArgs, planArgs] := hargs
    simp only [List.mem_cons, List.not_mem_nil, or_false] at hcommands
    obtain rfl | rfl := hcommands
    · exact hinit
    · exact hplan
  | applies _ _ _ =>
    refine ⟨Nat.le_refl 1, fun args hargs hchanges => ?_⟩
    have hcommands : args ∈ [initArgs, planArgs, applyArgs] := hargs
    simp only [List.mem_cons, List.not_mem_nil, or_false] at hcommands
    obtain rfl | rfl | rfl := hcommands
    · cases hinit.symm.trans hchanges
    · cases hplan.symm.trans hchanges
    · exact ⟨rfl, _, rfl⟩

/-- The destruction without a workspace comes behind one agreement. -/
theorem consented_confirmedDestroy {outcome : Except Error Unit}
    (hrun : Run confirmedDestroy events outcome) : Consented "destroy" [] events := by
  obtain ⟨rfl, _⟩ | ⟨result, rfl, _⟩ := run_confirmedDestroy hrun
  · exact consented_of_unchanged fun args hargs => nomatch hargs
  · refine ⟨Nat.le_refl 1, fun args hargs _ => ?_⟩
    obtain rfl := List.mem_singleton.mp hargs
    exact ⟨rfl, _, rfl⟩

/-- The phrases that the operator has to type before a workspace is destroyed. -/
def phrasesFor (workspace : String) : List Question :=
  if isProduction workspace then [productionQuestion] else []

/-- In production, and only there, the phrase is agreed to. -/
theorem Phrased.answers {workspace : String} (hphrased : Phrased workspace events) :
    answersOf events = (phrasesFor workspace).map (·, true) := by
  cases hphrased with
  | needless hproduction =>
    rw [phrasesFor, hproduction]
    rfl
  | given hproduction =>
    rw [phrasesFor, hproduction]
    rfl

/-- Until the resources are known nothing is asked. -/
theorem Counting.answers {initialized : Bool} {workspace : String} {resources : Nat}
    (hcounting : Counting initialized workspace resources events) : answersOf events = [] := by
  obtain ⟨_, _, _, hselected, _, _⟩ := hcounting
  cases hselected with
  | needless _ => rfl
  | selected _ _ => rfl

/-- One command of a destruction changes what is deployed. -/
theorem countP_destructionCommands (workspace : String) :
    (destructionCommands workspace).countP changesDeployment = 1 := by
  unfold destructionCommands
  split
  · rfl
  · rfl

theorem eq_destroyArgs_of_changes {workspace : String} {args : List String}
    (hargs : args ∈ destructionCommands workspace) (hchanges : changesDeployment args = true) :
    args = destroyArgs := by
  unfold destructionCommands at hargs
  simp only [List.mem_append, List.mem_cons, List.not_mem_nil, or_false] at hargs
  rcases hargs with (rfl | hselect) | rfl | rfl | hdestroy
  · cases hchanges
  · split at hselect
    · cases hselect
    · obtain rfl := List.mem_singleton.mp hselect
      cases hchanges
  · cases hchanges
  · cases hchanges
  · exact hdestroy

/-- The destruction of a workspace comes behind one agreement, and in production behind the phrase. -/
theorem Destruction.consented {directory workspace : String} {initialized : Bool}
    {outcome : Except Error DestroyOutcome}
    (hdestruction : Destruction directory initialized workspace events outcome) :
    Consented "destroy" (phrasesFor workspace) events := by
  have hcommands := hdestruction.guardSequence.commands_isPrefix
  constructor
  · rw [← countP_destructionCommands workspace]
    exact hcommands.sublist.countP_le
  · intro args hargs hchanges
    obtain rfl := eq_destroyArgs_of_changes (hcommands.subset hargs) hchanges
    obtain ⟨resources, opening, phrase, planning, result, hcounting, _, _, hphrased, rfl, _⟩ :=
      hdestruction.destroys_of_mem (mem_commandsOf.mp hargs)
    obtain ⟨prompt, hprompt⟩ : ∃ prompt, destroyQuestion resources workspace = .yesNo prompt :=
      ⟨_, rfl⟩
    have hanswers : answersOf (.ran planDestroyArgs (.ok planning) ::
        .asked (destroyQuestion resources workspace) true :: phrase) =
          (destroyQuestion resources workspace, true) :: answersOf phrase := rfl
    have hlast : answersOf [.ran destroyArgs result] = [] := rfl
    refine ⟨rfl, prompt, ?_⟩
    rw [answersOf_append, answersOf_append, hcounting.answers, hanswers, hphrased.answers, hlast,
      hprompt, List.nil_append, List.append_nil, List.map_cons]

end Lifecycle
end TerraStack.Terraform
