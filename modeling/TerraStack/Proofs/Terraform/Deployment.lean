import TerraStack.Proofs.Terraform.Transcript
import TerraStack.Terraform.Lifecycle

namespace TerraStack.Terraform

/-- What terraform manages: workspaces with resources, one workspace being the current one. Which
one that is a procedure cannot see: it sees only what commands print. -/
structure Deployment where
  workspaces : List String
  current : String
  /-- The resources of each workspace. -/
  resources : String → List String
  current_mem : current ∈ workspaces

/-- The output of a command that succeeds. -/
def CommandOutput.printed (args : List String) (text : String) : CommandOutput :=
  { args, exitCode := 0, stdout := text, stderr := "" }

/-- The current workspace behind an event. Only a selection that succeeds changes it. -/
def Event.currentAfter (current : String) : Event → String
  | .ran ["workspace", "select", name] (.ok output) => if output.exitCode = 0 then name else current
  | _ => current

namespace Deployment

/-- The list of workspaces that terraform prints. A star marks the current one. -/
def workspaceListing (deployment : Deployment) : String :=
  String.join (deployment.workspaces.map fun name =>
    (if name = deployment.current then "* " else "  ") ++ name ++ "\n")

/-- The list of resources that terraform prints: those of the current workspace. -/
def resourceListing (deployment : Deployment) : String :=
  String.join ((deployment.resources deployment.current).map (· ++ "\n"))

/-- Destroy the resources of the current workspace, except for some. -/
def clear (deployment : Deployment) (spared : String → Bool) : Deployment :=
  { deployment with
    resources := fun name =>
      if name = deployment.current then (deployment.resources name).filter spared
      else deployment.resources name }

/-- What a command says and does if nothing goes wrong. A workspace can be selected only if there is
such a workspace. -/
def execute (deployment : Deployment) (args : List String) : CommandOutput × Deployment :=
  match args with
  | ["workspace", "list"] => (.printed args deployment.workspaceListing, deployment)
  | ["workspace", "select", name] =>
    if hname : name ∈ deployment.workspaces then
      (.printed args "", { deployment with current := name, current_mem := hname })
    else
      ({ CommandOutput.printed args "" with exitCode := 1, stderr := "Workspace does not exist." },
        deployment)
  | ["state", "list"] => (.printed args deployment.resourceListing, deployment)
  | "destroy" :: _ => (.printed args "", deployment.clear fun _ => false)
  | _ => (.printed args "", deployment)

/-- The current workspace behind a command is the one that its event tells. -/
theorem current_execute (deployment : Deployment) (args : List String) :
    (deployment.execute args).2.current =
      Event.currentAfter deployment.current (.ran args (.ok (deployment.execute args).1)) := by
  unfold execute
  split
  · rfl
  · next name =>
    by_cases hname : name ∈ deployment.workspaces <;>
      simp [hname, Event.currentAfter, CommandOutput.printed]
  · rfl
  · next rest => cases rest <;> rfl
  · next hselect _ _ =>
    unfold Event.currentAfter
    split
    · next heq =>
      cases heq
      exact absurd rfl (hselect _)
    · rfl

/-- Terraform destroys nothing but resources of the current workspace, and only if it is told to. -/
theorem resources_execute {deployment : Deployment} {args : List String} {name : String}
    (hchanged : (deployment.execute args).2.resources name ≠ deployment.resources name) :
    args.head? = some "destroy" ∧ name = deployment.current := by
  unfold execute at hchanged
  split at hchanged
  · exact absurd rfl hchanged
  · split at hchanged <;> exact absurd rfl hchanged
  · exact absurd rfl hchanged
  · by_cases hname : name = deployment.current
    · exact ⟨rfl, hname⟩
    · exact absurd (if_neg hname) hchanged
  · exact absurd rfl hchanged

end Deployment

/-- A way in which a command fails. -/
structure Fault where
  result : Except Error CommandOutput
  fails : ∀ output, result = .ok output → output.exitCode ≠ 0
  /-- The resources that are left if it is a destruction that fails. -/
  spared : String → Bool

/-- What is not up to terraform: which commands fail, and what the operator answers. Either may
depend on everything that happened. -/
structure Environment (ε : Type) where
  fault : List String → Deployment × ε → Option Fault × ε
  answer : Question → Deployment × ε → Bool × ε

namespace Environment

variable {ε α : Type}

/-- What a command makes of terraform's own state. -/
def command (environment : Environment ε) (args : List String) (state : Deployment × ε) :
    Except Error CommandOutput × (Deployment × ε) :=
  match environment.fault args state with
  | (none, later) => (.ok (state.1.execute args).1, ((state.1.execute args).2, later))
  | (some fault, later) =>
    (fault.result, (if args.head? = some "destroy" then state.1.clear fault.spared else state.1, later))

/-- Terraform with its workspaces in an environment. -/
def handler (environment : Environment ε) : Handler (Deployment × ε) where
  command := environment.command
  answer question state :=
    ((environment.answer question state).1, (state.1, (environment.answer question state).2))

/-- A command that fails selects nothing. -/
theorem currentAfter_fault (current : String) (args : List String) (fault : Fault) :
    Event.currentAfter current (.ran args fault.result) = current := by
  unfold Event.currentAfter
  split
  · next name output heq =>
    simp only [Event.ran.injEq] at heq
    exact if_neg (fault.fails output heq.2)
  · rfl

/-- What a command leaves tells whether another workspace is the current one. -/
theorem current_command (environment : Environment ε) (args : List String) (state : Deployment × ε) :
    (environment.command args state).2.1.current =
      Event.currentAfter state.1.current (.ran args (environment.command args state).1) := by
  unfold command
  split
  · exact Deployment.current_execute state.1 args
  · next fault later _ =>
    rw [currentAfter_fault]
    split <;> rfl

/-- Only a destruction takes resources away, and only those of the current workspace. -/
theorem resources_command {environment : Environment ε} {args : List String}
    {state : Deployment × ε} {name : String}
    (hchanged : (environment.command args state).2.1.resources name ≠ state.1.resources name) :
    args.head? = some "destroy" ∧ name = state.1.current := by
  unfold command at hchanged
  split at hchanged
  · exact Deployment.resources_execute hchanged
  · by_cases hdestroy : args.head? = some "destroy"
    · refine ⟨hdestroy, ?_⟩
      by_cases hname : name = state.1.current
      · exact hname
      · simp [hdestroy, Deployment.clear, hname] at hchanged
    · simp [hdestroy] at hchanged

/-- At every moment of a procedure, what was done before tells the current workspace. -/
theorem current_of_history (environment : Environment ε) (procedure : Procedure α)
    (state : Deployment × ε) {before after : List ((Deployment × ε) × Event)}
    {moment : (Deployment × ε) × Event}
    (hhistory : procedure.history environment.handler state = before ++ moment :: after) :
    moment.1.1.current = (before.map Prod.snd).foldl Event.currentAfter state.1.current := by
  induction procedure generalizing state before with
  | done result => simp [Procedure.history] at hhistory
  | command args next ih =>
    cases before with
    | nil =>
      cases hhistory
      rfl
    | cons first before =>
      obtain ⟨rfl, hrest⟩ := List.cons.inj hhistory
      rw [ih _ _ hrest, List.map_cons, List.foldl_cons]
      exact congrArg (fun current => (before.map Prod.snd).foldl Event.currentAfter current)
        (environment.current_command args state)
  | ask question next ih =>
    cases before with
    | nil =>
      cases hhistory
      rfl
    | cons first before =>
      obtain ⟨rfl, hrest⟩ := List.cons.inj hhistory
      rw [ih _ _ hrest]
      rfl

/-- Where resources are gone, the workspace was the current one when terraform was told to destroy. -/
theorem destroys_of_resources_ne (environment : Environment ε) (procedure : Procedure α)
    (state : Deployment × ε) {name : String}
    (hchanged : (procedure.perform environment.handler state).2.1.resources name ≠
      state.1.resources name) :
    ∃ moment ∈ procedure.history environment.handler state, moment.1.1.current = name ∧
      ∃ args, moment.2.action = .run args ∧ args.head? = some "destroy" := by
  induction procedure generalizing state with
  | done result => exact absurd rfl hchanged
  | command args next ih =>
    by_cases hstep : (environment.command args state).2.1.resources name = state.1.resources name
    · rw [← hstep] at hchanged
      obtain ⟨moment, hmem, hmoment⟩ := ih _ _ hchanged
      exact ⟨moment, List.mem_cons_of_mem _ hmem, hmoment⟩
    · obtain ⟨hdestroy, hname⟩ := resources_command hstep
      exact ⟨_, List.mem_cons_self, hname.symm, args, rfl, hdestroy⟩
  | ask question next ih =>
    obtain ⟨moment, hmem, hmoment⟩ := ih _ _ hchanged
    exact ⟨moment, List.mem_cons_of_mem _ hmem, hmoment⟩

end Environment
end TerraStack.Terraform
