import TerraStack.Proofs.CommandLine.Consent
import TerraStack.Proofs.CommandLine.Preflight
import TerraStack.Proofs.Result

namespace TerraStack.Terraform.Lifecycle

/-- Unopposed, a deployment comes to its end. -/
theorem unopposed_deploy (planOnly : Bool) :
    (deploy planOnly).unopposed = .ok (if planOnly then .planned else .applied) := by
  cases planOnly <;> rfl

/-- Unopposed, the destruction without a workspace comes to its end. -/
theorem unopposed_confirmedDestroy : confirmedDestroy.unopposed = .ok () := rfl

/-- A destruction that is not even asked about comes to an empty output. -/
theorem unopposed_destroy :
    destroy.unopposed = .ok { args := destroyArgs, exitCode := 0, stdout := "", stderr := "" } := rfl

end TerraStack.Terraform.Lifecycle

namespace TerraStack.CommandLine

open Terraform (Procedure Programs)

/-- Whether an action has terraform do something with the files that are generated. -/
def Action.needsTerraform : Action → Bool
  | .generate => false
  | .validate _ => false
  | .deploy _ _ => true
  | .destroy _ _ => true

namespace Step

/-- A step that does nothing but say something to the operator. -/
def OnlySays (step : Step Unit) : Prop :=
  ∀ session, ∃ text, step.runFrom session = (.ok (), session.say text)

theorem onlySays_pure : OnlySays (pure () : Step Unit) :=
  fun session => ⟨"", by rw [Session.say_empty]; rfl⟩

theorem onlySays_report (isQuiet : Bool) (line : String) : OnlySays (report isQuiet line) :=
  fun session => ⟨_, runFrom_report isQuiet line session⟩

/-- Steps that only speak, one after the other, only speak. -/
theorem OnlySays.bind {step : Step Unit} {next : Unit → Step Unit} (hstep : OnlySays step)
    (hnext : OnlySays (next ())) : OnlySays (step >>= next) := by
  intro session
  obtain ⟨first, hfirst⟩ := hstep session
  obtain ⟨second, hsecond⟩ := hnext (session.say first)
  refine ⟨first ++ second, ?_⟩
  rw [runFrom_bind, hfirst]
  dsimp only
  rw [hsecond, Session.say_say]

end Step

open Step (OnlySays onlySays_pure onlySays_report)

variable {globals : Globals} {α : Type}

/-- In a dry run a procedure comes to what it comes to unopposed, in every session, and leaves the
session as it is. -/
theorem runFrom_perform_of_dry (hdry : globals.isDry = true) (programs : Programs) (approved : Bool)
    (procedure : Procedure α) (session : Session) :
    (perform programs globals approved procedure).runFrom session =
      (procedure.unopposed.mapError .terraform, session) := by
  unfold perform
  rw [Step.runFrom_get_bind, perform_of_dry hdry]
  dsimp only
  rw [Step.runFrom_set_bind, Step.runFrom_ofExcept]

/-- A dry run does not look for terraform. -/
theorem requireTerraform_of_dry (hdry : globals.isDry = true) (programs : Programs) :
    requireTerraform programs globals = pure () := by
  unfold requireTerraform
  rw [if_pos hdry]

/-- Behind a procedure that comes to a result unopposed, a dry run goes on with that result. -/
theorem onlySays_perform_bind {next : α → Step Unit} {value : α} (hdry : globals.isDry = true)
    {procedure : Procedure α} (hunopposed : procedure.unopposed = .ok value)
    (hnext : OnlySays (next value)) (programs : Programs) (approved : Bool) :
    OnlySays (perform programs globals approved procedure >>= next) := by
  intro session
  rw [Step.runFrom_bind, runFrom_perform_of_dry hdry, hunopposed]
  exact hnext session

/-- Behind the generation, a dry run only speaks. -/
theorem steps_of_dry {request : Request} (hdry : request.globals.isDry = true)
    (haction : request.action.needsTerraform = true) (programs : Programs) :
    ∃ rest : Generated → Step Unit, (∀ generated, OnlySays (rest generated)) ∧
      request.steps programs = generateFiles request.globals request.config >>= rest := by
  obtain ⟨globals, config, action⟩ := request
  change globals.isDry = true at hdry
  cases action with
  | generate => cases haction
  | validate _ => cases haction
  | deploy planOnly approved =>
    refine ⟨_, fun generated => ?_, rfl⟩
    rw [requireTerraform_of_dry hdry]
    refine onlySays_pure.bind (onlySays_perform_bind hdry (Terraform.Lifecycle.unopposed_deploy planOnly) ?_
      programs approved)
    cases planOnly with
    | true => exact onlySays_report _ _
    | false => exact onlySays_report _ _
  | destroy workspace approved =>
    refine ⟨_, fun generated => ?_, rfl⟩
    rw [requireTerraform_of_dry hdry]
    refine onlySays_pure.bind ?_
    cases workspace with
    | none =>
      exact onlySays_perform_bind hdry Terraform.Lifecycle.unopposed_confirmedDestroy
        (onlySays_report _ _) programs approved
    | some workspace =>
      dsimp only
      rw [if_pos hdry]
      exact onlySays_perform_bind hdry Terraform.Lifecycle.unopposed_destroy onlySays_pure programs approved

/-- Where a step is followed by words only, all but the words is as it is without them. -/
theorem concluded_bind {step : Step α} {rest : α → Step Unit} {session after : Session}
    {result : Except Failure α} (hrest : ∀ value, OnlySays (rest value))
    (hstep : step.runFrom session = (result, after)) :
    ∃ text, concluded ((step >>= rest).runFrom session) =
      (concluded (result.map fun _ => (), after)).map id (Session.say text) := by
  rw [Step.runFrom_bind, hstep]
  cases result with
  | error failure => exact ⟨"", Prod.ext rfl (Session.say_empty _).symm⟩
  | ok value =>
    obtain ⟨text, htext⟩ := hrest value after
    refine ⟨text, ?_⟩
    dsimp only
    rw [htext]
    rfl

/-- The request to generate speaks behind the generation, too. -/
theorem generate_eq (globals : Globals) (config : String) :
    ∃ rest : Generated → Step Unit, (∀ generated, OnlySays (rest generated)) ∧
      generate globals config = generateFiles globals config >>= rest :=
  ⟨_, fun _ => (onlySays_report _ _).bind (onlySays_report _ _), rfl⟩

/-- A dry run of a request generates and does no more: it ends as the generation of the same stack
ends that is given other programs and other answers, and it starts nothing and takes nothing of what
the operator has typed. -/
theorem dryRun_onlyGenerates {environmentProgram : Option String} {arguments : List String}
    {request : Request}
    (hrequest : Request.ofArguments environmentProgram arguments = .ok request)
    (hdry : request.globals.isDry = true) (haction : request.action.needsTerraform = true)
    (programs others : Programs) (files : FileSystem) (input typed : List Char) :
    let rehearsed := run programs environmentProgram arguments { files, input }
    let generated := Request.run others { request with action := .generate } { files, input := typed }
    rehearsed.1 = generated.1 ∧ rehearsed.2.files = generated.2.files ∧
      rehearsed.2.errors = generated.2.errors ∧
      rehearsed.2.started = [] ∧ rehearsed.2.input = input := by
  intro rehearsed generated
  obtain ⟨effect, heffect⟩ := Step.onlyFiles_generateFiles request.globals request.config
  obtain ⟨rest, hrest, hsteps⟩ := steps_of_dry hdry haction programs
  obtain ⟨words, hwords, hgenerate⟩ := generate_eq request.globals request.config
  obtain ⟨said, hsaid⟩ := concluded_bind hrest (heffect { files, input })
  obtain ⟨told, htold⟩ := concluded_bind hwords (heffect { files, input := typed })
  have hrehearsed : rehearsed =
      concluded ((generateFiles request.globals request.config >>= rest).runFrom { files, input }) := by
    unfold rehearsed run
    rw [hrequest, ← hsteps]
    rfl
  have hgenerated : generated = concluded
      ((generateFiles request.globals request.config >>= words).runFrom { files, input := typed }) := by
    rw [← hgenerate]
    rfl
  rw [hrehearsed, hsaid, hgenerated, htold]
  cases effect files with
  | mk result after =>
    cases result with
    | ok made => exact ⟨rfl, rfl, rfl, rfl, rfl⟩
    | error failure => exact ⟨rfl, rfl, rfl, rfl, rfl⟩

/-- The command line that rehearses the destruction of a workspace in production. -/
def rehearseDestroy : List String :=
  ["--dry-run", "destroy", "stack.yaml", "--workspace", "Prod"]

/-- Two answers are there to be read and a terraform to be started, and neither is touched. -/
theorem rehearseDestroy_onlyGenerates :
    let request : Request := ⟨{ isDry := true }, "stack.yaml", .destroy (some "Prod") false⟩
    let rehearsed := run productionTerraform none rehearseDestroy
      { files := initializedFiles, input := twoAnswers }
    let generated := run productionTerraform none ["--dry-run", "generate", "stack.yaml"]
      { files := initializedFiles }
    (Request.ofArguments none rehearseDestroy = .ok request ∧ request.globals.isDry = true ∧
      request.action.needsTerraform = true) ∧
    rehearsed.1 = .success ∧ rehearsed.1 = generated.1 ∧ rehearsed.2.files = generated.2.files ∧
      rehearsed.2.errors = generated.2.errors ∧
      rehearsed.2.started = [] ∧ rehearsed.2.input = twoAnswers := by
  have hrequest : Request.ofArguments none rehearseDestroy =
      .ok ⟨{ isDry := true }, "stack.yaml", .destroy (some "Prod") false⟩ :=
    eq_ok_of_toOption (by decide +kernel)
  have hgenerate : Request.ofArguments none ["--dry-run", "generate", "stack.yaml"] =
      .ok ⟨{ isDry := true }, "stack.yaml", .generate⟩ :=
    eq_ok_of_toOption (by decide +kernel)
  intro request rehearsed generated
  refine ⟨⟨hrequest, rfl, rfl⟩, by decide +kernel, ?_⟩
  have hgenerated : generated = Request.run productionTerraform { request with action := .generate }
      { files := initializedFiles, input := [] } := by
    unfold generated run
    rw [hgenerate]
  rw [hgenerated]
  exact dryRun_onlyGenerates hrequest rfl rfl productionTerraform productionTerraform initializedFiles
    twoAnswers []

end TerraStack.CommandLine
