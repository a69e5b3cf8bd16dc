import TerraStack.Proofs.CommandLine.Performing
import TerraStack.Proofs.CommandLine.Steps

namespace TerraStack.CommandLine

open Terraform (Procedure Programs Launcher Question changesDeployment Consented commandsOf answersOf)
open Terraform.Lifecycle (productionQuestion phrasesFor)
open Step (Preserves)

/-- To ask for the version takes nothing of what the operator has typed. -/
def VersionReadsNothing (programs : Programs) : Prop :=
  ∀ machine invocation ending, invocation.args = Launcher.versionArgs →
    programs machine invocation = .ok ending → ending.input = machine.input

/-- The first line that the operator has typed is a yes. -/
def Agrees (input : List Char) : Prop :=
  ∃ line, (Text.lineChars input)[0]? = some line ∧
    (Text.trimChars line).map Char.toLower ∈ ["y".toList, "yes".toList]

/-- The second line is the phrase for workspaces in production. -/
def Insists (input : List Char) : Prop :=
  ∃ line, (Text.lineChars input)[1]? = some line ∧ Text.trimChars line = "destroy-production".toList

/-- Which actions may start terraform with a word that changes what is deployed, given what the
operator has typed. -/
inductive Permits (input : List Char) : Action → String → Prop where
  | apply {approved : Bool} (hagrees : approved = false → Agrees input) :
      Permits input (.deploy false approved) "apply"
  | destroy {approved : Bool} (hagrees : approved = false → Agrees input) :
      Permits input (.destroy none approved) "destroy"
  | destroyWorkspace {workspace : String} {approved : Bool} (hagrees : approved = false → Agrees input)
      (hinsists : approved = false → Terraform.IsProductionName workspace → Insists input) :
      Permits input (.destroy (some workspace) approved) "destroy"

/-- The lines that the operator has typed agree to some questions, one line to each. -/
def AgreesTo (questions : List Question) (input : List Char) : Prop :=
  ∀ (n : Nat) (question : Question), questions[n]? = some question →
    question.accepts ((Text.lineChars input)[n]?.map String.ofList) = true

/-- Agreement to a plain question and more starts with a yes. -/
theorem AgreesTo.agrees {prompt : String} {phrases : List Question} {input : List Char}
    (hagrees : AgreesTo (.yesNo prompt :: phrases) input) : Agrees input := by
  have haccepts := hagrees 0 (.yesNo prompt) rfl
  cases hline : (Text.lineChars input)[0]? with
  | none =>
    rw [hline] at haccepts
    cases haccepts
  | some line =>
    rw [hline] at haccepts
    refine ⟨line, hline, ?_⟩
    simpa [Question.accepts, Terraform.isAffirmative] using haccepts

/-- Agreement to all the questions before a production workspace is destroyed puts the phrase on the
second line. -/
theorem AgreesTo.insists {prompt workspace : String} {input : List Char}
    (hagrees : AgreesTo (.yesNo prompt :: phrasesFor workspace) input)
    (hproduction : Terraform.IsProductionName workspace) : Insists input := by
  have hphrase : (Question.yesNo prompt :: phrasesFor workspace)[1]? = some productionQuestion := by
    rw [phrasesFor, if_pos (Terraform.isProduction_iff.mpr hproduction)]
    rfl
  have haccepts := hagrees 1 productionQuestion hphrase
  cases hline : (Text.lineChars input)[1]? with
  | none =>
    rw [hline] at haccepts
    cases haccepts
  | some line =>
    rw [hline] at haccepts
    refine ⟨line, hline, ?_⟩
    have htrimmed : Text.trim (.ofList line) = "destroy-production" := by
      simpa [Question.accepts, productionQuestion, Terraform.Lifecycle.productionPhrase] using haccepts
    rw [← htrimmed, Text.trim, String.toList_ofList, String.toList_ofList]

variable {programs : Programs} {input : List Char} {request : Request} {session : Session}

/-- Nobody has read what the operator typed, and nothing has been applied or destroyed. -/
structure Undecided (input : List Char) (session : Session) : Prop where
  input : session.input = input
  starts : ∀ start ∈ session.started, changesDeployment start.invocation.args = false

/-- What is deployed was changed by one start at most, and only if the request permits it. -/
structure Decided (input : List Char) (request : Request) (session : Session) : Prop where
  once : session.started.countP (fun start => changesDeployment start.invocation.args) ≤ 1
  permitted : ∀ start ∈ session.started, ∀ word ∈ ["apply", "destroy"],
    start.invocation.args.head? = some word →
      request.globals.isDry = false ∧ Permits input request.action word

/-- A command that starts with one of the two words changes what is deployed. -/
theorem changesDeployment_of_head {args : List String} {word : String}
    (hword : word ∈ ["apply", "destroy"]) (hhead : args.head? = some word) :
    changesDeployment args = true := by
  simp only [List.mem_cons, List.not_mem_nil, or_false] at hword
  rcases hword with rfl | rfl
  · simp [changesDeployment, hhead]
  · simp [changesDeployment, hhead]

theorem countP_unchanged
    (hstarts : ∀ start ∈ session.started, changesDeployment start.invocation.args = false) :
    session.started.countP (fun start => changesDeployment start.invocation.args) = 0 :=
  List.countP_eq_zero.mpr fun start hstart => by simp [hstarts start hstart]

/-- Where nothing was started that changes what is deployed, there is nothing to be permitted. -/
theorem decided_of_unchanged
    (hstarts : ∀ start ∈ session.started, changesDeployment start.invocation.args = false) :
    Decided input request session where
  once := by
    have hnone := countP_unchanged hstarts
    omega
  permitted start hstart word hword hhead := by
    have hchanges := changesDeployment_of_head hword hhead
    rw [hstarts start hstart] at hchanges
    cases hchanges

/-- As long as nothing has been decided, nothing was done without permission. -/
theorem Undecided.decided (hundecided : Undecided input session) : Decided input request session :=
  decided_of_unchanged hundecided.starts

/-- Where all questions of a procedure were agreed to, the lines that were typed agree to them. -/
theorem agreesTo_of_answers {α : Type} {globals : Globals} {approved : Bool}
    (happroved : approved = false) (hdry : globals.isDry = false) {procedure : Procedure α}
    {questions : List Question}
    (hanswers : answersOf (procedure.events (handler programs globals approved) session) =
      questions.map (·, true)) : AgreesTo questions session.input := by
  intro n question hquestion
  have hanswer : (answersOf (procedure.events (handler programs globals approved) session))[n]? =
      some (question, true) := by
    rw [hanswers, List.getElem?_map, hquestion]
    rfl
  exact (answers_perform happroved hdry procedure session hanswer).symm

/-- A procedure none of whose commands changes what is deployed needs no permission. -/
theorem Undecided.perform_unchanged {α : Type} (hundecided : Undecided input session)
    {globals : Globals} {approved : Bool} {procedure : Procedure α}
    (hunchanged : ∀ args ∈ commandsOf (procedure.events (handler programs globals approved) session),
      changesDeployment args = false) :
    Decided input request (procedure.perform (handler programs globals approved) session).2 := by
  have hamong := startedAmong_perform programs globals approved procedure session
  refine decided_of_unchanged fun start hstart => ?_
  rcases hamong.mem hstart with hearlier | hargs
  · exact hundecided.starts start hearlier
  · exact hunchanged start.invocation.args hargs

theorem Undecided.perform_dry {α : Type} (hundecided : Undecided input session) {globals : Globals}
    (hdry : globals.isDry = true) (approved : Bool) (procedure : Procedure α) :
    Decided input request (procedure.perform (handler programs globals approved) session).2 := by
  apply decided_of_unchanged
  rw [toMachine_perform_of_dry hdry programs approved procedure session]
  exact hundecided.starts

/-- A procedure that changes what is deployed only with consent does so in a session, too. -/
theorem Undecided.perform {α : Type} (hundecided : Undecided input session) (request : Request)
    {approved : Bool} {word : String} {phrases : List Question} (procedure : Procedure α)
    (hconsented : Consented word phrases
      (procedure.events (handler programs request.globals approved) session))
    (hpermits : ∀ prompt, (approved = false → AgreesTo (.yesNo prompt :: phrases) input) →
      Permits input request.action word) :
    Decided input request
      (procedure.perform (handler programs request.globals approved) session).2 := by
  cases hdry : request.globals.isDry with
  | true => exact hundecided.perform_dry hdry approved procedure
  | false =>
    obtain ⟨hinput, hunchanged⟩ := hundecided
    obtain ⟨honce, hagreed⟩ := hconsented
    have hamong := startedAmong_perform programs request.globals approved procedure session
    constructor
    · have hbefore := countP_unchanged hunchanged
      have hcount := hamong.countP_le changesDeployment
      omega
    · intro start hstart other hother hhead
      have hchanges := changesDeployment_of_head hother hhead
      rcases hamong.mem hstart with hearlier | hargs
      · rw [hunchanged start hearlier] at hchanges
        cases hchanges
      · obtain ⟨hword, prompt, hanswers⟩ := hagreed start.invocation.args hargs hchanges
        obtain rfl : other = word := Option.some.inj (hhead.symm.trans hword)
        refine ⟨hdry, hpermits prompt fun happroved => ?_⟩
        rw [← hinput]
        exact agreesTo_of_answers happroved hdry hanswers

/-- To ask whether terraform can be run decides nothing. -/
theorem Undecided.probe (hversion : VersionReadsNothing programs) (launcher : Launcher)
    (hundecided : Undecided input session) :
    Undecided input { session with toMachine := (launcher.probe programs session.toMachine).2 } := by
  obtain ⟨hinput, hunchanged⟩ := hundecided
  have hamong := session.toMachine.startedAmong_start programs (launcher.versionInvocation true)
  rw [launcher.probe_machine]
  constructor
  · have hunread := session.toMachine.input_start fun _ ending =>
      hversion session.toMachine (launcher.versionInvocation true) ending rfl
    exact hunread.trans hinput
  · intro start hstart
    rcases hamong.mem hstart with hearlier | hargs
    · exact hunchanged start hearlier
    · rw [List.mem_singleton.mp hargs]
      rfl

/-- To speak to the operator needs no permission. -/
theorem preserves_report_decided (isQuiet : Bool) (line : String) :
    Preserves (Decided input request) (Step.report isQuiet line) :=
  Step.preserves_report (fun _ _ hdecided => ⟨hdecided.once, hdecided.permitted⟩) isQuiet line

variable {globals : Globals} {config : String} {approved : Bool}

/-- A deployment applies once at most, and only with what the command line and the operator permit. -/
theorem leads_deploy (planOnly : Bool) :
    Step.Leads (Undecided input) (Decided input ⟨globals, config, .deploy planOnly approved⟩)
      (perform programs globals approved (Terraform.Lifecycle.deploy planOnly)) := by
  refine Step.leads_perform fun session hundecided => ?_
  have hdeploying := Terraform.Lifecycle.deploying_of_run
    (Procedure.run_events (handler programs globals approved) (Terraform.Lifecycle.deploy planOnly) session)
  cases planOnly with
  | true => exact hundecided.perform_unchanged hdeploying.unchanged
  | false =>
    refine hundecided.perform ⟨globals, config, .deploy false approved⟩ _
      hdeploying.consented fun prompt hagrees => ?_
    exact .apply fun happroved => (hagrees happroved).agrees

/-- The destruction without a workspace destroys once at most, and only with consent. -/
theorem leads_confirmedDestroy :
    Step.Leads (Undecided input) (Decided input ⟨globals, config, .destroy none approved⟩)
      (perform programs globals approved Terraform.Lifecycle.confirmedDestroy) := by
  refine Step.leads_perform fun session hundecided => ?_
  have hconsented := Terraform.Lifecycle.consented_confirmedDestroy
    (Procedure.run_events (handler programs globals approved) Terraform.Lifecycle.confirmedDestroy session)
  refine hundecided.perform ⟨globals, config, .destroy none approved⟩ _
    hconsented fun prompt hagrees => ?_
  exact .destroy fun happroved => (hagrees happroved).agrees

/-- The destruction of a workspace destroys once at most, and for a production workspace only with
the phrase. -/
theorem leads_destroyWorkspace (workspace : String) :
    Step.Leads (Undecided input) (Decided input ⟨globals, config, .destroy (some workspace) approved⟩)
      (destroyWorkspace programs globals workspace approved) := by
  intro session hundecided
  unfold destroyWorkspace
  rw [Step.runFrom_get_bind]
  dsimp only
  generalize isInitialized globals session.files = initialized
  have hperforms : Step.Leads (Undecided input)
      (Decided input ⟨globals, config, .destroy (some workspace) approved⟩)
      (perform programs globals approved
        (Terraform.Lifecycle.destroyWorkspace globals.writer.generatedPath initialized workspace)) := by
    refine Step.leads_perform fun session hundecided => ?_
    have hdestruction := Terraform.Lifecycle.destruction_events (handler programs globals approved)
      globals.writer.generatedPath initialized workspace session
    refine hundecided.perform ⟨globals, config, .destroy (some workspace) approved⟩ _
      hdestruction.consented fun prompt hagrees => ?_
    exact .destroyWorkspace (fun happroved => (hagrees happroved).agrees)
      fun happroved => (hagrees happroved).insists
  refine hperforms.bind (fun outcome => ?_) (fun _ hdecided => hdecided) session hundecided
  cases outcome with
  | nothingToDestroy => exact preserves_report_decided _ _
  | destroyed resources => exact preserves_report_decided _ _

/-- Whatever a request asks for, its steps do no more than is permitted: nothing has been decided
when they start, and each of them that changes what is deployed comes last. -/
theorem leads_steps (hversion : VersionReadsNothing programs) (request : Request) :
    Step.Leads (Undecided input) (Decided input request) (request.steps programs) := by
  obtain ⟨globals, config, action⟩ := request
  have hgenerates : Preserves (Undecided input) (generateFiles globals config) :=
    Step.preserves_generateFiles fun _ _ hundecided => ⟨hundecided.input, hundecided.starts⟩
  have hrequires : Preserves (Undecided input) (requireTerraform programs globals) :=
    Step.preserves_requireTerraform fun _ hundecided => hundecided.probe hversion globals.launcher
  have hsay (session : Session) (text : String) (hundecided : Undecided input session) :
      Undecided input (session.say text) := ⟨hundecided.input, hundecided.starts⟩
  cases action with
  | generate =>
    have hkeeps : Preserves (Undecided input) (generate globals config) :=
      hgenerates.bind fun _ => (Step.preserves_report hsay _ _).bind fun _ =>
        Step.preserves_report hsay _ _
    exact fun session hundecided => (hkeeps session hundecided).decided
  | validate asJson =>
    have hkeeps := Step.preserves_validate hsay globals config asJson
    exact fun session hundecided => (hkeeps session hundecided).decided
  | deploy planOnly approved =>
    refine Step.Leads.bind hgenerates (fun _ => ?_) fun _ => Undecided.decided
    refine Step.Leads.bind hrequires (fun _ => ?_) fun _ => Undecided.decided
    refine (leads_deploy planOnly).bind (fun outcome => ?_) fun _ hdecided => hdecided
    cases outcome with
    | planned => exact preserves_report_decided _ _
    | applied => exact preserves_report_decided _ _
  | destroy workspace approved =>
    refine Step.Leads.bind hgenerates (fun _ => ?_) fun _ => Undecided.decided
    refine Step.Leads.bind hrequires (fun _ => ?_) fun _ => Undecided.decided
    cases workspace with
    | none =>
      exact leads_confirmedDestroy.bind (fun _ => preserves_report_decided _ _) fun _ hdecided => hdecided
    | some workspace =>
      dsimp only
      split
      · next hdry =>
        have hperforms : Step.Leads (Undecided input)
            (Decided input ⟨globals, config, .destroy (some workspace) approved⟩)
            (perform programs globals approved Terraform.Lifecycle.destroy) :=
          Step.leads_perform fun session hundecided => hundecided.perform_dry hdry approved _
        exact hperforms.bind (fun _ => Step.preserves_pure ()) fun _ hdecided => hdecided
      · exact leads_destroyWorkspace workspace

/-- Terraform applies or destroys at most once in a run of the program, and not unless the command
line asks for that and the operator agrees. -/
theorem run_consented (hversion : VersionReadsNothing programs) (environmentProgram : Option String)
    (arguments : List String) (files : FileSystem) (input : List Char) :
    let started := (run programs environmentProgram arguments { files, input }).2.started
    started.countP (fun start => changesDeployment start.invocation.args) ≤ 1 ∧
    ∀ start ∈ started, ∀ word ∈ ["apply", "destroy"], start.invocation.args.head? = some word →
      ∃ request, Request.ofArguments environmentProgram arguments = .ok request ∧
        request.globals.isDry = false ∧ Permits input request.action word := by
  intro started
  have hfresh : Undecided input { files, input } := ⟨rfl, nofun⟩
  cases hrequest : Request.ofArguments environmentProgram arguments with
  | error stop =>
    have hnone : started = [] := by
      unfold started run
      rw [hrequest]
      cases stop <;> rfl
    rw [hnone]
    exact ⟨Nat.zero_le 1, nofun⟩
  | ok request =>
    have hstarted : started =
        ((request.steps programs).runFrom { files, input }).2.started := by
      unfold started run
      rw [hrequest]
      exact congrArg Terraform.Machine.started (run_toMachine programs request { files, input })
    have hdecided := leads_steps hversion request { files, input } hfresh
    rw [hstarted]
    refine ⟨hdecided.once, fun start hstart word hword hhead => ?_⟩
    obtain ⟨hwet, hpermits⟩ := hdecided.permitted start hstart word hword hhead
    exact ⟨request, rfl, hwet, hpermits⟩

/-- A terraform with one resource in a workspace for production. -/
def productionTerraform : Programs := fun machine invocation =>
  let listing := match invocation.args with
    | ["workspace", "list"] => "* default\n  Prod\n"
    | ["state", "list"] => "aws_vpc.main\n"
    | _ => ""
  .ok { exitCode := 0, stdout := Text.encode listing, files := machine.files, input := machine.input }

/-- The terraform with the production workspace leaves what the operator typed alone when it is
asked for its version. -/
theorem productionTerraform_versionReadsNothing : VersionReadsNothing productionTerraform := by
  intro machine invocation ending _ hending
  obtain rfl := Except.ok.inj hending
  rfl

/-- A working directory in which terraform has been initialized. -/
def initializedFiles : FileSystem :=
  ((FileSystem.standard.put ["work", "stack.yaml"] (.text "region: eu-west-1\n")).put
    ["work", "generated"] .directory).put ["work", "generated", ".terraform"] .directory

/-- The command line that destroys the workspace. -/
def destroyProduction : List String :=
  ["destroy", "stack.yaml", "--workspace", "Prod"]

/-- A yes and the phrase. -/
def twoAnswers : List Char :=
  " Yes \r\ndestroy-production\n".toList

/-- With a yes and the phrase the resource is destroyed. -/
theorem production_isConsented :
    VersionReadsNothing productionTerraform ∧
    (run productionTerraform none destroyProduction
        { files := initializedFiles, input := twoAnswers }).2.started.map (·.invocation.args) =
      [Terraform.Lifecycle.destroyArgs, Terraform.Lifecycle.planDestroyArgs,
        Terraform.Lifecycle.listResourcesArgs, Terraform.Lifecycle.selectArgs "Prod",
        Terraform.Lifecycle.listWorkspacesArgs, Launcher.versionArgs] ∧
    ∃ request, Request.ofArguments none destroyProduction = .ok request ∧
      Permits twoAnswers request.action "destroy" := by
  have hargs : (run productionTerraform none destroyProduction
        { files := initializedFiles, input := twoAnswers }).2.started.map (·.invocation.args) =
      [Terraform.Lifecycle.destroyArgs, Terraform.Lifecycle.planDestroyArgs,
        Terraform.Lifecycle.listResourcesArgs, Terraform.Lifecycle.selectArgs "Prod",
        Terraform.Lifecycle.listWorkspacesArgs, Launcher.versionArgs] := by decide +kernel
  refine ⟨productionTerraform_versionReadsNothing, hargs, ?_⟩
  have hlast : Terraform.Lifecycle.destroyArgs ∈ (run productionTerraform none destroyProduction
      { files := initializedFiles, input := twoAnswers }).2.started.map (·.invocation.args) := by
    rw [hargs]
    exact List.mem_cons_self
  obtain ⟨start, hstart, hdestroy⟩ := List.mem_map.mp hlast
  have hword : start.invocation.args.head? = some "destroy" := by
    rw [hdestroy]
    rfl
  obtain ⟨_, hpermitted⟩ := run_consented productionTerraform_versionReadsNothing none
    destroyProduction initializedFiles twoAnswers
  obtain ⟨request, hrequest, _, hpermits⟩ :=
    hpermitted start hstart "destroy" (List.mem_cons_of_mem _ List.mem_cons_self) hword
  exact ⟨request, hrequest, hpermits⟩

end TerraStack.CommandLine
