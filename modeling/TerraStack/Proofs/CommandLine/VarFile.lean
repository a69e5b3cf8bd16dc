import TerraStack.Proofs.CommandLine.Performing
import TerraStack.Proofs.CommandLine.Steps
import TerraStack.Proofs.Stack.ValuesFile

namespace TerraStack.CommandLine

open Terraform (Procedure Programs Machine Invocation Launcher)
open Terraform.Lifecycle (varFileArgument)

/-- Programs neither take the file at a path away nor make one. -/
def LeavesFile (programs : Programs) (path : String) : Prop :=
  ∀ machine invocation ending, programs machine invocation = .ok ending →
    ending.files.hasFile path = machine.files.hasFile path

/-- The file with the values is there, or is not, and so it was whenever terraform was told of it.
It was told in the directory of the generated files. -/
structure FileStays (writer : Writer) (isThere : Bool) (machine : Machine) : Prop where
  file : machine.files.hasFile writer.tfvarsPath = isThere
  starts : ∀ start ∈ machine.started, varFileArgument ∈ start.invocation.args →
    start.files.hasFile writer.tfvarsPath = isThere ∧
      start.invocation.workingDirectory = writer.generatedPath

namespace FileStays

variable {programs : Programs} {writer : Writer} {isThere : Bool} {machine : Machine}

/-- A start in the right directory leaves the file as it is. -/
theorem start (hleaves : LeavesFile programs writer.tfvarsPath)
    (hstays : FileStays writer isThere machine) (invocation : Invocation)
    (hplace : varFileArgument ∈ invocation.args →
      invocation.workingDirectory = writer.generatedPath) :
    FileStays writer isThere (machine.start programs invocation).2 := by
  unfold Machine.start
  dsimp only
  split
  · exact hstays
  · next ending hending =>
    refine ⟨(hleaves _ _ _ hending).trans hstays.file, fun start hstart hargs => ?_⟩
    rcases List.mem_cons.mp hstart with rfl | hearlier
    · exact ⟨hstays.file, hplace hargs⟩
    · exact hstays.starts start hearlier hargs

/-- A command of terraform leaves the file as it is. -/
theorem run (hleaves : LeavesFile programs writer.tfvarsPath) (launcher : Launcher)
    (args : List String) (hstays : FileStays writer isThere machine) :
    FileStays writer isThere (launcher.run programs writer.generatedPath args machine).2 := by
  cases hdry : launcher.isDry with
  | true =>
    rw [Launcher.run_of_dry hdry]
    exact hstays
  | false =>
    rw [Launcher.run_machine hdry]
    exact hstays.start hleaves (launcher.invocation writer.generatedPath args) fun _ => rfl

/-- To look for terraform leaves the file as it is. -/
theorem probe (hleaves : LeavesFile programs writer.tfvarsPath) (launcher : Launcher)
    (hstays : FileStays writer isThere machine) :
    FileStays writer isThere (launcher.probe programs machine).2 := by
  have hargs : varFileArgument ∉ (launcher.versionInvocation true).args := by
    simp [Launcher.versionInvocation, Launcher.versionArgs, varFileArgument]
  rw [launcher.probe_machine]
  exact hstays.start hleaves (launcher.versionInvocation true) fun hmem => absurd hmem hargs

variable {globals : Globals} {session : Session}

/-- Commands in a session leave the file as it is. -/
theorem command (hleaves : LeavesFile programs globals.writer.tfvarsPath) (approved : Bool)
    (args : List String) (hstays : FileStays globals.writer isThere session.toMachine) :
    FileStays globals.writer isThere
      ((handler programs globals approved).command args session).2.toMachine := by
  rw [toMachine_command]
  exact hstays.run hleaves globals.launcher args

/-- Questions leave the file as it is. -/
theorem answer (programs : Programs) (approved : Bool) (question : Terraform.Question)
    (hstays : FileStays globals.writer isThere session.toMachine) :
    FileStays globals.writer isThere
      ((handler programs globals approved).answer question session).2.toMachine := by
  unfold handler
  dsimp only
  split
  · exact hstays
  · unfold Session.ask
    dsimp only
    split
    · exact hstays
    · exact ⟨hstays.file, hstays.starts⟩

/-- A whole procedure leaves the file as it is: nobody touches the file between its commands, so
what is there for one is there for all. -/
theorem procedure {α : Type} (hleaves : LeavesFile programs globals.writer.tfvarsPath)
    (approved : Bool) (procedure : Procedure α)
    (hstays : FileStays globals.writer isThere session.toMachine) :
    FileStays globals.writer isThere
      (procedure.perform (handler programs globals approved) session).2.toMachine := by
  induction procedure generalizing session with
  | done result => exact hstays
  | command args next ih => exact ih _ (hstays.command hleaves approved args)
  | ask question next ih => exact ih _ (hstays.answer programs approved question)

end FileStays

open Step (Preserves)

variable {programs : Programs} {globals : Globals} {isThere : Bool}

/-- The file with the values stays as it is in a session. -/
def StaysIn (globals : Globals) (isThere : Bool) (session : Session) : Prop :=
  FileStays globals.writer isThere session.toMachine

theorem preserves_report_staysIn (isQuiet : Bool) (line : String) :
    Preserves (StaysIn globals isThere) (Step.report isQuiet line) :=
  Step.preserves_report (fun _ _ hstays => hstays) isQuiet line

section leaves

variable (hleaves : LeavesFile programs globals.writer.tfvarsPath)
include hleaves

/-- The file stays as it is while terraform is looked for. -/
theorem preserves_requireTerraform :
    Preserves (StaysIn globals isThere) (requireTerraform programs globals) :=
  Step.preserves_requireTerraform fun _ hstays => hstays.probe hleaves globals.launcher

/-- It stays as it is while a procedure is carried out. -/
theorem preserves_perform {α : Type} (approved : Bool) (procedure : Procedure α) :
    Preserves (StaysIn globals isThere) (perform programs globals approved procedure) :=
  Step.leads_perform fun _ hstays => FileStays.procedure hleaves approved procedure hstays

/-- It stays as it is while a workspace is destroyed. -/
theorem preserves_destroyWorkspace (workspace : String) (approved : Bool) :
    Preserves (StaysIn globals isThere) (destroyWorkspace programs globals workspace approved) := by
  refine Step.preserves_get.bind fun session => ?_
  refine (preserves_perform hleaves approved _).bind fun outcome => ?_
  cases outcome with
  | nothingToDestroy => exact preserves_report_staysIn _ _
  | destroyed resources => exact preserves_report_staysIn _ _

end leaves

/-- Where files are generated first and the steps behind that leave the file alone, nothing has been
started in the end, or the file stays as the generation has left it. -/
theorem started_or_stays {path : String} {rest : Generated → Step Unit} {session : Session}
    (hrest : ∀ generated isThere, Preserves (StaysIn globals isThere) (rest generated))
    (hfresh : session.started = []) :
    ((generateFiles globals path >>= rest).runFrom session).2.started = [] ∨
      ∃ generated middle, (generateFiles globals path).runFrom session = (.ok generated, middle) ∧
        StaysIn globals (middle.files.hasFile globals.writer.tfvarsPath)
          ((generateFiles globals path >>= rest).runFrom session).2 := by
  have hstarted : Preserves (fun session => session.started = []) (generateFiles globals path) :=
    Step.preserves_generateFiles fun _ _ hstarted => hstarted
  have hmiddle := hstarted session hfresh
  -- To generate files starts nothing, so the generation fails with no start or leaves all starts to
  -- the steps behind.
  rw [Step.runFrom_bind]
  cases hresult : (generateFiles globals path).runFrom session with
  | mk result middle =>
    rw [hresult] at hmiddle
    cases result with
    | error failure => exact .inl hmiddle
    | ok generated =>
      have hstays : StaysIn globals (middle.files.hasFile globals.writer.tfvarsPath) middle :=
        ⟨rfl, fun start hstart => by rw [hmiddle] at hstart; cases hstart⟩
      exact .inr ⟨generated, middle, rfl, hrest generated _ middle hstays⟩

/-- What becomes of a request, as far as the file with the values is concerned. -/
theorem steps_cases {request : Request} (session : Session)
    (hleaves : LeavesFile programs request.globals.writer.tfvarsPath)
    (hfresh : session.started = []) :
    ((request.steps programs).runFrom session).2.started = [] ∨
      ∃ generated middle,
        (generateFiles request.globals request.config).runFrom session = (.ok generated, middle) ∧
        StaysIn request.globals (middle.files.hasFile request.globals.writer.tfvarsPath)
          ((request.steps programs).runFrom session).2 := by
  obtain ⟨globals, config, action⟩ := request
  cases action with
  | generate =>
    refine started_or_stays (fun generated isThere => ?_) hfresh
    exact (preserves_report_staysIn _ _).bind fun _ => preserves_report_staysIn _ _
  | validate asJson =>
    have hstarted : Preserves (fun session => session.started = []) (validate globals config asJson) :=
      Step.preserves_validate (fun _ _ hstarted => hstarted) globals config asJson
    exact .inl (hstarted session hfresh)
  | deploy planOnly approved =>
    refine started_or_stays (fun generated isThere => ?_) hfresh
    refine (preserves_requireTerraform hleaves).bind fun _ => ?_
    refine (preserves_perform hleaves approved _).bind fun outcome => ?_
    cases outcome with
    | planned => exact preserves_report_staysIn _ _
    | applied => exact preserves_report_staysIn _ _
  | destroy workspace approved =>
    refine started_or_stays (fun generated isThere => ?_) hfresh
    refine (preserves_requireTerraform hleaves).bind fun _ => ?_
    cases workspace with
    | none =>
      exact (preserves_perform hleaves approved _).bind fun _ => preserves_report_staysIn _ _
    | some workspace =>
      dsimp only
      split
      · exact (preserves_perform hleaves approved _).bind fun _ => Step.preserves_pure ()
      · exact preserves_destroyWorkspace hleaves workspace approved

/-- Values are there once they are written: their file is there already when the generated files
have been written, or nothing is in its place and the stack generates an entry. -/
def ValuesAreThere (request : Request) (files : FileSystem) : Prop :=
  ∃ stack generated written paths, Stack.load files request.config = .ok stack ∧
    stack.generate = .ok generated ∧
    request.globals.writer.write generated.artifacts files = (written, .ok paths) ∧
    (written.hasFile request.globals.writer.tfvarsPath = true ∨
      written.contains request.globals.writer.tfvarsPath = false ∧
        Tfvars.generatedEntries stack ≠ [])

/-- Whether the file is there behind the generation of files depends on the stack and on what was
there before, and on nothing else. -/
theorem valuesAreThere_iff {request : Request} {session middle : Session} {generated : Generated}
    (hgenerate : (generateFiles request.globals request.config).runFrom session =
      (.ok generated, middle)) :
    ValuesAreThere request session.files ↔
      middle.files.hasFile request.globals.writer.tfvarsPath = true := by
  obtain ⟨stack, written, paths, files, values, hload, hgenerated, hwrite, hvalues, rfl⟩ :=
    Step.runFrom_generateFiles_eq_ok.mp hgenerate
  have hfile := Writer.hasFile_of_writeTfvars hvalues
  have hthere : files.hasFile request.globals.writer.tfvarsPath = true ↔
      written.hasFile request.globals.writer.tfvarsPath = true ∨
        written.contains request.globals.writer.tfvarsPath = false ∧
          Tfvars.generatedEntries stack ≠ [] := by
    simp [hfile]
  refine Iff.trans ?_ hthere.symm
  constructor
  · rintro ⟨stack', generated', written', paths', hload', hgenerated', hwrite', hthere'⟩
    obtain rfl := Except.ok.inj (hload.symm.trans hload')
    obtain rfl := Except.ok.inj (hgenerated.symm.trans hgenerated')
    obtain ⟨rfl, -⟩ := Prod.mk.inj (hwrite.symm.trans hwrite')
    exact hthere'
  · intro hthere'
    exact ⟨stack, generated, written, paths, hload, hgenerated, hwrite, hthere'⟩

/-- A file that is there before the generation of files is there behind it. -/
theorem hasFile_of_generateFiles {session middle : Session} {generated : Generated} {path : String}
    (hgenerate : (generateFiles globals path).runFrom session = (.ok generated, middle))
    (hfile : session.files.hasFile globals.writer.tfvarsPath = true) :
    middle.files.hasFile globals.writer.tfvarsPath = true := by
  obtain ⟨stack, written, paths, files, values, -, -, hwrite, hvalues, rfl⟩ :=
    Step.runFrom_generateFiles_eq_ok.mp hgenerate
  have hwritten := (Writer.keeps_of_write hwrite).hasFile hfile
  simp [Writer.hasFile_of_writeTfvars hvalues, hwritten]

/-- The starts at which terraform was told of the file with the values. -/
def varFileStarts (session : Session) : List Terraform.Start :=
  session.started.filter fun start => varFileArgument ∈ start.invocation.args

/-- Terraform is told of the file with the values in the directory of the generated files only. It
finds the file whenever it is told of it exactly if values are there once they are written, or if it
never is told. A file that was there from the start is found. -/
theorem run_findsVarFile_iff {request : Request} {files : FileSystem} {input : List Char}
    (hleaves : LeavesFile programs request.globals.writer.tfvarsPath) :
    let starts := varFileStarts (request.run programs { files, input }).2
    (∀ start ∈ starts, start.invocation.workingDirectory = request.globals.writer.generatedPath) ∧
    ((∀ start ∈ starts, start.files.hasFile request.globals.writer.tfvarsPath = true) ↔
      starts = [] ∨ ValuesAreThere request files) ∧
    (files.hasFile request.globals.writer.tfvarsPath = true →
      ∀ start ∈ starts, start.files.hasFile request.globals.writer.tfvarsPath = true) := by
  intro starts
  let session : Session := { files, input }
  have hstarts : starts = ((request.steps programs).runFrom session).2.started.filter
      fun start => varFileArgument ∈ start.invocation.args := by
    unfold starts varFileStarts
    rw [run_toMachine]
  rcases steps_cases session hleaves rfl with hnone | ⟨generated, middle, hgenerate, hstays⟩
  · have hempty : starts = [] := by rw [hstarts, hnone]; rfl
    rw [hempty]
    exact ⟨nofun, iff_of_true nofun (.inl rfl), fun _ => nofun⟩
  · have hfound (start : Terraform.Start) (hstart : start ∈ starts) :
        start.files.hasFile request.globals.writer.tfvarsPath =
            middle.files.hasFile request.globals.writer.tfvarsPath ∧
          start.invocation.workingDirectory = request.globals.writer.generatedPath := by
      rw [hstarts, List.mem_filter, decide_eq_true_iff] at hstart
      exact hstays.starts start hstart.1 hstart.2
    have hthere := valuesAreThere_iff hgenerate
    -- All starts agree with the file system behind the generation, so one of them decides.
    have hall (hmiddle : middle.files.hasFile request.globals.writer.tfvarsPath = true) :
        ∀ start ∈ starts, start.files.hasFile request.globals.writer.tfvarsPath = true :=
      fun start hstart => (hfound start hstart).1.trans hmiddle
    refine ⟨fun start hstart => (hfound start hstart).2, ⟨fun hfinds => ?_, ?_⟩, fun hfile => ?_⟩
    · cases hcases : starts with
      | nil => exact .inl rfl
      | cons start rest =>
        have hmem : start ∈ starts := hcases ▸ List.mem_cons_self
        exact .inr (hthere.mpr ((hfound start hmem).1.symm.trans (hfinds start hmem)))
    · rintro (hempty | hvalues)
      · rw [hempty]
        nofun
      · exact hall (hthere.mp hvalues)
    · exact hall (hasFile_of_generateFiles hgenerate hfile)

/-- Programs that succeed at once and change nothing. -/
def quietPrograms : Programs :=
  fun machine _ => .ok { exitCode := 0, files := machine.files }

theorem quietPrograms_leavesFile (path : String) : LeavesFile quietPrograms path := by
  intro machine invocation ending hending
  obtain rfl := Except.ok.inj hending
  rfl

/-- Deploy a stack without asking. -/
def deployRequest : Request where
  globals := {}
  config := "stack.yaml"
  action := .deploy false true

/-- A working directory with nothing but a stack file. -/
def filesWithStack (text : String) : FileSystem :=
  FileSystem.standard.put ["work", "stack.yaml"] (.text text)

/-- The session after the deployment of a stack. -/
def deployed (text : String) : Session :=
  (deployRequest.run quietPrograms { files := filesWithStack text }).2

/-- A stack with a region gives a value, which `plan` and `apply` find. -/
theorem region_isFound :
    LeavesFile quietPrograms deployRequest.globals.writer.tfvarsPath ∧
    ValuesAreThere deployRequest (filesWithStack "region: eu-west-1\n") ∧
    (varFileStarts (deployed "region: eu-west-1\n")).map (·.invocation.args) =
      [Terraform.Lifecycle.applyArgs, Terraform.Lifecycle.planArgs] ∧
    ∀ start ∈ varFileStarts (deployed "region: eu-west-1\n"),
      start.files.hasFile "./terraform.tfvars" = true := by
  have hleaves := quietPrograms_leavesFile deployRequest.globals.writer.tfvarsPath
  have hargs : (varFileStarts (deployed "region: eu-west-1\n")).map (·.invocation.args) =
      [Terraform.Lifecycle.applyArgs, Terraform.Lifecycle.planArgs] := by decide +kernel
  have hall : ∀ start ∈ varFileStarts (deployed "region: eu-west-1\n"),
      start.files.hasFile "./terraform.tfvars" = true := by decide +kernel
  have hsome : varFileStarts (deployed "region: eu-west-1\n") ≠ [] := by
    intro hnil
    rw [hnil] at hargs
    cases hargs
  obtain ⟨-, hfinds, -⟩ := @run_findsVarFile_iff quietPrograms deployRequest
    (filesWithStack "region: eu-west-1\n") [] hleaves
  exact ⟨hleaves, (hfinds.mp hall).resolve_left hsome, hargs, hall⟩

/-- A stack without values: `plan` and `apply` are told of a file that does not exist. -/
theorem emptyStack_missesVarFile :
    LeavesFile quietPrograms deployRequest.globals.writer.tfvarsPath ∧
    (varFileStarts (deployed "modules: \x7b\x7d\n")).map (·.invocation.args) =
      [Terraform.Lifecycle.applyArgs, Terraform.Lifecycle.planArgs] ∧
    ∀ start ∈ varFileStarts (deployed "modules: \x7b\x7d\n"),
      start.invocation.workingDirectory = "./generated" ∧
        start.files.hasFile "./terraform.tfvars" = false := by
  refine ⟨quietPrograms_leavesFile _, ?_, ?_⟩
  · decide +kernel
  · decide +kernel

end TerraStack.CommandLine
