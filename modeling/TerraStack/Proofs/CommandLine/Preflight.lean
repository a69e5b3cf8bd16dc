import TerraStack.Proofs.CommandLine.Steps
import TerraStack.Proofs.Order.Resolve

namespace TerraStack.CommandLine

open Terraform (Procedure Programs)

/-- What a stack file comes to before anything is written. All requests begin with it, so whatever
is wrong with the stack is found there. -/
def prepared (files : FileSystem) (path : String) : Except Failure (Stack × Generated) := do
  let stack ← loaded files path
  let generated ← stack.generate.mapError .stack
  return (stack, generated)

/-- A stack is prepared if it can be loaded and its files can be made. -/
theorem prepared_eq_ok_iff {files : FileSystem} {path : String} {stack : Stack} {generated : Generated} :
    prepared files path = .ok (stack, generated) ↔
      Stack.load files path = .ok stack ∧ stack.generate = .ok generated := by
  constructor
  · intro hprepared
    obtain ⟨found, hloaded, hrest⟩ := bind_eq_ok.mp hprepared
    obtain ⟨made, hmade, hreturn⟩ := bind_eq_ok.mp hrest
    cases hreturn
    exact ⟨loaded_eq_ok.mp hloaded, mapError_eq_ok.mp hmade⟩
  · rintro ⟨hload, hgenerate⟩
    exact bind_eq_ok.mpr ⟨stack, loaded_eq_ok.mpr hload,
      bind_eq_ok.mpr ⟨generated, mapError_eq_ok.mpr hgenerate, rfl⟩⟩

/-- Write the files of a stack that has been prepared. -/
def writeFiles (globals : Globals) (stack : Stack) (generated : Generated) : Step Generated := do
  let _ ← Step.changeFiles (globals.writer.write generated.artifacts)
  let _ ← Step.changeFiles (globals.writer.writeTfvars stack)
  return generated

/-- Lines as the operator sees them, who may want quiet. -/
def shown (isQuiet : Bool) (lines : List String) : String :=
  if isQuiet then "" else String.join (lines.map (· ++ "\n"))

/-- What the check of a stack shows of the order of its modules. -/
def orderReport (isQuiet asJson : Bool) (order : List String) : String :=
  if asJson then Text.Json.array order ++ "\n"
  else shown isQuiet (("📋 " ++ toString order.length ++ " enabled modules") :: orderLines order
    ++ ["", "✅ Stack is valid"])

/-- What is shown once the files of a stack have been written. -/
def generationReport (globals : Globals) (order : List String) : String :=
  shown globals.isQuiet ["✅ Generated Terraform files in " ++ globals.writer.generatedPath,
    "   Module order: " ++ Text.join " → " order]

theorem shown_append (isQuiet : Bool) (lines more : List String) :
    shown isQuiet (lines ++ more) = shown isQuiet lines ++ shown isQuiet more := by
  cases isQuiet with
  | true => rfl
  | false => simp [shown]

@[simp] theorem Session.say_say (first second : String) (session : Session) :
    (session.say first).say second = session.say (first ++ second) := by
  simp [Session.say, String.append_assoc]

@[simp] theorem Session.say_empty (session : Session) : session.say "" = session := by
  simp [Session.say]

namespace Step

variable {α β ε : Type} {session after : Session}

/-- A line that is reported is shown, unless the operator wants quiet. -/
theorem runFrom_report (isQuiet : Bool) (line : String) (session : Session) :
    (report isQuiet line).runFrom session = (.ok (), session.say (shown isQuiet [line])) := by
  cases isQuiet with
  | true =>
    rw [shown, if_pos rfl, Session.say_empty]
    rfl
  | false =>
    have hline : shown false [line] = line ++ "\n" := by simp [shown]
    rw [hline]
    rfl

theorem runFrom_report_bind (isQuiet : Bool) (line : String) (next : Unit → Step β)
    (session : Session) :
    (report isQuiet line >>= next).runFrom session =
      (next ()).runFrom (session.say (shown isQuiet [line])) := by
  rw [runFrom_bind, runFrom_report]

/-- Lines that are reported one after another are shown one after another. -/
theorem runFrom_reports (isQuiet : Bool) (lines : List String) (session : Session) :
    (lines.forM (report isQuiet)).runFrom session = (.ok (), session.say (shown isQuiet lines)) := by
  induction lines generalizing session with
  | nil =>
    have hnothing : shown isQuiet [] = "" := by cases isQuiet <;> rfl
    rw [hnothing, Session.say_empty]
    rfl
  | cons line rest ih =>
    change (report isQuiet line >>= fun _ => rest.forM (report isQuiet)).runFrom session = _
    rw [runFrom_report_bind, ih, Session.say_say, ← shown_append]
    rfl

/-- To load a stack file and to make the files of the stack changes nothing, however it ends. -/
theorem runFrom_prepare (path : String) (next : Stack → Generated → Step β) (session : Session) :
    (loadStack path >>= fun stack => generateStack stack >>= next stack).runFrom session =
      match prepared session.files path with
      | .error failure => (.error failure, session)
      | .ok (stack, generated) => (next stack generated).runFrom session := by
  rw [runFrom_bind, runFrom_loadStack]
  unfold prepared
  cases loaded session.files path with
  | error failure => rfl
  | ok stack =>
    dsimp only
    rw [runFrom_bind, generateStack, runFrom_ofExcept]
    dsimp only [bind, Except.bind]
    cases stack.generate with
    | error error => rfl
    | ok generated => rfl

/-- To generate files is to prepare the stack and then to write. Where the preparation fails the
session is as it was. -/
theorem runFrom_generateFiles (globals : Globals) (path : String) (session : Session) :
    (generateFiles globals path).runFrom session =
      match prepared session.files path with
      | .error failure => (.error failure, session)
      | .ok (stack, generated) => (writeFiles globals stack generated).runFrom session :=
  runFrom_prepare path (writeFiles globals) session

/-- A request whose stack cannot be prepared ends there, whatever it was to do behind the
generation. -/
theorem runFrom_generateFiles_bind_of_error {path : String} {failure : Failure}
    (hprepared : prepared session.files path = .error failure) (globals : Globals)
    (next : Generated → Step β) :
    (generateFiles globals path >>= next).runFrom session = (.error failure, session) := by
  rw [runFrom_bind, runFrom_generateFiles, hprepared]

/-- The check fails as the preparation fails, and else it shows the order. -/
theorem runFrom_validate (globals : Globals) (path : String) (asJson : Bool) (session : Session) :
    (validate globals path asJson).runFrom session =
      match prepared session.files path with
      | .error failure => (.error failure, session)
      | .ok (_, generated) =>
        (.ok (), session.say (orderReport globals.isQuiet asJson generated.order)) := by
  refine (runFrom_prepare path _ session).trans ?_
  split
  · rfl
  · next stack generated _ =>
    unfold orderReport
    cases asJson with
    | true => rfl
    | false =>
      have hlines (first last : String) (lines : List String) :
          shown globals.isQuiet (first :: lines ++ ["", last]) =
            shown globals.isQuiet [first] ++ (shown globals.isQuiet lines
              ++ (shown globals.isQuiet [""] ++ shown globals.isQuiet [last])) := by
        rw [← shown_append, ← shown_append, ← shown_append]
        rfl
      simp only [Bool.false_eq_true, if_false]
      rw [runFrom_report_bind, runFrom_bind, runFrom_reports]
      simp only [runFrom_report_bind, runFrom_report, Session.say_say]
      rw [hlines, String.append_assoc, String.append_assoc]

/-- To write files changes files alone, and fails for the sake of files alone. -/
theorem runFrom_writeFiles (globals : Globals) (stack : Stack) (generated : Generated)
    (session : Session) :
    ∃ files, (writeFiles globals stack generated).runFrom session =
        (.ok generated, { session with files }) ∨
      ∃ error, (writeFiles globals stack generated).runFrom session =
        (.error (.stack (.file error)), { session with files }) := by
  unfold writeFiles
  rw [runFrom_bind, runFrom_changeFiles]
  cases hwrite : globals.writer.write generated.artifacts session.files with
  | mk written paths =>
    cases paths with
    | error error => exact ⟨written, .inr ⟨error, rfl⟩⟩
    | ok paths =>
      dsimp only
      rw [runFrom_ofExcept_ok]
      dsimp only
      rw [runFrom_bind, runFrom_changeFiles]
      cases hvalues : globals.writer.writeTfvars stack written with
      | mk files values =>
        cases values with
        | error error => exact ⟨files, .inr ⟨error, rfl⟩⟩
        | ok values => exact ⟨files, .inl rfl⟩

/-- Whenever a step fails, its failure is one of some failures. -/
def FailsAs (allowed : Failure → Prop) (step : Step α) : Prop :=
  ∀ session failure after, step.runFrom session = (.error failure, after) → allowed failure

variable {allowed : Failure → Prop}

theorem failsAs_pure (value : α) : FailsAs allowed (pure value : Step α) :=
  fun _ _ _ hfails => nomatch hfails

/-- A result that is taken over fails for its own reason only. -/
theorem failsAs_ofExcept {failure : ε → Failure} (hallowed : ∀ error, allowed (failure error))
    (result : Except ε α) : FailsAs allowed (ofExcept failure result) := by
  intro session actual after hfails
  cases result with
  | ok value => cases hfails
  | error error =>
    cases hfails
    exact hallowed error

/-- Two steps, one after the other, fail as one of them fails. -/
theorem FailsAs.bind {step : Step α} {next : α → Step β} (hstep : FailsAs allowed step)
    (hnext : ∀ value, FailsAs allowed (next value)) : FailsAs allowed (step >>= next) := by
  intro session failure after hfails
  rw [runFrom_bind] at hfails
  cases hresult : step.runFrom session with
  | mk result middle =>
    rw [hresult] at hfails
    cases result with
    | error actual =>
      cases hfails
      exact hstep session failure after hresult
    | ok value => exact hnext value middle failure after hfails

theorem failsAs_report (isQuiet : Bool) (line : String) : FailsAs allowed (report isQuiet line) := by
  intro session failure after hfails
  rw [runFrom_report] at hfails
  cases hfails

end Step

open Step (FailsAs failsAs_pure failsAs_ofExcept failsAs_report)

/-- The failures that have nothing to do with the stack: a file cannot be read or written, or
terraform fails. -/
inductive FileOrTerraformFailure : Failure → Prop where
  | file (error : FileError) : FileOrTerraformFailure (.stack (.file error))
  | terraform (error : Terraform.Error) : FileOrTerraformFailure (.terraform error)

/-- A failure that has nothing to do with the stack gives one of two exit codes. -/
theorem FileOrTerraformFailure.exitCode {failure : Failure} (hfailure : FileOrTerraformFailure failure) :
    failure.exitCode = .general ∨ failure.exitCode = .terraform := by
  cases hfailure with
  | file error => exact .inl rfl
  | terraform error => cases error <;> simp [Failure.exitCode, exitCodeOfTerraform]

/-- To write prepared files fails only for the sake of files. -/
theorem failsAs_writeFiles (globals : Globals) (stack : Stack) (generated : Generated) :
    FailsAs FileOrTerraformFailure (writeFiles globals stack generated) := by
  intro session failure after hfails
  obtain ⟨files, hwritten | ⟨error, hwritten⟩⟩ := Step.runFrom_writeFiles globals stack generated session
  · rw [hwritten] at hfails
    cases hfails
  · rw [hwritten] at hfails
    cases hfails
    exact .file error

/-- Where terraform cannot be run the stack is not at fault. -/
theorem failsAs_requireTerraform (programs : Programs) (globals : Globals) :
    FailsAs FileOrTerraformFailure (requireTerraform programs globals) := by
  intro session failure after hfails
  unfold requireTerraform at hfails
  split at hfails
  · cases hfails
  · rw [Step.runFrom_get_bind] at hfails
    dsimp only at hfails
    rw [Step.runFrom_set_bind] at hfails
    split at hfails
    · cases hfails
    · cases hfails
      exact .terraform _

/-- A procedure fails only as terraform fails. -/
theorem failsAs_perform {α : Type} (programs : Programs) (globals : Globals) (approved : Bool)
    (procedure : Procedure α) :
    FailsAs FileOrTerraformFailure (perform programs globals approved procedure) := by
  intro session failure after hfails
  exact failsAs_ofExcept FileOrTerraformFailure.terraform _ _ failure after hfails

theorem failsAs_destroyWorkspace (programs : Programs) (globals : Globals) (workspace : String)
    (approved : Bool) :
    FailsAs FileOrTerraformFailure (destroyWorkspace programs globals workspace approved) := by
  intro session failure after hfails
  unfold destroyWorkspace at hfails
  rw [Step.runFrom_get_bind] at hfails
  refine ((failsAs_perform programs globals approved _).bind fun outcome => ?_) session failure after hfails
  cases outcome with
  | nothingToDestroy => exact failsAs_report _ _
  | destroyed resources => exact failsAs_report _ _

variable {programs : Programs} {request : Request} {session : Session}

/-- How a request ends with what its steps come to. -/
def concluded : Except Failure Unit × Session → ExitCode × Session
  | (.ok (), session) => (.success, session)
  | (.error failure, session) =>
    (failure.exitCode, session.warn ("❌ Error: " ++ failure.message ++ "\n"))

/-- A request is its steps, and behind them what the operator is told. -/
theorem Request.run_eq (programs : Programs) (request : Request) (session : Session) :
    request.run programs session = concluded ((request.steps programs).runFrom session) := rfl

/-- No failure has the exit code of a success. -/
theorem Failure.exitCode_ne_success (failure : Failure) : failure.exitCode ≠ .success := by
  have hstack (error : StackError) : exitCodeOfStack error ≠ .success := by
    cases error <;> simp [exitCodeOfStack]
  cases failure with
  | missingConfig path => simp [exitCode]
  | notLoaded path error => exact hstack error
  | stack error => exact hstack error
  | terraform error => cases error <;> simp [exitCode, exitCodeOfTerraform]

/-- A request about a stack that cannot be prepared does nothing but tell why. -/
theorem Request.run_of_error {failure : Failure}
    (hprepared : prepared session.files request.config = .error failure) :
    request.run programs session = concluded (.error failure, session) := by
  obtain ⟨globals, config, action⟩ := request
  rw [Request.run_eq]
  congr 1
  cases action with
  | generate => exact Step.runFrom_generateFiles_bind_of_error hprepared globals _
  | validate asJson =>
    refine (Step.runFrom_validate globals config asJson session).trans ?_
    rw [hprepared]
  | deploy planOnly approved => exact Step.runFrom_generateFiles_bind_of_error hprepared globals _
  | destroy workspace approved => exact Step.runFrom_generateFiles_bind_of_error hprepared globals _

section prepared

variable {stack : Stack} {generated : Generated}

/-- The files of a stack that has been prepared have only to be written. -/
theorem runFrom_generateFiles_of_ok {path : String}
    (hprepared : prepared session.files path = .ok (stack, generated)) (globals : Globals) :
    (generateFiles globals path).runFrom session =
      (writeFiles globals stack generated).runFrom session := by
  rw [Step.runFrom_generateFiles, hprepared]

/-- Behind the preparation no request fails for a reason that the check could have told. -/
theorem fileOrTerraformFailure_of_prepared
    (hprepared : prepared session.files request.config = .ok (stack, generated)) {failure : Failure}
    {after : Session}
    (hfails : (request.steps programs).runFrom session = (.error failure, after)) :
    FileOrTerraformFailure failure := by
  obtain ⟨globals, config, action⟩ := request
  have hwrites (rest : Generated → Step Unit)
      (hrest : ∀ generated, FailsAs FileOrTerraformFailure (rest generated))
      (hfails : (generateFiles globals config >>= rest).runFrom session = (.error failure, after)) :
      FileOrTerraformFailure failure := by
    have hwriting := (failsAs_writeFiles globals stack generated).bind hrest
    rw [Step.runFrom_bind, runFrom_generateFiles_of_ok hprepared, ← Step.runFrom_bind] at hfails
    exact hwriting session failure after hfails
  cases action with
  | generate =>
    refine hwrites _ (fun generated => ?_) hfails
    exact (failsAs_report _ _).bind fun _ => failsAs_report _ _
  | validate asJson =>
    have hvalidate := Step.runFrom_validate globals config asJson session
    rw [hprepared] at hvalidate
    cases hvalidate.symm.trans hfails
  | deploy planOnly approved =>
    refine hwrites _ (fun _ => (failsAs_requireTerraform programs globals).bind fun _ => ?_) hfails
    refine (failsAs_perform programs globals approved _).bind fun outcome => ?_
    cases outcome with
    | planned => exact failsAs_report _ _
    | applied => exact failsAs_report _ _
  | destroy workspace approved =>
    refine hwrites _ (fun _ => (failsAs_requireTerraform programs globals).bind fun _ => ?_) hfails
    cases workspace with
    | none =>
      exact (failsAs_perform programs globals approved _).bind fun _ => failsAs_report _ _
    | some workspace =>
      dsimp only
      split
      · exact (failsAs_perform programs globals approved _).bind fun _ => failsAs_pure ()
      · exact failsAs_destroyWorkspace programs globals workspace approved

/-- Once the stack is prepared the exit codes that blame it cannot come. -/
theorem Request.exitCode_of_prepared
    (hprepared : prepared session.files request.config = .ok (stack, generated)) :
    (request.run programs session).1 ∈ [ExitCode.success, .general, .terraform] := by
  rw [Request.run_eq]
  cases hsteps : (request.steps programs).runFrom session with
  | mk result after =>
    cases result with
    | ok value => exact List.mem_cons_self
    | error failure =>
      rcases (fileOrTerraformFailure_of_prepared hprepared hsteps).exitCode with hcode | hcode
      · simp [concluded, hcode]
      · simp [concluded, hcode]

/-- The request to generate shows the order that the preparation found, or it fails to write. -/
theorem run_generate_of_prepared {config : String}
    (hprepared : prepared session.files config = .ok (stack, generated)) (globals : Globals) :
    ∃ files, Request.run programs ⟨globals, config, .generate⟩ session =
        (.success, Session.say (generationReport globals generated.order) { session with files }) ∨
      ∃ error : FileError, Request.run programs ⟨globals, config, .generate⟩ session =
        concluded (.error (.stack (.file error)), { session with files }) := by
  have hsteps : Request.steps programs ⟨globals, config, .generate⟩ = generate globals config := rfl
  rw [Request.run_eq, hsteps, generate, Step.runFrom_bind, runFrom_generateFiles_of_ok hprepared]
  obtain ⟨files, hwritten | ⟨error, hwritten⟩⟩ := Step.runFrom_writeFiles globals stack generated session
  · refine ⟨files, .inl ?_⟩
    have hreport : generationReport globals generated.order =
        shown globals.isQuiet ["✅ Generated Terraform files in " ++ globals.writer.generatedPath] ++
          shown globals.isQuiet ["   Module order: " ++ Text.join " → " generated.order] := by
      rw [← shown_append]
      rfl
    rw [hwritten, hreport, ← Session.say_say]
    dsimp only
    rw [Step.runFrom_report_bind, Step.runFrom_report]
    rfl
  · refine ⟨files, .inr ⟨error, ?_⟩⟩
    rw [hwritten]

end prepared

/-- What all requests about a stack file share if there is nothing wrong with the stack: each
prepares the same stack and the same files. -/
structure PreparesAs (programs : Programs) (config : String) (session : Session) (stack : Stack)
    (generated : Generated) : Prop where
  load : Stack.load session.files config = .ok stack
  generate : stack.generate = .ok generated
  validates : ∀ globals asJson, Request.run programs ⟨globals, config, .validate asJson⟩ session =
    (.success, session.say (orderReport globals.isQuiet asJson generated.order))
  /-- What is left of the generation is to write the files. -/
  writes : ∀ globals, (generateFiles globals config).runFrom session =
    (writeFiles globals stack generated).runFrom session
  /-- Unless a file cannot be written, the order is shown. -/
  generates : ∀ globals, ∃ files,
    Request.run programs ⟨globals, config, .generate⟩ session =
        (.success, Session.say (generationReport globals generated.order) { session with files }) ∨
      ∃ error : FileError, Request.run programs ⟨globals, config, .generate⟩ session =
        concluded (.error (.stack (.file error)), { session with files })
  /-- No request finds fault with its arguments or with the stack. -/
  codes : ∀ request : Request, request.config = config →
    (request.run programs session).1 ∈ [ExitCode.success, .general, .terraform]

/-- Requests about one stack file all start from the same preparation. -/
theorem preparesAs_of_prepared {config : String} {stack : Stack} {generated : Generated}
    (programs : Programs) (hprepared : prepared session.files config = .ok (stack, generated)) :
    PreparesAs programs config session stack generated where
  load := (prepared_eq_ok_iff.mp hprepared).1
  generate := (prepared_eq_ok_iff.mp hprepared).2
  validates globals asJson := by
    have hvalidate := Step.runFrom_validate globals config asJson session
    rw [hprepared] at hvalidate
    exact congrArg concluded hvalidate
  writes := runFrom_generateFiles_of_ok hprepared
  generates := run_generate_of_prepared hprepared
  codes request hconfig := Request.exitCode_of_prepared (hconfig ▸ hprepared)

/-- The modules of a stack that cannot be put in order are the fault of the stack, whatever is asked
for. -/
theorem prepared_of_resolve_error {config : String} {stack : Stack} {error : StackError}
    (hload : Stack.load session.files config = .ok stack)
    (hresolve : Order.resolve stack.modules = .error error) :
    prepared session.files config = .error (.stack error) ∧ exitCodeOfStack error = .invalidStack := by
  have hgenerate : stack.generate = .error error := by
    unfold Stack.generate
    rw [hresolve]
    rfl
  constructor
  · unfold prepared
    rw [loaded_eq_ok.mpr hload]
    dsimp only [bind, Except.bind]
    rw [hgenerate]
    rfl
  · have hdiagnosis := (Order.resolve_truthful stack.modules).of_error hresolve
    cases hdiagnosis with
    | cycle _ _ => rfl
    | unresolved _ _ => rfl

/-- A working directory with nothing but a stack file. -/
def sessionWith (text : String) : Session where
  files := FileSystem.standard.put ["work", "stack.yaml"] (.text text)

/-- A stack of two modules, the first of which needs the second. -/
def soundText : String :=
  "modules:\n  app:\n    depends_on: net\n  net:\n    source: ./net\n"

/-- A stack with a module that needs itself. -/
def cyclicText : String :=
  "modules:\n  app:\n    depends_on: app\n"

/-- No program can be started. -/
def noPrograms : Programs := fun _ _ => .error "No such file or directory"

end TerraStack.CommandLine
