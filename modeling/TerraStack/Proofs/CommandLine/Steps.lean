import TerraStack.CommandLine.Perform
import TerraStack.Proofs.Result

namespace TerraStack.CommandLine

/-- The stack that a request loads. -/
def loaded (files : FileSystem) (path : String) : Except Failure Stack :=
  if files.contains path then (Stack.load files path).mapError (.notLoaded path)
  else .error (.missingConfig path)

/-- A stack file is loaded as the stack that it describes. -/
theorem loaded_eq_ok {files : FileSystem} {path : String} {stack : Stack} :
    loaded files path = .ok stack ↔ Stack.load files path = .ok stack := by
  unfold loaded
  split
  · exact mapError_eq_ok
  · next hmissing => simp [Stack.load, hmissing]

namespace Step

variable {α β ε : Type} {session after : Session}

/-- Take a step in a session. -/
def runFrom (step : Step α) (session : Session) : Except Failure α × Session :=
  (ExceptT.run step).run session

/-- Two steps are taken one after the other. The second sees what the first left, and none is taken
behind a failure. -/
theorem runFrom_bind (step : Step α) (next : α → Step β) (session : Session) :
    (step >>= next).runFrom session =
      match step.runFrom session with
      | (.ok value, middle) => (next value).runFrom middle
      | (.error failure, middle) => (.error failure, middle) := by
  change (ExceptT.bindCont next (step.runFrom session).1).run (step.runFrom session).2 = _
  cases step.runFrom session with
  | mk result middle => cases result <;> rfl

/-- Two steps end well if the first does, and the second does behind it. -/
theorem runFrom_bind_eq_ok {step : Step α} {next : α → Step β} {value : β} :
    (step >>= next).runFrom session = (.ok value, after) ↔
      ∃ first middle, step.runFrom session = (.ok first, middle) ∧
        (next first).runFrom middle = (.ok value, after) := by
  rw [runFrom_bind]
  cases step.runFrom session with
  | mk result middle =>
    cases result with
    | ok first => simp [and_assoc]
    | error failure => simp

theorem runFrom_get_bind (next : Session → Step β) (session : Session) :
    (get >>= next).runFrom session = (next session).runFrom session := rfl

theorem runFrom_set_bind (next : PUnit → Step β) (session : Session) :
    (set after >>= next).runFrom session = (next ()).runFrom after := rfl

/-- A result that is taken over leaves the session as it is. -/
theorem runFrom_ofExcept (failure : ε → Failure) (result : Except ε α) (session : Session) :
    (ofExcept failure result).runFrom session = (result.mapError failure, session) := by
  cases result <;> rfl

theorem runFrom_ofExcept_ok (failure : ε → Failure) (value : α) (session : Session) :
    (ofExcept failure (.ok value)).runFrom session = (.ok value, session) := rfl

/-- To take a result over ends well exactly if the result is no error. -/
theorem runFrom_ofExcept_eq_ok {failure : ε → Failure} {result : Except ε α} {value : α} :
    (ofExcept failure result).runFrom session = (.ok value, after) ↔
      result = .ok value ∧ after = session := by
  cases result with
  | error error => exact iff_of_false nofun nofun
  | ok actual =>
    change (Except.ok actual, session) = (.ok value, after) ↔ _
    simp [eq_comm]

/-- Where one property of sessions holds before a step, another one holds behind it, whether it
fails or not. A session keeps what a step did to it even if the step fails. -/
def Leads (before after : Session → Prop) (step : Step α) : Prop :=
  ∀ session, before session → after (step.runFrom session).2

/-- Steps that lead from one property to the next lead from the first to the last. A failure between
them has to do no harm. -/
theorem Leads.bind {before between after : Session → Prop} {step : Step α} {next : α → Step β}
    (hstep : Leads before between step) (hnext : ∀ value, Leads between after (next value))
    (hfailed : ∀ session, between session → after session) : Leads before after (step >>= next) := by
  intro session hsession
  have hmiddle := hstep session hsession
  rw [runFrom_bind]
  cases hresult : step.runFrom session with
  | mk result middle =>
    rw [hresult] at hmiddle
    cases result with
    | ok value => exact hnext value middle hmiddle
    | error failure => exact hfailed middle hmiddle

/-- A property of sessions that a step keeps, whether it fails or not. -/
def Preserves (property : Session → Prop) (step : Step α) : Prop :=
  ∀ session, property session → property (step.runFrom session).2

variable {property : Session → Prop}

theorem preserves_pure (value : α) : Preserves property (pure value : Step α) :=
  fun _ hsession => hsession

theorem preserves_throw (failure : Failure) : Preserves property (throw failure : Step α) :=
  fun _ hsession => hsession

/-- What two steps keep they keep one after the other. -/
theorem Preserves.bind {step : Step α} {next : α → Step β} (hstep : Preserves property step)
    (hnext : ∀ value, Preserves property (next value)) : Preserves property (step >>= next) :=
  Leads.bind hstep hnext fun _ hsession => hsession

theorem preserves_get : Preserves property (get : Step Session) :=
  fun _ hsession => hsession

/-- To take a result over keeps every property. -/
theorem preserves_ofExcept (failure : ε → Failure) (result : Except ε α) :
    Preserves property (ofExcept failure result) := by
  cases result with
  | ok value => exact preserves_pure value
  | error error => exact preserves_throw (failure error)

/-- A property that words do not change is kept by a step that only speaks. -/
theorem preserves_say (hsay : ∀ session text, property session → property (session.say text))
    (text : String) : Preserves property (say text) :=
  fun session hsession => hsay session text hsession

/-- A property that words do not change is kept by a report, shown or not. -/
theorem preserves_report (hsay : ∀ session text, property session → property (session.say text))
    (isQuiet : Bool) (line : String) : Preserves property (report isQuiet line) := by
  unfold report
  split
  · exact preserves_pure ()
  · exact preserves_say hsay _

/-- What one step keeps is kept by a row of them. -/
theorem preserves_forM {items : List β} {step : β → Step Unit}
    (hstep : ∀ item, Preserves property (step item)) : Preserves property (items.forM step) := by
  induction items with
  | nil => exact preserves_pure ()
  | cons item rest ih => exact (hstep item).bind fun _ => ih

/-- To load a stack file is to read it. -/
theorem runFrom_loadStack (path : String) (session : Session) :
    (loadStack path).runFrom session = (loaded session.files path, session) := by
  unfold loadStack loaded
  rw [runFrom_get_bind]
  dsimp only
  split
  · exact runFrom_ofExcept _ _ session
  · rfl

/-- To load a stack keeps every property, for it only reads. -/
theorem preserves_loadStack (path : String) : Preserves property (loadStack path) := by
  intro session hsession
  rw [runFrom_loadStack]
  exact hsession

/-- To make files of a stack keeps every property, for nothing is written yet. -/
theorem preserves_generateStack (stack : Stack) : Preserves property (generateStack stack) :=
  preserves_ofExcept _ _

/-- A change of files is there behind the step also where it fails. -/
theorem runFrom_changeFiles (change : FileSystem → FileSystem × Except FileError α)
    (session : Session) :
    (changeFiles change).runFrom session =
      (ofExcept (fun error => .stack (.file error)) (change session.files).2).runFrom
        { session with files := (change session.files).1 } := rfl

/-- A step that does not see anything of a session but its files, nor changes anything else. -/
def OnlyFiles (step : Step α) : Prop :=
  ∃ effect : FileSystem → Except Failure α × FileSystem, ∀ session,
    step.runFrom session = ((effect session.files).1, { session with files := (effect session.files).2 })

theorem onlyFiles_pure (value : α) : OnlyFiles (pure value : Step α) :=
  ⟨fun files => (.ok value, files), fun _ => rfl⟩

theorem onlyFiles_ofExcept (failure : ε → Failure) (result : Except ε α) :
    OnlyFiles (ofExcept failure result) :=
  ⟨fun files => (result.mapError failure, files), runFrom_ofExcept failure result⟩

theorem onlyFiles_loadStack (path : String) : OnlyFiles (loadStack path) :=
  ⟨fun files => (loaded files path, files), runFrom_loadStack path⟩

/-- To change files sees and changes nothing else. -/
theorem onlyFiles_changeFiles (change : FileSystem → FileSystem × Except FileError α) :
    OnlyFiles (changeFiles change) := by
  refine ⟨fun files => ((change files).2.mapError fun error => .stack (.file error), (change files).1),
    fun session => ?_⟩
  rw [runFrom_changeFiles, runFrom_ofExcept]

/-- Two steps that see only files see only files together. -/
theorem OnlyFiles.bind {step : Step α} {next : α → Step β} (hstep : OnlyFiles step)
    (hnext : ∀ value, OnlyFiles (next value)) : OnlyFiles (step >>= next) := by
  obtain ⟨effect, heffect⟩ := hstep
  obtain ⟨effects, heffects⟩ := Classical.axiomOfChoice hnext
  refine ⟨fun files => match effect files with
    | (.ok value, middle) => effects value middle
    | (.error failure, middle) => (.error failure, middle), fun session => ?_⟩
  rw [runFrom_bind, heffect]
  dsimp only
  cases effect session.files with
  | mk result middle =>
    cases result with
    | ok value => exact heffects value { session with files := middle }
    | error failure => rfl

/-- A property that does not speak of files is kept by a step that sees only files. -/
theorem OnlyFiles.preserves {step : Step α} (honly : OnlyFiles step)
    (hfiles : ∀ session files, property session → property { session with files }) :
    Preserves property step := by
  obtain ⟨effect, heffect⟩ := honly
  intro session hsession
  rw [heffect]
  exact hfiles session _ hsession

/-- A change of files ends well if the change itself does. -/
theorem runFrom_changeFiles_eq_ok {change : FileSystem → FileSystem × Except FileError α} {value : α} :
    (changeFiles change).runFrom session = (.ok value, after) ↔
      ∃ files, change session.files = (files, .ok value) ∧ after = { session with files } := by
  rw [runFrom_changeFiles, runFrom_ofExcept_eq_ok]
  cases change session.files with
  | mk files result => simp [and_assoc]

/-- To load a stack ends well if the file can be read as one, and changes nothing. -/
theorem runFrom_loadStack_eq_ok {path : String} {stack : Stack} :
    (loadStack path).runFrom session = (.ok stack, after) ↔
      Stack.load session.files path = .ok stack ∧ after = session := by
  rw [runFrom_loadStack, Prod.mk.injEq, loaded_eq_ok, eq_comm (a := session)]

/-- Files are generated from the stack that the file describes: first those of the generation, then
the one with the values. -/
theorem runFrom_generateFiles_eq_ok {globals : Globals} {path : String} {generated : Generated} :
    (generateFiles globals path).runFrom session = (.ok generated, after) ↔
      ∃ stack written paths files values, Stack.load session.files path = .ok stack ∧
        stack.generate = .ok generated ∧
        globals.writer.write generated.artifacts session.files = (written, .ok paths) ∧
        globals.writer.writeTfvars stack written = (files, .ok values) ∧
        after = { session with files } := by
  unfold generateFiles
  simp only [runFrom_bind_eq_ok, runFrom_loadStack_eq_ok, generateStack, runFrom_ofExcept_eq_ok,
    runFrom_changeFiles_eq_ok]
  constructor
  · rintro ⟨stack, _, ⟨hload, rfl⟩, _, _, ⟨hgenerate, rfl⟩, paths, _, ⟨written, hwrite, rfl⟩, values, _,
      ⟨files, hvalues, rfl⟩, hreturn⟩
    obtain ⟨hgenerated, rfl⟩ := Prod.mk.inj hreturn
    obtain rfl := Except.ok.inj hgenerated
    exact ⟨stack, written, paths, files, values, hload, hgenerate, hwrite, hvalues, rfl⟩
  · rintro ⟨stack, written, paths, files, values, hload, hgenerate, hwrite, hvalues, rfl⟩
    exact ⟨stack, session, ⟨hload, rfl⟩, generated, session, ⟨hgenerate, rfl⟩, paths, _,
      ⟨written, hwrite, rfl⟩, values, _, ⟨files, hvalues, rfl⟩, rfl⟩

/-- To generate files sees and changes nothing but files. -/
theorem onlyFiles_generateFiles (globals : Globals) (path : String) :
    OnlyFiles (generateFiles globals path) := by
  refine (onlyFiles_loadStack path).bind fun stack => ?_
  refine (onlyFiles_ofExcept _ _).bind fun generated => ?_
  refine (onlyFiles_changeFiles _).bind fun paths => ?_
  exact (onlyFiles_changeFiles _).bind fun values => onlyFiles_pure generated

/-- To generate files keeps all that does not speak of files. -/
theorem preserves_generateFiles {globals : Globals} {path : String}
    (hfiles : ∀ session files, property session → property { session with files }) :
    Preserves property (generateFiles globals path) :=
  (onlyFiles_generateFiles globals path).preserves hfiles

/-- To check a stack is to read its file and to speak to the operator. -/
theorem preserves_validate (hsay : ∀ session text, property session → property (session.say text))
    (globals : Globals) (path : String) (asJson : Bool) :
    Preserves property (validate globals path asJson) := by
  refine (preserves_loadStack path).bind fun stack => ?_
  refine (preserves_generateStack stack).bind fun generated => ?_
  split
  · exact preserves_say hsay _
  · refine (preserves_report hsay _ _).bind fun _ => ?_
    refine (preserves_forM fun line => preserves_report hsay _ line).bind fun _ => ?_
    exact (preserves_report hsay _ _).bind fun _ => preserves_report hsay _ _

/-- To look for terraform keeps what a single start keeps. -/
theorem preserves_requireTerraform {programs : Terraform.Programs} {globals : Globals}
    (hprobe : ∀ session, property session →
      property { session with toMachine := (globals.launcher.probe programs session.toMachine).2 }) :
    Preserves property (requireTerraform programs globals) := by
  intro session hsession
  have hprobed := hprobe session hsession
  unfold requireTerraform
  split
  · exact hsession
  · rw [runFrom_get_bind]
    cases hresult : globals.launcher.probe programs session.toMachine with
    | mk isAvailable machine =>
      rw [hresult] at hprobed
      dsimp only
      rw [runFrom_set_bind]
      split
      · exact hprobed
      · exact hprobed

/-- What carrying out a procedure leads to, its step in a request leads to. -/
theorem leads_perform {programs : Terraform.Programs} {globals : Globals} {approved : Bool}
    {procedure : Terraform.Procedure α} {before after : Session → Prop}
    (hperform : ∀ session, before session →
      after (procedure.perform (handler programs globals approved) session).2) :
    Leads before after (perform programs globals approved procedure) :=
  fun session hsession => preserves_ofExcept .terraform
    (procedure.perform (handler programs globals approved) session).1 _ (hperform session hsession)

end Step

/-- To tell the operator of a failure changes nothing on the machine. -/
theorem run_toMachine (programs : Terraform.Programs) (request : Request) (session : Session) :
    (request.run programs session).2.toMachine =
      ((request.steps programs).runFrom session).2.toMachine := by
  unfold Request.run Step.runFrom
  split
  · next hsteps => rw [hsteps]
  · next hsteps => rw [hsteps]; rfl

end TerraStack.CommandLine
