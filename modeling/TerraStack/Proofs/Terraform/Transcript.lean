import TerraStack.Terraform.Procedure

namespace TerraStack.Terraform

/-- Something that a procedure does, with the answer it gets. -/
inductive Event where
  | ran (args : List String) (result : Except Error CommandOutput)
  | asked (question : Question) (agreed : Bool)

/-- What a procedure does, without the answer. -/
inductive Action where
  | run (args : List String)
  | ask (question : Question)
  deriving Repr, DecidableEq

namespace Action

/-- The arguments of a command. -/
def args? : Action → Option (List String)
  | .run args => some args
  | .ask _ => none

end Action

namespace Event

/-- What was done, whatever the answer. -/
def action : Event → Action
  | .ran args _ => .run args
  | .asked question _ => .ask question

/-- The command ended with exit code zero, or the operator agreed. -/
def Passed : Event → Prop
  | .ran _ result => ∃ output, result = .ok output ∧ output.exitCode = 0
  | .asked _ agreed => agreed = true

end Event

/-- The command lines of the commands that were run, in order. -/
def commandsOf (events : List Event) : List (List String) :=
  (events.map Event.action).filterMap Action.args?

/-- A command that ran and succeeded, with what it left. -/
def Succeeded (events : List Event) (args : List String) (output : CommandOutput) : Prop :=
  .ran args (.ok output) ∈ events ∧ output.exitCode = 0

/-- How a command fails: either it cannot be run, or it ends with an exit code other than zero. -/
inductive FailsWith : Except Error CommandOutput → Error → Prop where
  | unrun (error : Error) : FailsWith (.error error) error
  | exited {output : CommandOutput} (hcode : output.exitCode ≠ 0) :
      FailsWith (.ok output)
        (.commandFailed output.commandLine output.exitCode output.lastWords)

/-- With exit code zero a command is a success. -/
theorem CommandOutput.checked_of_exitCode_eq {output : CommandOutput} (hcode : output.exitCode = 0) :
    output.checked = .ok output :=
  if_pos (decide_eq_true hcode)

/-- With any other it is a failure, which tells the code and the last words. -/
theorem CommandOutput.checked_of_exitCode_ne {output : CommandOutput} (hcode : output.exitCode ≠ 0) :
    output.checked =
      .error (.commandFailed output.commandLine output.exitCode output.lastWords) :=
  if_neg (by simpa [isSuccess] using hcode)

/-- What is left of a result is the command's own output, and only that of a success. -/
theorem checked_eq_ok_iff {result : Except Error CommandOutput} {output : CommandOutput} :
    result.bind CommandOutput.checked = .ok output ↔
      result = .ok output ∧ output.exitCode = 0 := by
  cases result with
  | error error => simp [Except.bind]
  | ok actual =>
    rw [Except.bind, Except.ok.injEq]
    by_cases hcode : actual.exitCode = 0
    · rw [CommandOutput.checked_of_exitCode_eq hcode, Except.ok.injEq]
      exact ⟨fun heq => ⟨heq, heq ▸ hcode⟩, And.left⟩
    · rw [CommandOutput.checked_of_exitCode_ne hcode]
      refine ⟨nofun, ?_⟩
      rintro ⟨rfl, hsuccess⟩
      exact absurd hsuccess hcode

/-- Any other result fails, in the one way that is the result's own. -/
theorem checked_eq_error_iff {result : Except Error CommandOutput} {error : Error} :
    result.bind CommandOutput.checked = .error error ↔ FailsWith result error := by
  constructor
  · intro herror
    cases result with
    | error actual =>
      cases herror
      exact .unrun error
    | ok output =>
      rw [Except.bind] at herror
      by_cases hcode : output.exitCode = 0
      · rw [CommandOutput.checked_of_exitCode_eq hcode] at herror
        cases herror
      · rw [CommandOutput.checked_of_exitCode_ne hcode] at herror
        cases herror
        exact .exited hcode
  · intro hfails
    cases hfails with
    | unrun => rfl
    | exited hcode => exact CommandOutput.checked_of_exitCode_ne hcode

/-- A command fails in one way. -/
theorem FailsWith.unique {result : Except Error CommandOutput} {first second : Error}
    (hfirst : FailsWith result first) (hsecond : FailsWith result second) : first = second :=
  Except.error.inj
    ((checked_eq_error_iff.mpr hfirst).symm.trans (checked_eq_error_iff.mpr hsecond))

/-- A command that passed did not fail. -/
theorem Event.Passed.not_failsWith {args : List String} {result : Except Error CommandOutput}
    {error : Error} (hpassed : (Event.ran args result).Passed) : ¬ FailsWith result error := by
  intro hfails
  have hok := checked_eq_ok_iff.mpr hpassed.choose_spec
  rw [checked_eq_error_iff.mpr hfails] at hok
  cases hok

namespace Procedure

variable {α β σ : Type}

/-- The runs of a procedure under whatever handler: the events with some answers, and the result to
which those answers lead. Handlers add the states in which the events happen. -/
inductive Run : Procedure α → List Event → Except Error α → Prop where
  | done (result : Except Error α) : Run (.done result) [] result
  | command {args : List String} {next : Except Error CommandOutput → Procedure α}
      {result : Except Error CommandOutput} {events : List Event} {outcome : Except Error α}
      (hrest : Run (next result) events outcome) :
      Run (.command args next) (.ran args result :: events) outcome
  | ask {question : Question} {next : Bool → Procedure α} {agreed : Bool} {events : List Event}
      {outcome : Except Error α} (hrest : Run (next agreed) events outcome) :
      Run (.ask question next) (.asked question agreed :: events) outcome

/-- The events of a procedure under a handler, each with the state in which it happens. -/
def history (handler : Handler σ) : Procedure α → σ → List (σ × Event)
  | .done _, _ => []
  | .command args next, state =>
    (state, .ran args (handler.command args state).1) ::
      (next (handler.command args state).1).history handler (handler.command args state).2
  | .ask question next, state =>
    (state, .asked question (handler.answer question state).1) ::
      (next (handler.answer question state).1).history handler (handler.answer question state).2

/-- The events of a procedure under a handler. -/
def events (handler : Handler σ) (procedure : Procedure α) (state : σ) : List Event :=
  (procedure.history handler state).map Prod.snd

/-- What a handler makes of a procedure is one of its runs. What holds of all runs therefore holds
under every handler. -/
theorem run_events (handler : Handler σ) (procedure : Procedure α) (state : σ) :
    Run procedure (procedure.events handler state) (procedure.perform handler state).1 := by
  induction procedure generalizing state with
  | done result => exact .done result
  | command args next ih => exact .command (ih _ _)
  | ask question next ih => exact .ask (ih _ _)

/-- Whatever a command leaves in the events of a procedure, the handler made it in some state. -/
theorem exists_state_of_mem_events {handler : Handler σ} {procedure : Procedure α} {state : σ}
    {args : List String} {result : Except Error CommandOutput}
    (hmem : .ran args result ∈ procedure.events handler state) :
    ∃ moment, (handler.command args moment).1 = result := by
  unfold events at hmem
  induction procedure generalizing state with
  | done outcome => cases hmem
  | command actual next ih =>
    rw [history, List.map_cons, List.mem_cons] at hmem
    rcases hmem with hfirst | hrest
    · obtain ⟨rfl, rfl⟩ := Event.ran.inj hfirst
      exact ⟨state, rfl⟩
    · exact ih _ hrest
  | ask question next ih =>
    rw [history, List.map_cons, List.mem_cons] at hmem
    rcases hmem with hfirst | hrest
    · cases hfirst
    · exact ih _ hrest

/-- A procedure that is done does nothing more. -/
theorem run_done_iff {result outcome : Except Error α} {events : List Event} :
    Run (.done result) events outcome ↔ events = [] ∧ outcome = result := by
  constructor
  · intro hrun
    cases hrun
    exact ⟨rfl, rfl⟩
  · rintro ⟨rfl, rfl⟩
    exact .done outcome

theorem run_pure_iff {value : α} {outcome : Except Error α} {events : List Event} :
    Run (pure value) events outcome ↔ events = [] ∧ outcome = .ok value :=
  run_done_iff

theorem Run.bind_error {procedure : Procedure α} {events : List Event} {error : Error}
    (hrun : Run procedure events (.error error)) (next : α → Procedure β) :
    Run (procedure >>= next) events (.error error) := by
  generalize hfailed : (Except.error error : Except Error α) = failed at hrun
  induction hrun with
  | done result =>
    subst hfailed
    exact .done _
  | command _ ih => exact .command (ih hfailed)
  | ask _ ih => exact .ask (ih hfailed)

/-- A procedure that succeeds is the beginning of a run, and the next one goes on. -/
theorem Run.bind_ok {procedure : Procedure α} {next : α → Procedure β} {first rest : List Event}
    {value : α} {outcome : Except Error β} (hrun : Run procedure first (.ok value))
    (hnext : Run (next value) rest outcome) :
    Run (procedure >>= next) (first ++ rest) outcome := by
  generalize hvalue : (Except.ok value : Except Error α) = result at hrun
  induction hrun with
  | done result =>
    subst hvalue
    exact hnext
  | command _ ih => exact .command (ih hvalue)
  | ask _ ih => exact .ask (ih hvalue)

/-- A run of one procedure after another is a run of the first that fails, or a run of the first
that succeeds and then one of the second. -/
theorem run_bind_iff {procedure : Procedure α} {next : α → Procedure β} {events : List Event}
    {outcome : Except Error β} :
    Run (procedure >>= next) events outcome ↔
      (∃ error, Run procedure events (.error error) ∧ outcome = .error error) ∨
      ∃ value first rest, Run procedure first (.ok value) ∧ Run (next value) rest outcome ∧
        events = first ++ rest := by
  constructor
  · intro hrun
    induction procedure generalizing events with
    | done result =>
      cases result with
      | error error =>
        obtain ⟨rfl, houtcome⟩ := run_done_iff.mp hrun
        exact .inl ⟨error, .done _, houtcome⟩
      | ok value => exact .inr ⟨value, [], events, .done _, hrun, rfl⟩
    | command args after ih =>
      cases hrun with
      | command hrest =>
        rcases ih _ hrest with ⟨error, hfirst, houtcome⟩ | ⟨value, first, rest, hfirst, hnext, rfl⟩
        · exact .inl ⟨error, .command hfirst, houtcome⟩
        · exact .inr ⟨value, _, rest, .command hfirst, hnext, rfl⟩
    | ask question after ih =>
      cases hrun with
      | ask hrest =>
        rcases ih _ hrest with ⟨error, hfirst, houtcome⟩ | ⟨value, first, rest, hfirst, hnext, rfl⟩
        · exact .inl ⟨error, .ask hfirst, houtcome⟩
        · exact .inr ⟨value, _, rest, .ask hfirst, hnext, rfl⟩
  · rintro (⟨error, hfirst, rfl⟩ | ⟨value, first, rest, hfirst, hnext, rfl⟩)
    · exact hfirst.bind_error next
    · exact hfirst.bind_ok hnext

/-- A condition takes no events, and one that does not hold ends the procedure. -/
theorem run_require_iff {condition : Bool} {error : Error} {outcome : Except Error Unit}
    {events : List Event} :
    Run (require condition error) events outcome ↔ events = [] ∧
      ((condition = true ∧ outcome = .ok ()) ∨ (condition = false ∧ outcome = .error error)) := by
  unfold require
  rw [run_done_iff]
  cases condition <;> simp

/-- A command runs once, and fails exactly if what it leaves is no success. -/
theorem run_run_iff {args : List String} {outcome : Except Error CommandOutput}
    {events : List Event} :
    Run (run args) events outcome ↔
      ∃ result, events = [.ran args result] ∧ outcome = result.bind CommandOutput.checked := by
  constructor
  · intro hrun
    cases hrun with
    | @command _ _ result _ _ hrest =>
      obtain ⟨rfl, rfl⟩ := run_done_iff.mp hrest
      exact ⟨result, rfl, rfl⟩
  · rintro ⟨result, rfl, rfl⟩
    exact .command (.done _)

/-- A command of whose output only some part is wanted. -/
theorem run_run_map_iff {args : List String} {part : CommandOutput → α} {outcome : Except Error α}
    {events : List Event} :
    Run (run args >>= fun output => pure (part output)) events outcome ↔
      ∃ result, events = [.ran args result] ∧
        outcome = (result.bind CommandOutput.checked).map part := by
  rw [run_bind_iff]
  simp only [run_run_iff, run_pure_iff]
  constructor
  · rintro (⟨error, ⟨result, rfl, herror⟩, rfl⟩ | ⟨output, _, _, ⟨result, rfl, hok⟩, ⟨rfl, rfl⟩, rfl⟩)
    · exact ⟨result, rfl, by rw [← herror]; rfl⟩
    · exact ⟨result, rfl, by rw [← hok]; rfl⟩
  · rintro ⟨result, rfl, rfl⟩
    cases hresult : result.bind CommandOutput.checked with
    | error error => exact .inl ⟨error, ⟨result, rfl, hresult.symm⟩, rfl⟩
    | ok output => exact .inr ⟨output, _, _, ⟨result, rfl, hresult.symm⟩, ⟨rfl, rfl⟩, rfl⟩

/-- A question is asked once, and everything but a yes ends the procedure. -/
theorem run_insist_iff {question : Question} {reason : String} {outcome : Except Error Unit}
    {events : List Event} :
    Run (insist question reason) events outcome ↔
      (events = [.asked question true] ∧ outcome = .ok ()) ∨
        (events = [.asked question false] ∧ outcome = .error (.aborted reason)) := by
  constructor
  · intro hrun
    cases hrun with
    | @ask _ _ agreed _ _ hrest =>
      cases agreed with
      | false =>
        obtain ⟨rfl, rfl⟩ := run_done_iff.mp hrest
        exact .inr ⟨rfl, rfl⟩
      | true =>
        obtain ⟨rfl, rfl⟩ := run_done_iff.mp hrest
        exact .inl ⟨rfl, rfl⟩
  · rintro (⟨rfl, rfl⟩ | ⟨rfl, rfl⟩)
    · exact .ask (.done _)
    · exact .ask (.done _)

end Procedure
end TerraStack.Terraform
