import TerraStack.Proofs.Terraform.Destruction

namespace TerraStack.Terraform.Lifecycle

open Procedure

/-- The question before what was planned is applied. -/
def applyQuestion : Question :=
  .yesNo "Apply these changes?"

/-- The question before all that the current workspace holds is destroyed. -/
def destroyAllQuestion : Question :=
  .yesNo "Destroy all resources managed by this stack?"

/-- The ways in which a deployment ends. -/
inductive Deploying (planOnly : Bool) : List Event → Except Error DeployOutcome → Prop where
  | initFails {result : Except Error CommandOutput} {error : Error}
      (hfails : result.bind CommandOutput.checked = .error error) :
      Deploying planOnly [.ran initArgs result] (.error error)
  | planFails {initializing : CommandOutput} {result : Except Error CommandOutput} {error : Error}
      (hinit : initializing.exitCode = 0)
      (hfails : result.bind CommandOutput.checked = .error error) :
      Deploying planOnly [.ran initArgs (.ok initializing), .ran planArgs result] (.error error)
  | planned {initializing planning : CommandOutput} (hinit : initializing.exitCode = 0)
      (hplan : planning.exitCode = 0) (hplanOnly : planOnly = true) :
      Deploying planOnly [.ran initArgs (.ok initializing), .ran planArgs (.ok planning)] (.ok .planned)
  | declined {initializing planning : CommandOutput} (hinit : initializing.exitCode = 0)
      (hplan : planning.exitCode = 0) (hplanOnly : planOnly = false) :
      Deploying planOnly [.ran initArgs (.ok initializing), .ran planArgs (.ok planning),
        .asked applyQuestion false] (.error (.aborted "apply declined"))
  | applies {initializing planning : CommandOutput} {result : Except Error CommandOutput}
      (hinit : initializing.exitCode = 0) (hplan : planning.exitCode = 0)
      (hplanOnly : planOnly = false) :
      Deploying planOnly [.ran initArgs (.ok initializing), .ran planArgs (.ok planning),
          .asked applyQuestion true, .ran applyArgs result]
        ((result.bind CommandOutput.checked).map fun _ => .applied)

/-- A deployment has no other way to end. -/
theorem deploying_of_run {planOnly : Bool} {events : List Event}
    {outcome : Except Error DeployOutcome} (hrun : Run (deploy planOnly) events outcome) :
    Deploying planOnly events outcome := by
  unfold deploy at hrun
  rcases run_bind_iff.mp hrun with ⟨error, hfirst, rfl⟩ | ⟨_, _, _, hfirst, hplanned, rfl⟩
  · obtain ⟨result, rfl, hresult⟩ := run_run_iff.mp hfirst
    exact .initFails hresult.symm
  obtain ⟨result, rfl, hresult⟩ := run_run_iff.mp hfirst
  obtain ⟨rfl, hinit⟩ := checked_eq_ok_iff.mp hresult.symm
  rcases run_bind_iff.mp hplanned with ⟨error, hsecond, rfl⟩ | ⟨_, _, _, hsecond, hrest, rfl⟩
  · obtain ⟨result, rfl, hresult⟩ := run_run_iff.mp hsecond
    exact .planFails hinit hresult.symm
  obtain ⟨result, rfl, hresult⟩ := run_run_iff.mp hsecond
  obtain ⟨rfl, hplan⟩ := checked_eq_ok_iff.mp hresult.symm
  cases planOnly with
  | true =>
    obtain ⟨rfl, rfl⟩ := run_pure_iff.mp hrest
    exact .planned hinit hplan rfl
  | false =>
    rcases run_bind_iff.mp hrest with ⟨error, hask, rfl⟩ | ⟨_, _, _, hask, happly, rfl⟩
    · rcases run_insist_iff.mp hask with ⟨_, hok⟩ | ⟨rfl, herror⟩
      · cases hok
      · cases herror
        exact .declined hinit hplan rfl
    · rcases run_insist_iff.mp hask with ⟨rfl, _⟩ | ⟨_, herror⟩
      · obtain ⟨result, rfl, rfl⟩ := run_run_map_iff.mp happly
        exact .applies hinit hplan rfl
      · cases herror

/-- All is destroyed by one command behind one question. -/
theorem run_confirmedDestroy {events : List Event} {outcome : Except Error Unit}
    (hrun : Run confirmedDestroy events outcome) :
    (events = [.asked destroyAllQuestion false] ∧ outcome = .error (.aborted "destroy declined")) ∨
      ∃ result, events = [.asked destroyAllQuestion true, .ran destroyArgs result] ∧
        outcome = (result.bind CommandOutput.checked).map fun _ => () := by
  unfold confirmedDestroy at hrun
  rcases run_bind_iff.mp hrun with ⟨error, hask, rfl⟩ | ⟨_, _, _, hask, hdestroy, rfl⟩
  · rcases run_insist_iff.mp hask with ⟨_, hok⟩ | ⟨rfl, herror⟩
    · cases hok
    · exact .inl ⟨rfl, herror⟩
  · rcases run_insist_iff.mp hask with ⟨rfl, _⟩ | ⟨_, herror⟩
    · obtain ⟨result, rfl, rfl⟩ := run_run_map_iff.mp hdestroy
      exact .inr ⟨result, rfl, rfl⟩
    · cases herror

end TerraStack.Terraform.Lifecycle
