import TerraStack.Terraform.Launcher
import TerraStack.Terraform.Procedure

namespace TerraStack.Terraform

variable {α σ : Type}

theorem Procedure.perform_command (handler : Handler σ) (args : List String)
    (next : Except Error CommandOutput → Procedure α) (state : σ) :
    (Procedure.command args next).perform handler state =
      (next (handler.command args state).1).perform handler (handler.command args state).2 := rfl

theorem Procedure.perform_ask (handler : Handler σ) (question : Question)
    (next : Bool → Procedure α) (state : σ) :
    (Procedure.ask question next).perform handler state =
      (next (handler.answer question state).1).perform handler (handler.answer question state).2 := rfl

/-- What was started between two moments: some of these commands, each once and in this order. -/
def StartedAmong (commands : List (List String)) (before after : Machine) : Prop :=
  ∃ new, after.started = new ++ before.started ∧
    (new.map (·.invocation.args)).Sublist commands.reverse

/-- Where nothing was started, nothing but some commands was. -/
theorem startedAmong_of_eq {before after : Machine} (hstarted : after.started = before.started)
    (commands : List (List String)) : StartedAmong commands before after :=
  ⟨[], hstarted, List.nil_sublist _⟩

theorem StartedAmong.trans {commands more : List (List String)} {before middle after : Machine}
    (hfirst : StartedAmong commands before middle) (hsecond : StartedAmong more middle after) :
    StartedAmong (commands ++ more) before after := by
  obtain ⟨first, hmiddle, hcommands⟩ := hfirst
  obtain ⟨second, hafter, hmore⟩ := hsecond
  refine ⟨second ++ first, ?_, ?_⟩
  · rw [hafter, hmiddle, List.append_assoc]
  · rw [List.map_append, List.reverse_append]
    exact hmore.append hcommands

/-- A program that has been started had been before, or is for one of the commands. -/
theorem StartedAmong.mem {commands : List (List String)} {before after : Machine}
    (hamong : StartedAmong commands before after) {start : Start} (hstart : start ∈ after.started) :
    start ∈ before.started ∨ start.invocation.args ∈ commands := by
  obtain ⟨new, hstarted, hcommands⟩ := hamong
  rw [hstarted] at hstart
  rcases List.mem_append.mp hstart with hnew | hold
  · have hargs := hcommands.mem (List.mem_map_of_mem hnew)
    exact .inr (List.mem_reverse.mp hargs)
  · exact .inl hold

/-- Commands of some kind are started as often as they stand among the commands at most. -/
theorem StartedAmong.countP_le {commands : List (List String)} {before after : Machine}
    (hamong : StartedAmong commands before after) (counts : List String → Bool) :
    after.started.countP (fun start => counts start.invocation.args) ≤
      commands.countP counts + before.started.countP fun start => counts start.invocation.args := by
  obtain ⟨new, hstarted, hcommands⟩ := hamong
  have hnew := hcommands.countP_le (p := counts)
  rw [List.countP_reverse, List.countP_map] at hnew
  rw [hstarted, List.countP_append]
  exact Nat.add_le_add_right hnew _

/-- To start a command starts that one. -/
theorem Machine.startedAmong_start (machine : Machine) (programs : Programs) (invocation : Invocation) :
    StartedAmong [invocation.args] machine (machine.start programs invocation).2 := by
  unfold Machine.start
  dsimp only
  split
  · exact startedAmong_of_eq rfl _
  · exact ⟨[⟨invocation, machine.files⟩], rfl, List.Sublist.refl _⟩

/-- What the operator has typed is left alone by a program that may not read it, or does not. -/
theorem Machine.input_start {programs : Programs} {invocation : Invocation} (machine : Machine)
    (hunread : invocation.sharesInput = true → ∀ ending, programs machine invocation = .ok ending →
      ending.input = machine.input) :
    (machine.start programs invocation).2.input = machine.input := by
  unfold Machine.start
  dsimp only
  split
  · rfl
  · next ending hending =>
    dsimp only
    split
    · next hshares =>
      rw [if_pos hshares] at hending
      exact hunread hshares ending hending
    · rfl

namespace Launcher

variable {programs : Programs} {directory : String} {args : List String}

/-- In a dry run a command succeeds without a word. -/
theorem run_eq_of_dry {launcher : Launcher} (hdry : launcher.isDry = true) (machine : Machine) :
    launcher.run programs directory args machine =
      (.ok { args, exitCode := 0, stdout := "", stderr := "" }, machine) := by
  unfold run
  rw [if_pos hdry]

theorem run_of_dry {launcher : Launcher} (hdry : launcher.isDry = true) (machine : Machine) :
    (launcher.run programs directory args machine).2 = machine := by
  rw [run_eq_of_dry hdry]

/-- Otherwise a command is one start of a program. -/
theorem run_machine {launcher : Launcher} (hwet : launcher.isDry = false) (machine : Machine) :
    (launcher.run programs directory args machine).2 =
      (machine.start programs (launcher.invocation directory args)).2 := by
  unfold run
  rw [if_neg (by simp [hwet])]
  split
  · next hstart => rw [hstart]
  · next hstart => rw [hstart]

/-- To look for terraform is one start as well. -/
theorem probe_machine (launcher : Launcher) (machine : Machine) :
    (launcher.probe programs machine).2 =
      (machine.start programs (launcher.versionInvocation true)).2 := by
  unfold probe
  split
  · next hstart => rw [hstart]
  · next hstart => rw [hstart]

end Launcher
end TerraStack.Terraform
