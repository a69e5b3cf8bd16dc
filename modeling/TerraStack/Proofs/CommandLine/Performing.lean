import TerraStack.CommandLine.Perform
import TerraStack.Proofs.Terraform.Consent
import TerraStack.Proofs.Terraform.Starts
import TerraStack.Proofs.Text.LineEnds

namespace TerraStack.Terraform

/-- Of an answer only what is left of it without the white space around it counts. -/
theorem Question.accepts_congr {line other : List Char}
    (htrimmed : Text.trimChars line = Text.trimChars other) (question : Question) :
    question.accepts (some (.ofList line)) = question.accepts (some (.ofList other)) := by
  cases question with
  | yesNo prompt => simp [accepts, isAffirmative, htrimmed]
  | phrase prompt expected => simp [accepts, Text.trim, htrimmed]

/-- What a procedure comes to if every command succeeds without a word and all is agreed to. -/
def Procedure.unopposed {α : Type} : Procedure α → Except Error α
  | .done result => result
  | .command args next => (next (.ok { args, exitCode := 0, stdout := "", stderr := "" })).unopposed
  | .ask _ next => (next true).unopposed

end TerraStack.Terraform

namespace TerraStack.CommandLine

open Terraform (Procedure Programs Machine Launcher Question StartedAmong startedAmong_of_eq commandsOf
  answersOf)

/-- The line that is taken is the first line of what was typed, and the others are left. -/
theorem Session.lineChars_of_nextLine {input line rest : List Char}
    (hnext : nextLine? input = some (line, rest)) :
    ∃ first, Text.lineChars input = first :: Text.lineChars rest ∧
      Text.trimChars first = Text.trimChars line := by
  have hsome : input ≠ [] := by
    rintro rfl
    cases hnext
  have hparts : some (input.takeWhile (· ≠ '\n'), (input.dropWhile (· ≠ '\n')).drop 1) =
      some (line, rest) := by
    rw [← hnext]
    cases input with
    | nil => exact absurd rfl hsome
    | cons c cs => rfl
  obtain ⟨hline, hrest⟩ := Prod.mk.inj (Option.some.inj hparts)
  have hnoFeed : '\n' ∉ line := by
    intro hmem
    rw [← hline] at hmem
    have hother := List.all_eq_true.mp List.all_takeWhile '\n' hmem
    simp at hother
  have hinput := List.takeWhile_append_dropWhile (p := (· ≠ '\n')) (l := input)
  rw [hline] at hinput
  cases hbehind : input.dropWhile (· ≠ '\n') with
  | nil =>
    rw [hbehind, List.append_nil] at hinput
    rw [hbehind] at hrest
    subst hinput hrest
    refine ⟨line, ?_, rfl⟩
    rw [Text.lineChars_of_not_mem hnoFeed, if_neg hsome]
    rfl
  | cons feed behind =>
    have hfeed : feed = '\n' := by
      have hhead := List.head?_dropWhile_not (· ≠ '\n') input
      rw [hbehind] at hhead
      simpa using hhead
    rw [hbehind] at hinput hrest
    subst hfeed hinput hrest
    exact ⟨_, Text.lineChars_append_feed_of_not_mem hnoFeed behind, Text.trimChars_withoutReturn line⟩

/-- A question is answered by the first line, which is gone then. -/
theorem Session.ask_lines (question : Question) (session : Session) :
    (session.ask question).1 =
        question.accepts ((Text.lineChars session.input).head?.map String.ofList) ∧
      Text.lineChars (session.ask question).2.input = (Text.lineChars session.input).tail := by
  unfold Session.ask
  dsimp only
  generalize hasked : session.warn (question.fullPrompt ++ " ") = asked
  have hinput : asked.input = session.input := by
    rw [← hasked]
    rfl
  rw [← hinput]
  cases hnext : nextLine? asked.input with
  | none =>
    have hempty : asked.input = [] := by
      cases hcases : asked.input with
      | nil => rfl
      | cons c cs =>
        rw [hcases] at hnext
        cases hnext
    rw [hempty]
    exact ⟨rfl, rfl⟩
  | some parts =>
    obtain ⟨line, rest⟩ := parts
    obtain ⟨first, hlines, htrimmed⟩ := lineChars_of_nextLine hnext
    rw [hlines]
    exact ⟨(question.accepts_congr htrimmed).symm, rfl⟩

variable {programs : Programs} {globals : Globals} {approved : Bool} {α : Type}

/-- A command does to the machine what its start does. -/
theorem toMachine_command (programs : Programs) (globals : Globals) (approved : Bool)
    (args : List String) (session : Session) :
    ((handler programs globals approved).command args session).2.toMachine =
      (globals.launcher.run programs globals.writer.generatedPath args session.toMachine).2 := by
  unfold handler echo
  dsimp only
  split
  · split
    · rfl
    · rfl
  · rfl

/-- A question starts nothing. -/
theorem started_answer (question : Question) (session : Session) :
    ((handler programs globals approved).answer question session).2.started = session.started := by
  unfold handler Session.ask
  dsimp only
  split
  · rfl
  · split
    · rfl
    · rfl

/-- In a dry run every command succeeds without a word, and nothing happens. -/
theorem handler_command_of_dry (hdry : globals.isDry = true) (programs : Programs) (approved : Bool)
    (args : List String) (session : Session) :
    (handler programs globals approved).command args session =
      (.ok { args, exitCode := 0, stdout := "", stderr := "" }, session) := by
  have hrun : globals.launcher.run programs globals.writer.generatedPath args session.toMachine =
      (.ok { args, exitCode := 0, stdout := "", stderr := "" }, session.toMachine) :=
    Launcher.run_eq_of_dry hdry session.toMachine
  simp [handler, hrun, echo, Session.say, Session.warn]

/-- In a dry run every question is agreed to, and nobody is asked. -/
theorem handler_answer_of_dry (hdry : globals.isDry = true) (programs : Programs) (approved : Bool)
    (question : Question) (session : Session) :
    (handler programs globals approved).answer question session = (true, session) := by
  simp [handler, hdry]

/-- A dry run leaves the session as it is, whatever is to be done. -/
theorem perform_of_dry (hdry : globals.isDry = true) (programs : Programs) (approved : Bool)
    (procedure : Procedure α) (session : Session) :
    procedure.perform (handler programs globals approved) session = (procedure.unopposed, session) := by
  induction procedure with
  | done result => rfl
  | command args next ih =>
    rw [Procedure.perform_command, handler_command_of_dry hdry]
    exact ih _
  | ask question next ih =>
    rw [Procedure.perform_ask, handler_answer_of_dry hdry]
    exact ih _

/-- A dry run of a procedure leaves the machine alone. -/
theorem toMachine_perform_of_dry (hdry : globals.isDry = true) (programs : Programs)
    (approved : Bool) (procedure : Procedure α) (session : Session) :
    (procedure.perform (handler programs globals approved) session).2.toMachine =
      session.toMachine := by
  rw [perform_of_dry hdry]

/-- The commands of a procedure are started in order, as far as they can be started. -/
theorem startedAmong_perform (programs : Programs) (globals : Globals) (approved : Bool)
    (procedure : Procedure α) (session : Session) :
    StartedAmong (commandsOf (procedure.events (handler programs globals approved) session))
      session.toMachine
      (procedure.perform (handler programs globals approved) session).2.toMachine := by
  cases hdry : globals.isDry with
  | true =>
    have hmachine := toMachine_perform_of_dry hdry programs approved procedure session
    exact startedAmong_of_eq (congrArg Machine.started hmachine) _
  | false =>
    induction procedure generalizing session with
    | done result => exact startedAmong_of_eq rfl _
    | command args next ih =>
      have hstart : StartedAmong [args] session.toMachine
          ((handler programs globals approved).command args session).2.toMachine := by
        rw [toMachine_command, Launcher.run_machine hdry]
        exact session.toMachine.startedAmong_start programs _
      exact hstart.trans (ih _ _)
    | ask question next ih =>
      have hstart : StartedAmong [] session.toMachine
          ((handler programs globals approved).answer question session).2.toMachine :=
        startedAmong_of_eq (started_answer question session) _
      exact hstart.trans (ih _ _)

/-- The answers of a procedure are on the lines that the operator has typed, one after another. -/
theorem answers_perform (happroved : approved = false) (hdry : globals.isDry = false)
    (procedure : Procedure α) (session : Session) {n : Nat} {question : Question} {agreed : Bool}
    (hanswer : (answersOf (procedure.events (handler programs globals approved) session))[n]? =
      some (question, agreed)) :
    agreed = question.accepts ((Text.lineChars session.input)[n]?.map String.ofList) := by
  induction procedure generalizing session n with
  | done result => cases hanswer
  | command args next ih =>
    have hinput : ((handler programs globals approved).command args session).2.input =
        session.input := by
      have hmachine := toMachine_command programs globals approved args session
      rw [Launcher.run_machine hdry] at hmachine
      rw [hmachine]
      exact session.toMachine.input_start nofun
    have hrest := ih _ _ hanswer
    rwa [hinput] at hrest
  | ask other next ih =>
    have hask : (handler programs globals approved).answer other session = session.ask other := by
      unfold handler
      dsimp only
      rw [happroved, hdry]
      rfl
    obtain ⟨hagreed, hlines⟩ := session.ask_lines other
    cases n with
    | zero =>
      cases hanswer
      rw [hask, hagreed, List.head?_eq_getElem?]
    | succ n =>
      have hrest := ih _ _ hanswer
      rwa [hask, hlines, List.getElem?_tail] at hrest

end TerraStack.CommandLine
