import TerraStack.Terraform.Confirmation
import TerraStack.Terraform.Script

namespace TerraStack.Terraform

/-- An operator who answers from a script. -/
inductive Operator where
  /-- Agrees to everything, and is not even asked. -/
  | approving
  | scripted (answers : Answers)
  deriving Repr, DecidableEq

namespace Operator

/-- The answer to a question, and the operator behind it. -/
def answer (question : Question) : Operator → Bool × Operator
  | .approving => (true, .approving)
  | .scripted answers =>
    let (agreed, answers) := answers.answer question
    (agreed, .scripted answers)

/-- The answers to questions in a row. -/
def answerAll : List Question → Operator → List Bool × Operator
  | [], operator => ([], operator)
  | question :: rest, operator =>
    let (agreed, operator) := operator.answer question
    let (others, operator) := operator.answerAll rest
    (agreed :: others, operator)

/-- The questions asked, the last one first. -/
def asked : Operator → List String
  | .approving => []
  | .scripted answers => answers.asked

end Operator

/-- A scripted terraform and a scripted operator, with which procedures are carried out. -/
structure Rehearsal where
  script : Script := {}
  operator : Operator := .approving

namespace Rehearsal

/-- Commands are answered by the script, questions by the operator. -/
def handler (workingDirectory : String) : Handler Rehearsal where
  command args rehearsal :=
    let (result, script) := rehearsal.script.run workingDirectory args
    (result, { rehearsal with script })
  answer question rehearsal :=
    let (agreed, operator) := rehearsal.operator.answer question
    (agreed, { rehearsal with operator })

end Rehearsal
end TerraStack.Terraform
