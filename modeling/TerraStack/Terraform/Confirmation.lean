import TerraStack.Terraform.Procedure
import TerraStack.Text.Blank

namespace TerraStack.Terraform

/-- Whether an answer is a yes, whatever its case and the white space around it. -/
def isAffirmative (answer : String) : Bool :=
  ["y".toList, "yes".toList].contains ((Text.trimChars answer.toList).map Char.toLower)

namespace Question

/-- The text of a question. -/
def prompt : Question → String
  | .yesNo prompt => prompt
  | .phrase prompt _ => prompt

/-- The text of a question where the operator has to be told how to answer. -/
def fullPrompt : Question → String
  | .yesNo prompt => prompt ++ " [y/N]:"
  | .phrase prompt expected => prompt ++ " Type '" ++ expected ++ "' to continue:"

/-- Whether an answer agrees. No answer does not. -/
def accepts (question : Question) (answer : Option String) : Bool :=
  match question, answer with
  | _, none => false
  | .yesNo _, some answer => isAffirmative answer
  | .phrase _ expected, some answer => Text.trim answer = expected

end Question

/-- Answers that have been given beforehand, and the questions asked so far, the last one first. -/
structure Answers where
  given : List String
  asked : List String := []
  deriving Repr, DecidableEq

/-- Answer a question with the next of the answers, and with none when they are used up. -/
def Answers.answer (question : Question) (answers : Answers) : Bool × Answers :=
  (question.accepts answers.given.head?, ⟨answers.given.drop 1, question.prompt :: answers.asked⟩)

end TerraStack.Terraform
