import TerraStack.Terraform.Command

namespace TerraStack.Terraform

/-- A question to the operator. -/
inductive Question where
  | yesNo (prompt : String)
  /-- To be answered with the phrase. -/
  | phrase (prompt expected : String)
  deriving Repr, DecidableEq

/-- What to do with terraform, step by step: a procedure either is done, or runs a command, or asks
the operator, and goes on as the answer says. It does nothing by itself, so what is true of it under
every handler is true of it with terraform and at a terminal. -/
inductive Procedure (α : Type) where
  | done (result : Except Error α)
  | command (args : List String) (next : Except Error CommandOutput → Procedure α)
  | ask (question : Question) (next : Bool → Procedure α)

namespace Procedure

variable {α β σ : Type}

/-- Go on with the result, unless there is an error. -/
def bind : Procedure α → (α → Procedure β) → Procedure β
  | .done (.ok value), next => next value
  | .done (.error error), _ => .done (.error error)
  | .command args after, next => .command args fun result => (after result).bind next
  | .ask question after, next => .ask question fun answer => (after answer).bind next

instance : Monad Procedure where
  pure value := .done (.ok value)
  bind := bind

/-- Stop with an error. -/
def fail (error : Error) : Procedure α :=
  .done (.error error)

/-- Stop with an error unless a condition holds. -/
def require (condition : Bool) (error : Error) : Procedure Unit :=
  .done (if condition then .ok () else .error error)

/-- Run a command that has to succeed. -/
def run (args : List String) : Procedure CommandOutput :=
  .command args fun result => .done (result.bind CommandOutput.checked)

/-- Ask a question that has to be answered well. -/
def insist (question : Question) (reason : String) : Procedure Unit :=
  .ask question fun agreed => if agreed then .done (.ok ()) else fail (.aborted reason)

end Procedure

/-- What commands leave and what the operator answers, in a state that either may change. -/
structure Handler (σ : Type) where
  command : List String → σ → Except Error CommandOutput × σ
  answer : Question → σ → Bool × σ

/-- Carry out a procedure. -/
def Procedure.perform {α σ : Type} (handler : Handler σ) : Procedure α → σ → Except Error α × σ
  | .done result, state => (result, state)
  | .command args next, state =>
    let (result, state) := handler.command args state
    (next result).perform handler state
  | .ask question next, state =>
    let (agreed, state) := handler.answer question state
    (next agreed).perform handler state

end TerraStack.Terraform
