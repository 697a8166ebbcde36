import Semijoin.Access.Basic

/-!
# Fixed answers

A data access that gives the same answer to every find, a value or a failure, and logs what it was asked.
-/

set_option autoImplicit false

namespace Semijoin

/-- The answer to every find; a failure may depend on the entity. -/
inductive FixedAnswer where
  | records (v : Value)
  | fails (failure : String → Failure)

/-- Answers every find in the same way. -/
def FixedAnswer.access (answer : FixedAnswer) : Access (List FindCall) where
  find entity condition include_ := do
    Action.update (· ++ [⟨entity, condition, include_⟩])
    match answer with
    | .records v => return v
    | .fails failure => throw (failure entity)

end Semijoin
