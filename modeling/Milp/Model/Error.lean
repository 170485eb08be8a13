/-!
Refusals of model operations. Each has a stable code and a message that starts with the code
in brackets.
-/
namespace Milp

/-- Why a model operation refused its arguments. -/
inductive ModelError where
  /-- A variable id that is not below the number of variables. -/
  | invalidVariableId (id nbVariables : Nat)
  /-- A constraint id that is not below the number of constraints. -/
  | invalidConstraintId (id nbConstraints : Nat)
  /-- A point whose length is not the number of variables. -/
  | solutionLengthMismatch (expected got : Nat)
deriving DecidableEq, Repr

namespace ModelError

/-- The name of the kind of refusal. -/
def kind : ModelError → String
  | .invalidVariableId .. => "InvalidVariableId"
  | .invalidConstraintId .. => "InvalidConstraintId"
  | .solutionLengthMismatch .. => "SolutionLengthMismatch"

/-- The stable code of a refusal. -/
def code : ModelError → String
  | .invalidVariableId .. => "VARIABLE_INVALID_ID"
  | .invalidConstraintId .. => "CONSTRAINT_INVALID_ID"
  | .solutionLengthMismatch .. => "SOLUTION_LENGTH_MISMATCH"

/-- The message of a refusal. -/
def message (e : ModelError) : String :=
  let tag := "[" ++ e.code ++ "] "
  match e with
  | .invalidVariableId id n => tag ++ s!"Variable ID {id} does not exist (model has {n} variables)"
  | .invalidConstraintId id n => tag ++ s!"Constraint ID {id} does not exist (model has {n} constraints)"
  | .solutionLengthMismatch expected got =>
    tag ++ s!"Solution has {got} values, expected one per variable ({expected})"

end ModelError

end Milp
