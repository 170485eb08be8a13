import Milp.Sense

/-!
What a solve reports: the status it ended with, a value per column and the objective value.
A solve that cannot run at all reports nothing.
-/
namespace Milp

/-- The status a solve ends with. -/
inductive ModelStatus where
  | optimal
  /-- A problem without columns: the objective constant is optimal. -/
  | modelEmpty
  | infeasible
  | unbounded
  | unboundedOrInfeasible
  | timeLimit
  | iterationLimit
  | objectiveBound
  | objectiveTarget
  /-- The limit on improving solutions was reached. -/
  | solutionLimit
  /-- The solve ended without a verdict. -/
  | unknown
deriving DecidableEq, Repr

/-- The return code of a status; the solution limit has none, and a solve without a verdict
fails. -/
def ModelStatus.returnCode? : ModelStatus → Option ReturnCode
  | .optimal | .modelEmpty => some .success
  | .infeasible => some .infeasible
  | .unbounded => some .unbounded
  | .unboundedOrInfeasible => some .infeasibleOrUnbounded
  | .timeLimit | .iterationLimit | .objectiveBound | .objectiveTarget => some .interrupted
  | .solutionLimit => none
  | .unknown => some .failure

/-- The numeric value of a status in the solver's own numbering. -/
def ModelStatus.number : ModelStatus → Nat
  | .modelEmpty => 6
  | .optimal => 7
  | .infeasible => 8
  | .unboundedOrInfeasible => 9
  | .unbounded => 10
  | .objectiveBound => 11
  | .objectiveTarget => 12
  | .timeLimit => 13
  | .iterationLimit => 14
  | .solutionLimit => 16
  | .unknown => 15

/-- What a solve reports. -/
structure Report where
  status : ModelStatus
  solution : Array Float
  objective : Float

end Milp
