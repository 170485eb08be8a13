/-!
The direction of optimization and the codes a solve returns.
-/
namespace Milp

/-- Whether the objective is minimized or maximized. -/
inductive Sense where
  | minimize
  | maximize
deriving DecidableEq, Repr, Inhabited

/-- The name of a sense. -/
def Sense.name : Sense → String
  | .minimize => "Minimize"
  | .maximize => "Maximize"

/-- The sense with a given name. -/
def Sense.ofName? : String → Option Sense
  | "Minimize" => some .minimize
  | "Maximize" => some .maximize
  | _ => none

/-- The outcome of a solve. -/
inductive ReturnCode where
  | success
  | infeasible
  | unbounded
  | infeasibleOrUnbounded
  | interrupted
  | failure
deriving DecidableEq, Repr

/-- The name of a return code. -/
def ReturnCode.name : ReturnCode → String
  | .success => "Success"
  | .infeasible => "Infeasible"
  | .unbounded => "Unbounded"
  | .infeasibleOrUnbounded => "InfeasibleOrUnbounded"
  | .interrupted => "Interrupted"
  | .failure => "Failure"

/-- Only an optimal solve is a success. -/
def ReturnCode.isSuccess (c : ReturnCode) : Bool := c == .success

end Milp
