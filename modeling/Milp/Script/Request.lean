import Milp.Script.Form
import Milp.Variable
import Milp.Sense
import Milp.Solver.Option

/-!
Requests: what to build, what to ask of it, and the steps of a model session. A request carries
its numbers as doubles; the scalar type is chosen by the request itself.
-/
namespace Milp

/-- How a constraint's sides are given: one bound, or a chain of a first bound (none for an
unbounded start) and later steps. -/
inductive BoundForm where
  | bound (b : Bound Float)
  | chain (first : Option (Bound Float)) (steps : List (Side Float))

/-- The attributes of a new variable: fields over the defaults, or builder steps from the
defaults, which take precedence. -/
structure VarSpec where
  objCoef : Option Float := none
  lowerBound : Option Float := none
  upperBound : Option Float := none
  category : Option Category := none
  builder : Option (List VarStep) := none

/-- The attributes a specification gives. -/
def VarSpec.options (s : VarSpec) : VarOptions Float :=
  match s.builder with
  | some steps => VarOptions.build steps
  | none =>
    { objCoef := s.objCoef.getD 0, lowerBound := s.lowerBound.getD 0,
      upperBound := s.upperBound.getD (1 / 0), category := s.category.getD .continuous }

/-- An operation on the data-only backend. -/
inductive SnapshotOp where
  | setParameter (name : String) (v : OptionValue)
  | optimize
  | solution
  | objectiveValue
  | parameters
  | data

/-- An operation on the solving backend. -/
inductive BackendOp where
  /-- Sets an option; a plain call turns a refusal into a fault. -/
  | setParameter (name : String) (v : OptionValue) (plain : Bool)
  | setLogToConsole (b : Bool)
  | optimize
  | status
  | numCols
  | numRows
  | trySolution
  | tryObjectiveValue
  | solution
  | objectiveValue
  | debug

/-- A step of a model session. Checked forms answer a refusal; plain forms turn it into a fault. -/
inductive StepForm where
  | addVar (spec : VarSpec)
  | addVars (count : Nat) (table : List Nat)
  | access (block : Nat) (indices : List Nat)
  | addObj (e : ExprForm) (checked : Bool)
  /-- Adds the same expression to the objective a number of times. -/
  | addObjRepeated (e : ExprForm) (times : Nat)
  | addConstraint (e : ExprForm) (b : BoundForm) (checked : Bool)
  /-- Adds a stored row again. -/
  | copyConstraint (id : Nat)
  | constraint (id : Nat) (checked : Bool)
  | constraints
  | objective
  | objectiveConstant
  | sense
  | setSense (s : Sense)
  | nbVariables
  | nbConstraints
  | nbEntries
  | attribute (a : Attribute) (var : Nat) (checked : Bool)
  | setAttribute (a : AttributeValue Float) (var : Nat) (checked : Bool)
  /-- One attribute of every variable, by id. -/
  | attributes (a : Attribute)
  | evaluate (e : ExprForm) (solution : List Float)
  | dump
  | snapshot (ops : List SnapshotOp)
  | solve (ops : List BackendOp)

/-- A request. Expression and constraint requests choose single precision with `single`. -/
inductive Request where
  | expr (e : ExprForm) (values : Option (List Float)) (single : Bool)
  | constraint (e : ExprForm) (b : BoundForm) (single : Bool)
  | varOptions (spec : VarSpec)
  | varDebug (id : Nat) (other : Option Nat)
  /-- A model session; a step that could not be read is given by its complaint. -/
  | model (steps : List (Except String StepForm))

end Milp
