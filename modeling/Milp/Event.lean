import Milp.Variable
import Milp.Sense
import Milp.Solver.Option

/-!
Log events. Model and solver operations report what they did as events; each has a level, the
component that emitted it and named fields, one of which is the message.
-/
namespace Milp

/-- The severity of an event. -/
inductive Level where
  | trace
  | debug
  | warn
deriving DecidableEq, Repr

/-- The name of a level. -/
def Level.name : Level → String
  | .trace => "TRACE"
  | .debug => "DEBUG"
  | .warn => "WARN"

/-- A field value: text, a count or a double. -/
inductive FieldValue where
  | text (s : String)
  | nat (n : Nat)
  | float (x : Float)

/-- What an operation reports. -/
inductive Event where
  | addedVariable (id : Nat) (category : Category)
  | addedBlock (first count : Nat)
  | accumulatedObjective (terms : Nat)
  | updatedSense (sense : Sense)
  | addedConstraint (id entries : Nat)
  /-- A variable id refused by the named operation. -/
  | rejectedVariable (operation : String) (id nbVariables : Nat)
  | buildingSolver (nbVariables nbConstraints nbEntries : Nat) (sense : Sense)
  | cannotSolve
  | nonFiniteCoefficient (row : Option Nat) (column : Nat) (value : Float)
  | builtProblem (cols rows entries merged : Nat)
  | bufferedOption (name : String) (value : OptionValue)
  | rejectedOption (name : String) (code : String)
  | solving (cols rows : Nat) (sense : Sense)
  | alreadySolved (code : ReturnCode)
  | solveFailed
  | statusReceived (code : ReturnCode)

namespace Event

/-- The severity of an event. -/
def level : Event → Level
  | .addedVariable .. | .addedBlock .. | .accumulatedObjective .. | .addedConstraint ..
  | .bufferedOption .. => .trace
  | .rejectedVariable .. | .nonFiniteCoefficient .. | .rejectedOption .. | .solveFailed => .warn
  | _ => .debug

/-- The component path that emits an event. -/
def target : Event → String
  | .cannotSolve => "mipmodel::dummy"
  | .nonFiniteCoefficient .. | .builtProblem .. | .bufferedOption .. | .rejectedOption ..
  | .solving .. | .alreadySolved .. | .solveFailed | .statusReceived .. => "mipmodel_highs"
  | _ => "mipmodel::model"

/-- The text of an optional row: `None` or `Some(i)`. -/
def rowText : Option Nat → String
  | none => "None"
  | some i => "Some(" ++ toString i ++ ")"

/-- The fields of an event, the message among them. A later field of the same name replaces an
earlier one. -/
def fields : Event → List (String × FieldValue)
  | .addedVariable id c =>
    [("component", .text "model"), ("operation", .text "add_var"), ("status", .text "success"),
     ("variable_id", .nat id), ("var_type", .text c.name), ("message", .text "Added variable")]
  | .addedBlock first count =>
    [("component", .text "model"), ("operation", .text "add_vars"), ("status", .text "success"),
     ("first_id", .nat first), ("count", .nat count), ("message", .text "Added variable block")]
  | .accumulatedObjective n =>
    [("component", .text "model"), ("operation", .text "add_obj"), ("status", .text "success"),
     ("terms", .nat n), ("message", .text "Accumulated objective terms")]
  | .updatedSense s =>
    [("component", .text "model"), ("operation", .text "set_sense"), ("status", .text "success"),
     ("sense", .text s.name), ("message", .text "Updated objective sense")]
  | .addedConstraint id entries =>
    [("component", .text "model"), ("operation", .text "add_constraint"),
     ("status", .text "success"), ("constraint_id", .nat id), ("entries", .nat entries),
     ("message", .text "Added constraint")]
  | .rejectedVariable op id n =>
    [("component", .text "model"), ("operation", .text op), ("status", .text "rejected"),
     ("variable_id", .nat id), ("num_vars", .nat n),
     ("message", .text "Variable does not exist in the model")]
  | .buildingSolver nv nc ne s =>
    [("component", .text "model"), ("operation", .text "build"), ("status", .text "start"),
     ("num_vars", .nat nv), ("num_cons", .nat nc), ("num_entries", .nat ne),
     ("sense", .text s.name), ("message", .text "Building solver from model")]
  | .cannotSolve =>
    [("component", .text "dummy"), ("operation", .text "optimize"),
     ("status", .text "unsupported"), ("message", .text "Dummy backend cannot solve")]
  | .nonFiniteCoefficient row col v =>
    [("component", .text "solver"), ("operation", .text "build"), ("status", .text "rejected"),
     ("row", .text (rowText row)), ("column", .nat col), ("value", .float v),
     ("message", .text "Non-finite coefficient")]
  | .builtProblem cols rows entries merged =>
    [("component", .text "solver"), ("operation", .text "build"), ("status", .text "success"),
     ("num_cols", .nat cols), ("num_rows", .nat rows), ("num_entries", .nat entries),
     ("merged_entries", .nat merged), ("message", .text "Built HiGHS problem")]
  | .bufferedOption name v =>
    [("component", .text "solver"), ("operation", .text "set_parameter"),
     ("status", .text "success"), ("parname", .text name), ("value", .text v.debugText),
     ("message", .text "Buffered HiGHS option")]
  | .rejectedOption name code =>
    [("component", .text "solver"), ("operation", .text "set_parameter"),
     ("status", .text "rejected"), ("parname", .text name), ("code", .text code),
     ("message", .text "HiGHS option rejected")]
  | .solving cols rows s =>
    [("component", .text "solver"), ("operation", .text "optimize"), ("status", .text "start"),
     ("num_cols", .nat cols), ("num_rows", .nat rows), ("sense", .text s.name),
     ("message", .text "Solving model")]
  | .alreadySolved code =>
    [("component", .text "solver"), ("operation", .text "optimize"),
     ("status", .text code.name), ("message", .text "Problem already solved")]
  | .solveFailed =>
    [("component", .text "solver"), ("operation", .text "optimize"), ("status", .text "error"),
     ("err", .text "Error"), ("message", .text "HiGHS failed to solve")]
  | .statusReceived code =>
    [("component", .text "solver"), ("operation", .text "optimize"),
     ("status", .text "success"), ("return_code", .text code.name),
     ("message", .text "Solution status received")]

end Event

end Milp
