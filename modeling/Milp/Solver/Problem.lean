import Milp.Model.Basic

/-!
The problem handed to the LP/MIP solver. Columns are the variables in id order: continuous
variables give continuous columns, integer and binary ones integer columns, and a binary
column's bounds are clipped to `[0, 1]`. Rows are the constraints in id order, each with its
entries merged: sorted by id (stably), coefficients of one id summed from left to right, and
sums equal to `0.0` dropped.

Every coefficient must be finite. The objective is checked column by column, then each row's
entries in stored order just before that row is merged; the first non-finite value refuses the
model. The columns come from the four attribute vectors read in step, and each merged id is looked
up among them.
-/
namespace Milp

/-- A column: cost, bounds and integrality. -/
structure Column where
  cost : Float
  lower : Float
  upper : Float
  integer : Bool

/-- A row: merged factors and sides. -/
structure MergedRow where
  factors : List (Nat × Float)
  lower : Float
  upper : Float

/-- A problem for the solver. -/
structure Problem where
  sense : Sense
  columns : Array Column
  rows : Array MergedRow

/-- Why the solver hand-off refused a call. -/
inductive SolverError where
  /-- A non-finite cost (no row) or row coefficient. -/
  | invalidCoefficient (row : Option Nat) (column : Nat) (value : Float)
  | invalidOptionName (name : String)
  | invalidOptionValue (name : String) (expected : OptionKind) (value : OptionValue)
  /-- A result asked for before a solve produced one. -/
  | solveRequired (what : String)

namespace SolverError

/-- The name of the kind of refusal. -/
def kind : SolverError → String
  | .invalidCoefficient .. => "InvalidCoefficient"
  | .invalidOptionName .. => "InvalidOptionName"
  | .invalidOptionValue .. => "InvalidOptionValue"
  | .solveRequired .. => "SolveRequired"

/-- The stable code of a refusal. -/
def code : SolverError → String
  | .invalidCoefficient .. => "HIGHS_INVALID_COEFFICIENT"
  | .invalidOptionName .. => "HIGHS_INVALID_OPTION_NAME"
  | .invalidOptionValue .. => "HIGHS_INVALID_OPTION_VALUE"
  | .solveRequired .. => "HIGHS_SOLVE_REQUIRED"

/-- The message of a refusal. -/
def message (e : SolverError) : String :=
  let tag := "[" ++ e.code ++ "] "
  match e with
  | .invalidCoefficient (some row) col v =>
    tag ++ s!"Constraint {row} has non-finite coefficient " ++ Num.Layout.standard.render v ++
      s!" for variable {col}"
  | .invalidCoefficient none col v =>
    tag ++ "Objective has non-finite coefficient " ++ Num.Layout.standard.render v ++
      s!" for variable {col}"
  | .invalidOptionName name => tag ++ "Invalid option name " ++ Text.quoted name
  | .invalidOptionValue name k v =>
    tag ++ "Option " ++ Text.quoted name ++ " rejected value " ++ v.debugText ++
      "; expected a valid " ++ k.name ++ " value"
  | .solveRequired what => tag ++ what ++ " requires a solved model; call optimize first"

end SolverError

/-- The larger of two doubles, the other one when either is NaN. -/
def fmax (a b : Float) : Float := if a.isNaN then b else if b.isNaN then a else if a < b then b else a

/-- The smaller of two doubles, the other one when either is NaN. -/
def fmin (a b : Float) : Float := if a.isNaN then b else if b.isNaN then a else if b < a then b else a

/-- The column a variable becomes. -/
def Column.ofVar (o : VarOptions Float) : Column :=
  match o.category with
  | .continuous => ⟨o.objCoef, o.lowerBound, o.upperBound, false⟩
  | .integer => ⟨o.objCoef, o.lowerBound, o.upperBound, true⟩
  | .binary => ⟨o.objCoef, fmax o.lowerBound 0, fmin o.upperBound 1, true⟩

/-- Sums runs of equal ids, each from left to right, starting with the pending pair `cur`. -/
def coalesceFrom (cur : Nat × Float) : List (Nat × Float) → List (Nat × Float)
  | [] => [cur]
  | (k, b) :: rest =>
    if cur.1 = k then coalesceFrom (cur.1, cur.2 + b) rest else cur :: coalesceFrom (k, b) rest

/-- Sums runs of equal ids. -/
def coalesce : List (Nat × Float) → List (Nat × Float)
  | [] => []
  | p :: rest => coalesceFrom p rest

/-- The merged factors of stored entries: stable sort by id, runs summed, zero sums dropped. -/
def mergeEntries (entries : List (Nat × Float)) : List (Nat × Float) :=
  (coalesce (entries.mergeSort fun a b => a.1 ≤ b.1)).filter fun p => p.2 != 0

/-- The attributes of each variable, read from the four attribute vectors in step, as far as the
shortest of them goes. -/
def Model.vars {α : Type} (m : Model α) : List (VarOptions α) :=
  (m.varObj.toList.zip (m.varLb.toList.zip (m.varUb.toList.zip m.varType.toList))).map fun p =>
    ⟨p.1, p.2.1, p.2.2.1, p.2.2.2⟩

/-- The columns of a model in id order, or the first non-finite cost. -/
def Problem.columnsOf (m : Model Float) : Except SolverError (List Column) :=
  m.vars.zipIdx.mapM fun p =>
    if p.1.objCoef.isFinite then .ok (Column.ofVar p.1) else .error (.invalidCoefficient none p.2 p.1.objCoef)

/-- The first non-finite entry of a row, in stored order. -/
def firstNonFinite (v : ConstraintView Float) : Option (Nat × Float) :=
  v.terms.find? fun e => !e.2.isFinite

/-- The factors of a row: its merged entries, each id looked up among the `ncols` columns. -/
def factorsOf (ncols : Nat) (v : ConstraintView Float) : Except Fault (List (Nat × Float)) :=
  (mergeEntries v.terms).mapM fun p => if p.1 < ncols then .ok p else .error (Vec.outOfBounds ncols p.1)

/-- The merged rows, in order, with the number of entries merging removed: each view's entries
are checked, then merged. -/
def Problem.rowsOf (ncols : Nat) :
    List (Except Fault (ConstraintView Float)) → Except Fault (Except SolverError (List MergedRow × Nat))
  | [] => .ok (.ok ([], 0))
  | .error f :: _ => .error f
  | .ok v :: rest =>
    match firstNonFinite v with
    | some (j, a) => .ok (.error (.invalidCoefficient (some v.id) j a))
    | none =>
      match factorsOf ncols v, Problem.rowsOf ncols rest with
      | .error f, _ => .error f
      | .ok _, .error f => .error f
      | .ok _, .ok (.error e) => .ok (.error e)
      | .ok fs, .ok (.ok (rows, merged)) =>
        .ok (.ok (⟨fs, v.lower, v.upper⟩ :: rows, v.subj.size - fs.length + merged))

/-- The problem of a model, with the number of entries merging removed, or the first non-finite
coefficient: the costs are checked column by column, then each row's entries in stored order. -/
def Problem.ofModel (m : Model Float) : Except Fault (Except SolverError (Problem × Nat)) :=
  match Problem.columnsOf m with
  | .error e => .ok (.error e)
  | .ok cols =>
    match Problem.rowsOf cols.length m.constraints with
    | .error f => .error f
    | .ok (.error e) => .ok (.error e)
    | .ok (.ok (rows, merged)) => .ok (.ok (⟨m.sense, cols.toArray, rows.toArray⟩, merged))

end Milp
