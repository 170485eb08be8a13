import Milp.Model.Basic

/-!
The data-only backend. It copies what a solver receives from a model: dense objective
coefficients and constant, column bounds and categories, and the rows in compressed row form,
with duplicates and zeros as stored. The rows are copied one view after another, each appended to
the backend's own entry vectors with a pointer pair of its own. It records the parameters it is
given and cannot solve.
-/
namespace Milp

/-- A copy of a model's data for a solver, and the parameters set on it. -/
structure Snapshot where
  sense : Sense
  costs : Array Float
  offset : Float
  lower : Array Float
  upper : Array Float
  categories : Array Category
  /-- Per row, the start and end of its entries in `subj` and `cof`. -/
  aPtr : Array (Nat × Nat)
  subj : Array Nat
  cof : Array Float
  rowLower : Array Float
  rowUpper : Array Float
  parameters : Array (String × OptionValue) := #[]

namespace Snapshot

/-- Appends a row: its entries after those already copied, its pointer pair and its sides. -/
def pushRow (s : Snapshot) (v : ConstraintView Float) : Snapshot :=
  let b := s.subj.size
  let subj := s.subj ++ v.subj
  { s with subj := subj, cof := s.cof ++ v.cof, aPtr := s.aPtr.push (b, subj.size),
           rowLower := s.rowLower.push v.lower, rowUpper := s.rowUpper.push v.upper }

/-- Copies rows in order until a view cannot be made. -/
def pushRows (s : Snapshot) : List (Except Fault (ConstraintView Float)) → Except Fault Snapshot
  | [] => .ok s
  | .error f :: _ => .error f
  | .ok v :: rest => (s.pushRow v).pushRows rest

/-- Copies the data of a model. -/
def ofModel (m : Model Float) : Except Fault Snapshot :=
  pushRows ⟨m.sense, m.varObj, m.objConstant, m.varLb, m.varUb, m.varType, #[], #[], #[], #[], #[], #[]⟩
    m.constraints

/-- The number of columns. -/
def numCols (s : Snapshot) : Nat := s.costs.size

/-- The number of rows. -/
def numRows (s : Snapshot) : Nat := s.aPtr.size

/-- The entries of row `i`. -/
def row (s : Snapshot) (i : Nat) : Except Fault (Array Nat × Array Float) := do
  let ptr ← Vec.get s.aPtr i
  let subj ← Vec.slice s.subj ptr.1 ptr.2
  let cof ← Vec.slice s.cof ptr.1 ptr.2
  return (subj, cof)

/-- Row starts of the compressed form: `0` and then the end of each row. -/
def ptr (s : Snapshot) : List Nat := 0 :: s.aPtr.toList.map Prod.snd

/-- Records a parameter. -/
def setParameter (s : Snapshot) (name : String) (v : OptionValue) : Snapshot :=
  { s with parameters := s.parameters.push (name, v) }

/-- Solving is not supported: the code is a failure, with a debug event. -/
def optimize (_ : Snapshot) : ReturnCode × Event := (.failure, .cannotSolve)

/-- No solution: NaN for every column. -/
def solution (s : Snapshot) : Array Float := Array.replicate s.numCols (0 / 0)

end Snapshot

/-- The name a recorded parameter's kind has in listings. -/
def OptionValue.kindName : OptionValue → String
  | .bool _ => "Bool"
  | .int _ => "Int"
  | .float _ => "Double"
  | .str _ => "Str"

end Milp
