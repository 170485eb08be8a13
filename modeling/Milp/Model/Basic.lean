import Milp.Constraint
import Milp.Event
import Milp.Model.Error
import Milp.Vec

/-!
The model store. A model keeps one vector per variable attribute (objective coefficient, lower
and upper bound, category), the objective constant and sense, and the constraint matrix row by
row: row `i` is the slice `[start, stop)` of two shared entry vectors (variable ids and
coefficients) named by its pointer pair, with two sides of its own. A row keeps the terms of its
expression exactly as they were read, with repeated ids and zero coefficients.

Adding a block of variables sets the number of variables to the machine-word sum of the old number
and the block's size: past `2 ^ 64` it wraps and cuts the attribute vectors short. A block that
would outgrow what a vector of doubles can hold faults. Every operation that takes a variable id
checks it against the number of variables; a refused call changes nothing and logs a warning that
names the operation. Adding to the objective checks
every id before it adds anything; adding a constraint appends the terms while it reads them, and
cuts the entry vectors back to where they were at the first id outside the model.

The store is written over any scalar type: the program uses doubles, and exact rationals give
the reading in exact arithmetic.
-/
namespace Milp

/-- A linear or mixed-integer model. -/
structure Model (α : Type) where
  varObj : Array α
  varLb : Array α
  varUb : Array α
  varType : Array Category
  objConstant : α
  sense : Sense
  /-- Per row, the start and end of its entries in `aSubj` and `aCof`. -/
  conPtr : Array (Nat × Nat)
  conLb : Array α
  conUb : Array α
  aSubj : Array Nat
  aCof : Array α

/-- What a call gives: its value or a refusal, and the events it logged. -/
structure Reply (β : Type) where
  result : Except ModelError β
  log : List Event := []

/-- What a call that may change the model gives: its answer, the model after it and the events it
logged. -/
structure Step (α β : Type) where
  result : Except ModelError β
  model : Model α
  log : List Event := []

/-- The answer of a step, without the model. -/
def Step.reply {α β : Type} (s : Step α β) : Reply β := ⟨s.result, s.log⟩

/-- A stored row as the model shows it: its id, the entries of its slice and its two sides. -/
structure ConstraintView (α : Type) where
  id : Nat
  subj : Array Nat
  cof : Array α
  lower : α
  upper : α

/-- The objective as the model shows it: the objective coefficients of all variables and the
objective constant. -/
structure ObjectiveView (α : Type) where
  cof : Array α
  constant : α

namespace ObjectiveView

variable {α : Type} [Scalar α] [BEq α]

/-- The ids of the variables whose coefficient is not `0`, in increasing order: a NaN stays and a
negative zero goes. -/
def varIds (o : ObjectiveView α) : Reading Nat :=
  ⟨(o.cof.toList.zipIdx.filter fun p => p.1 != Scalar.zero).map Prod.snd, none⟩

/-- The coefficients that are not `0`, in increasing id order, read apart from their ids. -/
def coefficients (o : ObjectiveView α) : List α := o.cof.toList.filter (· != Scalar.zero)

/-- The terms of the objective: its ids and coefficients paired by position. -/
def terms (o : ObjectiveView α) : Terms α := o.varIds.zipEq o.coefficients

/-- The stored copy of the objective. -/
def materialize (o : ObjectiveView α) : Except Fault (Linear α) := o.terms.toLinear o.constant

end ObjectiveView

/-- The entries of a row as pairs of variable id and coefficient. -/
def ConstraintView.terms {α : Type} (v : ConstraintView α) : List (Nat × α) := v.subj.toList.zip v.cof.toList

/-- The name of the operation that reads an attribute. -/
def Attribute.reader : Attribute → String
  | .objCoef => "obj_coef"
  | .lowerBound => "lower_bound"
  | .upperBound => "upper_bound"
  | .category => "var_type"

/-- The name of the operation that writes an attribute. -/
def Attribute.writer : Attribute → String
  | .objCoef => "set_obj_coef"
  | .lowerBound => "set_lower_bound"
  | .upperBound => "set_upper_bound"
  | .category => "set_var_type"

namespace Model

variable {α : Type}

/-- The empty model. -/
def new [Scalar α] : Model α := ⟨#[], #[], #[], #[], Scalar.zero, .minimize, #[], #[], #[], #[], #[]⟩

/-- The number of variables. -/
def nbVariables (m : Model α) : Nat := m.varObj.size

/-- The number of constraints. -/
def nbConstraints (m : Model α) : Nat := m.conPtr.size

/-- The number of stored row entries. -/
def nbEntries (m : Model α) : Nat := m.aSubj.size

/-- Adds a variable with the given attributes; its id is the former number of variables. -/
def addVar (m : Model α) (o : VarOptions α) : Variable × Model α × Event :=
  let id := m.varObj.size
  let m' := { m with varObj := m.varObj.push o.objCoef, varLb := m.varLb.push o.lowerBound,
                     varUb := m.varUb.push o.upperBound, varType := m.varType.push o.category }
  (⟨id⟩, m', .addedVariable id o.category)

/-- Adds `count` variables with default attributes and returns their block: every attribute vector
is resized to the `usize` sum of the former number of variables and `count`. Past `2 ^ 64` the sum
wraps, and the resize then cuts the vectors short. -/
def addVars [MachineScalar α] (m : Model α) (count : Nat) (table : Array Nat) : Block × Model α × Event :=
  let first := m.varObj.size
  let n := wordAdd first count
  let d : VarOptions α := .default
  (⟨first, count, table⟩,
    { m with varObj := Vec.resize m.varObj n d.objCoef,
             varLb := Vec.resize m.varLb n d.lowerBound,
             varUb := Vec.resize m.varUb n d.upperBound,
             varType := Vec.resize m.varType n d.category },
    .addedBlock first count)

/-- The most doubles a vector can hold: their size in bytes stays within a signed 64-bit word. -/
def maxVariables : Nat := (Nat.pow 2 63 - 1) / 8

/-- Adds a block as `addVars` does, or faults in the resize when the attribute vectors would have to
grow past `maxVariables`. -/
def tryAddVars [MachineScalar α] (m : Model α) (count : Nat) (table : Array Nat) :
    Except Fault (Block × Model α × Event) :=
  let first := m.varObj.size
  let n := wordAdd first count
  if first < n ∧ maxVariables < n then .error ⟨"capacity overflow"⟩
  else .ok (m.addVars count table)

/-- A refusal of variable `id` by the named operation, with its warning; the model is kept. -/
def reject {β : Type} (m : Model α) (op : String) (id : Nat) : Step α β :=
  ⟨.error (.invalidVariableId id m.nbVariables), m, [.rejectedVariable op id m.nbVariables]⟩

/-- Adds each coefficient to its variable's objective coefficient, in order. -/
def accumulate [Add α] (obj : Array α) : List (Nat × α) → Array α
  | [] => obj
  | (j, c) :: rest => accumulate (obj.modify j (· + c)) rest

/-- Adds an expression to the objective: every id is checked first, then each coefficient is
added to its variable's and the constant to the objective constant. -/
def tryAddObj [Scalar α] (m : Model α) (e : Expr α) : Except Fault (Step α Unit) :=
  let t := e.terms
  match t.firstOutside m.nbVariables, t.fault with
  | some j, _ => .ok (m.reject "add_obj" j)
  | none, some f => .error f
  | none, none =>
    -- the check above keeps every id below the length of `varObj`
    .ok ⟨.ok (), { m with varObj := accumulate m.varObj t.items,
                          objConstant := m.objConstant + e.constant },
      [.accumulatedObjective t.items.length]⟩

/-- Appends terms to the entry vectors in order, until one names a variable that is not below
`n`: that id, if there is one, and the vectors as they then stand. -/
def appendEntries (n : Nat) (subj : Array Nat) (cof : Array α) :
    List (Nat × α) → Option Nat × Array Nat × Array α
  | [] => (none, subj, cof)
  | (j, c) :: rest => if n ≤ j then (some j, subj, cof) else appendEntries n (subj.push j) (cof.push c) rest

/-- Adds a constraint as a new row, appending its terms while they are read; the first id outside
the model cuts both entry vectors back to their former length and refuses the call. -/
def tryAddConstraint [MachineScalar α] (m : Model α) (c : Constraint α) : Except Fault (Step α Nat) :=
  let t := c.terms
  let start := m.aSubj.size
  match appendEntries m.nbVariables m.aSubj m.aCof t.items with
  | (some j, subj, cof) =>
    .ok (reject { m with aSubj := subj.take start, aCof := cof.take start } "add_constraint" j)
  | (none, subj, cof) =>
    match t.fault with
    | some f => .error f
    | none =>
      let id := m.conPtr.size
      let m' := { m with aSubj := subj, aCof := cof, conPtr := m.conPtr.push (start, subj.size),
                         conLb := m.conLb.push c.lower, conUb := m.conUb.push c.upper }
      .ok ⟨.ok id, m', [.addedConstraint id (subj.size - start)]⟩

/-- The view of row `id` with pointer pair `ptr` and the given sides. -/
def view (m : Model α) (id : Nat) (ptr : Nat × Nat) (lower upper : α) : Except Fault (ConstraintView α) := do
  let subj ← Vec.slice m.aSubj ptr.1 ptr.2
  let cof ← Vec.slice m.aCof ptr.1 ptr.2
  return ⟨id, subj, cof, lower, upper⟩

/-- The stored row with a given id. -/
def tryConstraint (m : Model α) (id : Nat) : Except Fault (Except ModelError (ConstraintView α)) :=
  match m.conPtr[id]? with
  | none => .ok (.error (.invalidConstraintId id m.nbConstraints))
  | some ptr => do
    let subj ← Vec.slice m.aSubj ptr.1 ptr.2
    let cof ← Vec.slice m.aCof ptr.1 ptr.2
    let lower ← Vec.get m.conLb id
    let upper ← Vec.get m.conUb id
    return .ok ⟨id, subj, cof, lower, upper⟩

/-- The rows in id order, each view made when it is reached. The pointer pairs and the two side
vectors are read in step, as far as the shortest of them goes. -/
def constraints (m : Model α) : List (Except Fault (ConstraintView α)) :=
  (m.conPtr.toList.zip (m.conLb.toList.zip m.conUb.toList)).zipIdx.map fun p =>
    m.view p.2 p.1.1 p.1.2.1 p.1.2.2

/-- The value of an attribute of variable `j`, read from its vector. -/
def read (m : Model α) (j : Nat) : Attribute → Except Fault (AttributeValue α)
  | .objCoef => .objCoef <$> Vec.get m.varObj j
  | .lowerBound => .lowerBound <$> Vec.get m.varLb j
  | .upperBound => .upperBound <$> Vec.get m.varUb j
  | .category => .category <$> Vec.get m.varType j

/-- Writes a value into the vector of its attribute at variable `j`. -/
def write (m : Model α) (j : Nat) : AttributeValue α → Except Fault (Model α)
  | .objCoef c => (fun xs => { m with varObj := xs }) <$> Vec.set m.varObj j c
  | .lowerBound b => (fun xs => { m with varLb := xs }) <$> Vec.set m.varLb j b
  | .upperBound b => (fun xs => { m with varUb := xs }) <$> Vec.set m.varUb j b
  | .category c => (fun xs => { m with varType := xs }) <$> Vec.set m.varType j c

/-- Reads an attribute of a variable; an id that is not below the number of variables is refused. -/
def tryGet (m : Model α) (a : Attribute) (v : Variable) : Except Fault (Reply (AttributeValue α)) :=
  if v.id < m.nbVariables then (fun x => ⟨.ok x, []⟩) <$> m.read v.id a
  else .ok (m.reject a.reader v.id).reply

/-- Writes an attribute of a variable; an id that is not below the number of variables is refused. -/
def trySet (m : Model α) (a : AttributeValue α) (v : Variable) : Except Fault (Step α Unit) :=
  if v.id < m.nbVariables then (fun m' => ⟨.ok (), m', []⟩) <$> m.write v.id a
  else .ok (m.reject a.attribute.writer v.id)

/-- Sets the objective sense. -/
def setSense (m : Model α) (s : Sense) : Model α × Event := ({ m with sense := s }, .updatedSense s)

/-- The objective as an expression over the variables with a coefficient that is not `0`. -/
def objective (m : Model α) : ObjectiveView α := ⟨m.varObj, m.objConstant⟩

/-- The value of an expression at a point. The point must have one value per variable, then
every id is checked, then the expression is evaluated. -/
def evaluate [Scalar α] (m : Model α) (e : Expr α) (xs : Array α) : Except Fault (Reply α) :=
  if xs.size ≠ m.nbVariables then
    .ok ⟨.error (.solutionLengthMismatch m.nbVariables xs.size), []⟩
  else
    let t := e.terms
    match t.firstOutside m.nbVariables, t.fault with
    | some j, _ => .ok (m.reject "evaluate" j).reply
    | none, some f => .error f
    | none, none =>
      match e.evaluate xs with
      | .ok v => .ok ⟨.ok v, []⟩
      | .error f => .error f

/-- The event that starts every hand-off to a solver. -/
def buildEvent (m : Model α) : Event :=
  .buildingSolver m.nbVariables m.nbConstraints m.nbEntries m.sense

end Model

end Milp
