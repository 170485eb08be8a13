import Milp.Constraint

/-!
Expressions as a request writes them. A form names the constructors to call, with its numbers
as doubles; `ExprForm.toExpr` calls them at a chosen scalar type, from left to right, so the
first refusal or fault met in that order is the one reported. Block and objective forms read
the surrounding model, which a `Scope` carries.
-/
namespace Milp

/-- Why a request is refused before anything runs. -/
inductive Refusal where
  /-- A block form names a block the model does not have. -/
  | noBlock (b : Nat)
  /-- An objective form outside a model. -/
  | objectiveOutsideModel
  /-- A block form where no double-precision model is. -/
  | blockOutsideModel
  /-- Index and coefficient lists of a block sum differ in length. -/
  | blockSumLengths
deriving DecidableEq, Repr

/-- The text of a refusal. -/
def Refusal.message : Refusal → String
  | .noBlock b => s!"no block {b}"
  | .objectiveOutsideModel => "objective only in model context"
  | .blockOutsideModel => "block only in f64 model context"
  | .blockSumLengths => "coefs and indices differ in length"

/-- How a request stops early: refused, or ended by a fault. -/
inductive Stop where
  | refused (r : Refusal)
  | fault (f : Fault)
deriving DecidableEq, Repr

mutual

/-- An expression as a request writes it. -/
inductive ExprForm where
  | const (c : Float)
  | var (id : Nat)
  | add (l r : ExprForm)
  | sub (l r : ExprForm)
  /-- `((e₁ + e₂) + e₃) + …` -/
  | sum (first : ExprForm) (rest : List ExprForm)
  /-- `((e₁ - e₂) - e₃) - …` -/
  | diff (first : ExprForm) (rest : List ExprForm)
  | neg (e : ExprForm)
  /-- `e + c`. -/
  | shift (e : ExprForm) (c : Float)
  /-- `c - e`. -/
  | rsub (c : Float) (e : ExprForm)
  /-- `c * e`. -/
  | scale (c : Float) (e : ExprForm)
  /-- `e / c`. -/
  | div (e : ExprForm) (c : Float)
  /-- The first operand of an operator: a variable stays one, anything else is stored first. -/
  | operand (e : ExprForm)
  /-- The stored copy of an expression. -/
  | materialize (e : ExprForm)
  /-- A stored expression from ids and coefficients paired by position. -/
  | linear (ids : List Nat) (coefs : List Float) (c : Float)
  /-- A stored expression from pairs, constant zero. -/
  | pairs (ps : List (Nat × Float))
  /-- A stored expression grown from zero by steps. -/
  | build (steps : List BuildStep)
  /-- A unit-weight sum of variables. -/
  | xsum (ids : List Nat)
  /-- A weighted sum of variables, in the order given. -/
  | xsumWith (ps : List (Nat × Float))
  /-- The variable at index `i` of block `b`, looked up at once. -/
  | block (b i : Nat)
  /-- A sum over block `b`, looked up while read; unit weights when no coefficients are given. -/
  | blockSum (b : Nat) (indices : List Nat) (coefs : Option (List Float))
  /-- The model's objective as stored when the step began. -/
  | objective

/-- A step that grows a stored expression. -/
inductive BuildStep where
  | push (id : Nat) (c : Float)
  | extend (e : ExprForm)

end

/-- What an expression form may read: the blocks of a double-precision model (none where block
forms are refused) and the stored copy of a model's objective, or the fault met making it (none
outside a model). -/
structure Scope (α : Type) where
  blocks : Option (Array Block) := none
  objective : Option (Except Fault (Linear α)) := none

/-- A fault as a stop. -/
def Stop.ofFault {β : Type} : Except Fault β → Except Stop β
  | .ok b => .ok b
  | .error f => .error (.fault f)

section Build

variable {α : Type} [MachineScalar α]

/-- The block with a given number, as the scope allows. -/
def Scope.block (s : Scope α) (b : Nat) : Except Stop Block :=
  match s.blocks with
  | none => .error (.refused .blockOutsideModel)
  | some bs =>
    match bs[b]? with
    | some blk => .ok blk
    | none => .error (.refused (.noBlock b))

/-- Pairs indices with coefficients, unit weights when none are given. -/
def blockItems (indices : List Nat) : Option (List Float) → Except Stop (List (Nat × α))
  | none => .ok (indices.map (·, Scalar.one))
  | some cs =>
    if indices.length = cs.length then .ok (indices.zip (cs.map MachineScalar.ofFloat))
    else .error (.refused .blockSumLengths)

mutual

/-- Builds the expression a form names. -/
def ExprForm.toExpr (s : Scope α) : ExprForm → Except Stop (Expr α)
  | .const c => .ok (.const (MachineScalar.ofFloat c))
  | .var j => .ok (.var j)
  | .add l r => do
    let l ← l.toExpr s
    let r ← r.toExpr s
    pure (.add l r)
  | .sub l r => do
    let l ← l.toExpr s
    let r ← r.toExpr s
    pure (.sub l r)
  | .sum first rest => do
    let e ← first.toExpr s
    ExprForm.addAll s e rest
  | .diff first rest => do
    let e ← first.toExpr s
    ExprForm.subAll s e rest
  | .neg e => do pure (.neg (← e.toExpr s))
  | .shift e c => do pure (.shift (← e.toExpr s) (MachineScalar.ofFloat c))
  | .rsub c e => do pure (.rsub (MachineScalar.ofFloat c) (← e.toExpr s))
  | .scale c e => do pure (.scale (MachineScalar.ofFloat c) (← e.toExpr s))
  | .div e c => do pure ((← e.toExpr s).divide (MachineScalar.ofFloat c))
  | .operand e => do
    let x ← e.toExpr s
    match e with
    | .var j => pure (.var j)
    | _ => pure (.linear (← Stop.ofFault x.materialize))
  | .materialize e => do pure (.linear (← Stop.ofFault (← e.toExpr s).materialize))
  | .linear ids cs c => do
    pure (.linear (← Stop.ofFault (Linear.ofLists ids (cs.map MachineScalar.ofFloat) (MachineScalar.ofFloat c))))
  | .pairs ps => .ok (.linear ⟨ps.map fun p => (p.1, MachineScalar.ofFloat p.2), Scalar.zero⟩)
  | .build steps => do pure (.linear (← BuildStep.runAll s Linear.zero steps))
  | .xsum ids => .ok (.linear ⟨ids.map (·, Scalar.one), Scalar.zero⟩)
  | .xsumWith ps => .ok (.linear ⟨ps.map fun p => (p.1, MachineScalar.ofFloat p.2), Scalar.zero⟩)
  | .block b i => do
    let blk ← s.block b
    pure (.var (← Stop.ofFault (blk.access i)))
  | .blockSum b indices cs => do
    let blk ← s.block b
    pure (.blockSum blk (← blockItems indices cs))
  | .objective =>
    match s.objective with
    | some l => do pure (.linear (← Stop.ofFault l))
    | none => .error (.refused .objectiveOutsideModel)

/-- Adds the built forms to `acc`, left to right. -/
def ExprForm.addAll (s : Scope α) (acc : Expr α) : List ExprForm → Except Stop (Expr α)
  | [] => .ok acc
  | f :: rest => do
    let e ← f.toExpr s
    ExprForm.addAll s (.add acc e) rest

/-- Subtracts the built forms from `acc`, left to right. -/
def ExprForm.subAll (s : Scope α) (acc : Expr α) : List ExprForm → Except Stop (Expr α)
  | [] => .ok acc
  | f :: rest => do
    let e ← f.toExpr s
    ExprForm.subAll s (.sub acc e) rest

/-- Runs growth steps on a stored expression. -/
def BuildStep.runAll (s : Scope α) (acc : Linear α) : List BuildStep → Except Stop (Linear α)
  | [] => .ok acc
  | .push j c :: rest => BuildStep.runAll s (acc.push j (MachineScalar.ofFloat c)) rest
  | .extend f :: rest => do
    let e ← f.toExpr s
    let acc ← Stop.ofFault (acc.extend e)
    BuildStep.runAll s acc rest

end

end Build

end Milp
