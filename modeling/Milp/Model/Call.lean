import Milp.Model.Basic

/-!
Runs of a model. A run is a sequence of calls that may change the model, each on the model the
previous one left; a refused call ends normally and the run goes on, a fault ends it. Calls that
only read a model (the attribute getters, `evaluate`, the row and objective views, building a
solver) return no model: they leave it as it is, so they are not steps of a run.
-/
namespace Milp

/-- A call that may change a model. -/
inductive Call (α : Type) where
  | addVar (o : VarOptions α)
  | addVars (count : Nat) (table : Array Nat)
  | addObj (e : Expr α)
  | addConstraint (c : Constraint α)
  | set (a : AttributeValue α) (v : Variable)
  | setSense (s : Sense)

namespace Model

variable {α : Type} [MachineScalar α]

/-- The model after a call, or the fault that ended it. -/
def exec (m : Model α) : Call α → Except Fault (Model α)
  | .addVar o => .ok (m.addVar o).2.1
  | .addVars count table => (·.2.1) <$> m.tryAddVars count table
  | .addObj e => Step.model <$> m.tryAddObj e
  | .addConstraint c => Step.model <$> m.tryAddConstraint c
  | .set a v => Step.model <$> m.trySet a v
  | .setSense s => .ok (m.setSense s).1

/-- The model after a run of calls, or the fault that ended it. -/
def run (m : Model α) : List (Call α) → Except Fault (Model α)
  | [] => .ok m
  | c :: rest =>
    match m.exec c with
    | .ok m' => m'.run rest
    | .error f => .error f

/-- A model that some run from the empty model ends in. -/
def Reachable (m : Model α) : Prop := ∃ calls, Model.new.run calls = .ok m

end Model

end Milp
