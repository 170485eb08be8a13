import Milp.Expr.Basic

/-!
Bounded constraints `lower ≤ e ≤ upper`. Each side absorbs the expression's constant when it
is set, so a side set from `b` holds `b - e.c`; a side never set is infinite. Setting a side
again overwrites it, and nothing checks that `lower ≤ upper`.
-/
namespace Milp

/-- An expression with a lower and an upper side. -/
structure Constraint (α : Type) where
  expr : Expr α
  lower : α
  upper : α

/-- A bound as a constraint constructor takes it. -/
inductive Bound (α : Type) where
  | lessThan (upper : α)
  | greaterThan (lower : α)
  | equalTo (value : α)
  | inRange (lower upper : α)

/-- A later step of a bound chain: it sets one side or both. -/
inductive Side (α : Type) where
  | lessThan (upper : α)
  | greaterThan (lower : α)
  | equalTo (value : α)

/-- A bound with its numbers changed by `f`. -/
def Bound.map {α β : Type} (f : α → β) : Bound α → Bound β
  | .lessThan u => .lessThan (f u)
  | .greaterThan l => .greaterThan (f l)
  | .equalTo v => .equalTo (f v)
  | .inRange l u => .inRange (f l) (f u)

/-- A chain step with its number changed by `f`. -/
def Side.map {α β : Type} (f : α → β) : Side α → Side β
  | .lessThan u => .lessThan (f u)
  | .greaterThan l => .greaterThan (f l)
  | .equalTo v => .equalTo (f v)

namespace Constraint

variable {α : Type} [MachineScalar α]

/-- No side set: `-∞ ≤ e ≤ ∞`. -/
def unbounded (e : Expr α) : Constraint α := ⟨e, -MachineScalar.infinity, MachineScalar.infinity⟩

/-- Sets the upper side from `u`. -/
def lessThan (c : Constraint α) (u : α) : Constraint α := { c with upper := u - c.expr.constant }

/-- Sets the lower side from `l`. -/
def greaterThan (c : Constraint α) (l : α) : Constraint α := { c with lower := l - c.expr.constant }

/-- Sets both sides from `v`. -/
def equalTo (c : Constraint α) (v : α) : Constraint α := (c.greaterThan v).lessThan v

end Constraint

/-- The constraint an expression method makes, `e ≤ u`, `e ≥ l`, `e = v` or `l ≤ e ≤ u`: the
unbounded constraint with the lower side set before the upper one. -/
def Expr.bounded {α : Type} [MachineScalar α] (e : Expr α) : Bound α → Constraint α
  | .lessThan u => (Constraint.unbounded e).lessThan u
  | .greaterThan l => (Constraint.unbounded e).greaterThan l
  | .equalTo v => ((Constraint.unbounded e).greaterThan v).lessThan v
  | .inRange l u => ((Constraint.unbounded e).greaterThan l).lessThan u

namespace Constraint

variable {α : Type} [MachineScalar α]

/-- Applies a later step of a chain. -/
def side (c : Constraint α) : Side α → Constraint α
  | .lessThan u => c.lessThan u
  | .greaterThan l => c.greaterThan l
  | .equalTo v => c.equalTo v

/-- The constraint the free function makes of an expression and a bound. -/
def ofBound (e : Expr α) : Bound α → Constraint α
  | .lessThan u => (unbounded e).lessThan u
  | .greaterThan l => (unbounded e).greaterThan l
  | .equalTo v => (unbounded e).equalTo v
  | .inRange l u => ((unbounded e).greaterThan l).lessThan u

/-- A chain: a first bound applied as an expression method (none for an unbounded start), then
later steps in order. -/
def chain (e : Expr α) (first : Option (Bound α)) (steps : List (Side α)) : Constraint α :=
  steps.foldl side (match first with | some b => e.bounded b | none => unbounded e)

/-- The ids of a constraint are those of its expression. -/
def varIds (c : Constraint α) : Reading Nat := c.expr.varIds

/-- The coefficients of a constraint are those of its expression. -/
def coefficients (c : Constraint α) : List α := c.expr.coefficients

/-- The terms of a constraint: its ids and coefficients paired by position. -/
def terms (c : Constraint α) : Terms α := c.varIds.zipEq c.coefficients

end Constraint

end Milp
