import Mathlib.Algebra.Order.Ring.Rat
import Mathlib.Tactic.Linarith
import Milp.Proofs.ExactObjective

/-!
# The sides of a bounded constraint

A chain of bound steps sets each side of a constraint from the last step that names that side,
less the expression's constant, and leaves a side that no step names infinite; the expression is
never touched (`chain_edge`). The free function makes the same constraint as the expression methods.
Read exactly, the row that the model stores for such a constraint holds at a point exactly when
the expression's value there lies between the last values given to its sides: the sides absorbed
the constant, and the row keeps the expression's terms (`chain_row_holds_iff`).
-/
namespace Milp

variable {α : Type}

/-- One of the two sides of a constraint. -/
inductive Edge where
  | lower
  | upper

/-- The value a bound gives a side, if it names it. -/
def Bound.sets : Bound α → Edge → Option α
  | .lessThan _, .lower => none
  | .lessThan u, .upper => some u
  | .greaterThan l, .lower => some l
  | .greaterThan _, .upper => none
  | .equalTo v, _ => some v
  | .inRange l _, .lower => some l
  | .inRange _ u, .upper => some u

/-- A later step of a chain as the bound it states. -/
def Side.toBound : Side α → Bound α
  | .lessThan u => .lessThan u
  | .greaterThan l => .greaterThan l
  | .equalTo v => .equalTo v

/-- The value that the last step of a chain naming side `w` gave it: the later steps from the
last, then the first bound. -/
def lastSet (first : Option (Bound α)) (steps : List (Side α)) (w : Edge) : Option α :=
  ((steps.reverse.map Side.toBound).findSome? (·.sets w)).or (first.bind (·.sets w))

/-- The side of the unbounded constraint: `-∞` below, `∞` above. -/
def Edge.unbounded [MachineScalar α] : Edge → α
  | .lower => -MachineScalar.infinity
  | .upper => MachineScalar.infinity

namespace Constraint

variable [MachineScalar α]

/-- A side of a constraint. -/
def edge (c : Constraint α) : Edge → α
  | .lower => c.lower
  | .upper => c.upper

@[simp] theorem side_expr (c : Constraint α) (s : Side α) : (c.side s).expr = c.expr := by
  cases s <;> rfl

/-- A step sets the sides it names from its value less the constant, and keeps the other. -/
theorem side_edge (c : Constraint α) (s : Side α) (w : Edge) :
    (c.side s).edge w = (s.toBound.sets w).elim (c.edge w) (· - c.expr.constant) := by
  cases s <;> cases w <;> rfl

theorem foldl_side_expr (c : Constraint α) (steps : List (Side α)) : (steps.foldl side c).expr = c.expr := by
  induction steps generalizing c with
  | nil => rfl
  | cons s rest ih => rw [List.foldl_cons, ih, side_expr]

/-- Along later steps a side ends at the value of the last step naming it, less the constant, or
where it started if none does: induction on the steps, whose last is found first in the reversed
list. -/
theorem foldl_side_edge (c : Constraint α) (steps : List (Side α)) (w : Edge) :
    (steps.foldl side c).edge w =
      ((steps.reverse.map Side.toBound).findSome? (·.sets w)).elim (c.edge w) (· - c.expr.constant) := by
  induction steps generalizing c with
  | nil => rfl
  | cons s rest ih =>
    rw [List.foldl_cons, ih, side_expr, List.reverse_cons, List.map_append, List.findSome?_append]
    cases (rest.reverse.map Side.toBound).findSome? (·.sets w) with
    | some v => rfl
    | none => simp [side_edge]

/-- The constraint a chain starts from. -/
def start (e : Expr α) : Option (Bound α) → Constraint α
  | some b => e.bounded b
  | none => unbounded e

theorem chain_eq (e : Expr α) (first : Option (Bound α)) (steps : List (Side α)) :
    chain e first steps = steps.foldl side (start e first) := by
  cases first <;> rfl

@[simp] theorem start_expr (e : Expr α) (first : Option (Bound α)) : (start e first).expr = e := by
  cases first with
  | none => rfl
  | some b => cases b <;> rfl

theorem start_edge (e : Expr α) (first : Option (Bound α)) (w : Edge) :
    (start e first).edge w = (first.bind (·.sets w)).elim w.unbounded (· - e.constant) := by
  cases first with
  | none => cases w <;> rfl
  | some b => cases b <;> cases w <;> rfl

theorem chain_expr (e : Expr α) (first : Option (Bound α)) (steps : List (Side α)) :
    (chain e first steps).expr = e := by
  rw [chain_eq, foldl_side_expr, start_expr]

/-- Each side of a chain is the last value given to it less the constant, or infinite if no step
gave it one. -/
theorem chain_edge (e : Expr α) (first : Option (Bound α)) (steps : List (Side α)) (w : Edge) :
    (chain e first steps).edge w = (lastSet first steps w).elim w.unbounded (· - e.constant) := by
  rw [chain_eq, foldl_side_edge, start_expr, start_edge, lastSet]
  cases (steps.reverse.map Side.toBound).findSome? (·.sets w) <;> rfl

theorem chain_terms (e : Expr α) (first : Option (Bound α)) (steps : List (Side α)) :
    (chain e first steps).terms = e.terms := by
  simp only [terms, varIds, coefficients, chain_expr, Expr.terms]

/-- The free function makes the constraint of the matching expression method. -/
theorem ofBound_eq_bounded (e : Expr α) (b : Bound α) : ofBound e b = e.bounded b := by
  cases b <;> rfl

end Constraint

/-! ## Rows read exactly -/

namespace Num.Exact

@[simp] theorem finite_sub (p q : ℚ) : finite p - finite q = finite (p - q) := rfl

@[simp] theorem finite_inj {p q : ℚ} : finite p = finite q ↔ p = q := by
  constructor
  · intro same
    injection same with same
    exact Option.some.inj same
  · rintro rfl
    rfl

@[simp] theorem infinity_eq : (MachineScalar.infinity : Exact) = notFinite := rfl

@[simp] theorem neg_notFinite : -notFinite = notFinite := rfl

@[simp] theorem notFinite_ne_finite (q : ℚ) : notFinite ≠ finite q := by
  intro same
  injection same with same
  cases same

end Num.Exact

open Milp.Num (Exact)

/-- A row read exactly holds at `x` when `∑ c · x_j` over its entries lies between its sides; a side
that is not finite stands for an infinite one and bounds nothing. -/
def ConstraintView.Satisfied (v : ConstraintView Exact) (x : ℕ → ℚ) : Prop :=
  let s := (v.terms.map fun p => p.2.val * x p.1).sum
  (∀ l, v.lower = .finite l → l ≤ s) ∧ (∀ u, v.upper = .finite u → s ≤ u)

theorem Bound.sets_map (f : α → Exact) (b : Bound α) (w : Edge) : (b.map f).sets w = (b.sets w).map f := by
  cases b <;> cases w <;> rfl

theorem Side.toBound_map (f : α → Exact) (s : Side α) : (s.map f).toBound = s.toBound.map f := by
  cases s <;> rfl

/-- Read exactly from rational steps, the value a side was last given is the rational one. -/
theorem lastSet_map (first : Option (Bound ℚ)) (steps : List (Side ℚ)) (w : Edge) :
    lastSet (first.map (·.map Exact.finite)) (steps.map (·.map Exact.finite)) w =
      (lastSet first steps w).map Exact.finite := by
  have found : ∀ l : List (Bound ℚ), (l.map (·.map Exact.finite)).findSome? (·.sets w) =
      (l.findSome? (·.sets w)).map Exact.finite := by
    intro l
    induction l with
    | nil => rfl
    | cons b rest ih =>
      simp only [List.map_cons, List.findSome?_cons, Bound.sets_map]
      cases b.sets w <;> simp [ih]
  have bounds : (steps.map (·.map Exact.finite)).reverse.map Side.toBound =
      (steps.reverse.map Side.toBound).map (·.map Exact.finite) := by
    simp [List.map_reverse, Side.toBound_map]
  simp only [lastSet, bounds, found]
  cases first <;> cases (steps.reverse.map Side.toBound).findSome? (·.sets w) <;> simp [Bound.sets_map]

namespace Model

variable [MachineScalar α]

/-- An accepted constraint was read whole, every id inside the model. -/
theorem tryAddConstraint_accepted {m : Model α} {c : Constraint α} {st : Step α Nat} {id : Nat}
    (entries : m.aCof.size = m.aSubj.size) (added : m.tryAddConstraint c = .ok st) (accepted : st.result = .ok id) :
    c.terms.firstOutside m.nbVariables = none ∧ c.terms.fault = none := by
  cases outside : c.terms.firstOutside m.nbVariables with
  | some j =>
    rw [tryAddConstraint_of_outside m c entries outside] at added
    cases added
    simp at accepted
  | none =>
    cases broken : c.terms.fault with
    | some f => simp [tryAddConstraint_of_fault m c outside broken] at added
    | none => exact ⟨rfl, rfl⟩

end Model

/-- The activity of a finite expression's terms at `x` is its exact value less its constant. -/
theorem Expr.Finite.activity {e : Expr Exact} (finite : e.Finite) {k : ℚ} (constant : e.constant = .finite k)
    (x : ℕ → ℚ) : (e.terms.items.map fun p => p.2.val * x p.1).sum = e.exactValue x - k := by
  obtain ⟨ts, items⟩ := finite.terms
  rw [Expr.exactValue_eq items constant x, items, List.map_map]
  simp [Function.comp_def]

/-- A lower side holding the last value `l*` given to it less the constant `k` bounds the activity
`v - k` exactly as `l*` bounds `v`; a side never given a value bounds nothing. -/
theorem lower_bounds_iff (last : Option ℚ) (k v : ℚ) :
    (∀ l, (last.map Exact.finite).elim (-MachineScalar.infinity) (· - .finite k) = .finite l → l ≤ v - k) ↔
      ∀ l ∈ last, l ≤ v := by
  cases last with
  | none => simp
  | some l =>
    simp only [Option.map_some, Option.elim_some, Num.Exact.finite_sub, Num.Exact.finite_inj,
      forall_eq', Option.mem_def, Option.some.injEq]
    constructor <;> intro below <;> linarith

theorem upper_bounds_iff (last : Option ℚ) (k v : ℚ) :
    (∀ u, (last.map Exact.finite).elim MachineScalar.infinity (· - .finite k) = .finite u → v - k ≤ u) ↔
      ∀ u ∈ last, v ≤ u := by
  cases last with
  | none => simp
  | some u =>
    simp only [Option.map_some, Option.elim_some, Num.Exact.finite_sub, Num.Exact.finite_inj,
      forall_eq', Option.mem_def, Option.some.injEq]
    constructor <;> intro above <;> linarith

@[simp] theorem Row.viewAt_lower (r : Row α) (i : ℕ) : (r.viewAt i).lower = r.lower := rfl

@[simp] theorem Row.viewAt_upper (r : Row α) (i : ℕ) : (r.viewAt i).upper = r.upper := rfl

/-- The row a model holding `R ++ [r]` shows last is `r`. -/
theorem Model.Holds.tryConstraint_last {m : Model α} {R : List (Row α)} {r : Row α} (holds : m.Holds (R ++ [r])) :
    m.tryConstraint R.length = .ok (.ok (r.viewAt R.length)) := by
  have last := holds.tryConstraint (show R.length < (R ++ [r]).length by simp)
  rwa [List.getElem_append_right (Nat.le_refl _), List.getElem_singleton] at last

/-- Read exactly, the row stored for a chain of rational steps over a finite expression holds at
`x` exactly when the expression's value there lies between the last values given to its sides. -/
theorem chain_row_holds_iff {m : Model Exact} (reach : m.Reachable) {e : Expr Exact} (finite : e.Finite)
    (first : Option (Bound ℚ)) (steps : List (Side ℚ)) {st : Step Exact Nat} {id : Nat}
    (added : m.tryAddConstraint (Constraint.chain e (first.map (·.map .finite)) (steps.map (·.map .finite))) = .ok st)
    (accepted : st.result = .ok id) :
    ∃ view, st.model.tryConstraint id = .ok (.ok view) ∧ ∀ x : ℕ → ℚ,
      ∃ v, e.evaluate (Array.ofFn fun j : Fin st.model.nbVariables => Exact.finite (x j)) = .ok (.finite v) ∧
        (view.Satisfied x ↔ (∀ l ∈ lastSet first steps .lower, l ≤ v) ∧ (∀ u ∈ lastSet first steps .upper, v ≤ u)) := by
  obtain ⟨R, stored⟩ := reach.stored
  let c := Constraint.chain e (first.map (·.map .finite)) (steps.map (·.map .finite))
  obtain ⟨inside, whole⟩ := Model.tryAddConstraint_accepted stored.entries added accepted
  rw [Model.tryAddConstraint_of_inside m c inside whole] at added
  cases added
  cases accepted
  -- the row goes last, with the expression's terms and the chain's two sides
  have holds := stored.toHolds.withRow c.terms.items c.lower c.upper
  rw [stored.nbConstraints]
  refine ⟨_, holds.tryConstraint_last, fun x => ?_⟩
  have terms : c.terms = e.terms := Constraint.chain_terms ..
  obtain ⟨k, constant⟩ := finite.2
  have point : ∀ (j : ℕ) (inside : j < (Array.ofFn fun j : Fin m.nbVariables => Exact.finite (x j)).size),
      (Array.ofFn fun j : Fin m.nbVariables => Exact.finite (x j))[j] = .finite (x j) := by
    intro j inside
    simp
  have ids : ∀ j ∈ e.terms.ids, j < (Array.ofFn fun j : Fin m.nbVariables => Exact.finite (x j)).size := by
    rw [← terms, Array.size_ofFn]
    exact (c.terms.firstOutside_eq_none_iff _).mp inside
  refine ⟨e.exactValue x, finite.evaluate (terms ▸ whole) point ids, ?_⟩
  have activity := finite.activity constant x
  have lower : c.lower = ((lastSet first steps .lower).map Exact.finite).elim (-MachineScalar.infinity) (· - .finite k) := by
    rw [← lastSet_map, ← constant]
    exact Constraint.chain_edge e _ _ .lower
  have upper : c.upper = ((lastSet first steps .upper).map Exact.finite).elim MachineScalar.infinity (· - .finite k) := by
    rw [← lastSet_map, ← constant]
    exact Constraint.chain_edge e _ _ .upper
  simp only [ConstraintView.Satisfied, Row.viewAt_terms, Row.viewAt_lower, Row.viewAt_upper, terms, activity,
    lower, upper]
  exact and_congr (lower_bounds_iff _ k _) (upper_bounds_iff _ k _)

/-- A chain of bound steps keeps the expression's terms and sets each side from the last step that
names it, less the expression's constant. Read exactly, the stored row holds at a point exactly
when the expression's value there lies between the last values given to the sides. -/
theorem constraint_sides_from_last_step :
    (∀ {α : Type} [MachineScalar α] (e : Expr α) (first : Option (Bound α)) (steps : List (Side α)),
      (Constraint.chain e first steps).terms = e.terms ∧
      (Constraint.chain e first steps).upper =
        (lastSet first steps .upper).elim MachineScalar.infinity (· - e.constant) ∧
      (Constraint.chain e first steps).lower =
        (lastSet first steps .lower).elim (-MachineScalar.infinity) (· - e.constant) ∧
      ∀ b, Constraint.ofBound e b = Constraint.chain e (some b) []) ∧
    (∀ (m : Model Exact), m.Reachable → ∀ (e : Expr Exact), e.Finite →
      ∀ (first : Option (Bound ℚ)) (steps : List (Side ℚ)) (st : Step Exact Nat) (id : ℕ),
      m.tryAddConstraint (Constraint.chain e (first.map (·.map .finite)) (steps.map (·.map .finite))) = .ok st →
      st.result = .ok id →
      ∃ view, st.model.tryConstraint id = .ok (.ok view) ∧ ∀ x : ℕ → ℚ,
        ∃ v, e.evaluate (Array.ofFn fun j : Fin st.model.nbVariables => Exact.finite (x j)) = .ok (.finite v) ∧
          (view.Satisfied x ↔ (∀ l ∈ lastSet first steps .lower, l ≤ v) ∧ (∀ u ∈ lastSet first steps .upper, v ≤ u))) := by
  refine ⟨fun e first steps => ⟨?_, ?_, ?_, ?_⟩, ?_⟩
  · exact Constraint.chain_terms e first steps
  · exact Constraint.chain_edge e first steps .upper
  · exact Constraint.chain_edge e first steps .lower
  · exact fun b => Constraint.ofBound_eq_bounded e b
  · intro m reach e finite first steps st id added accepted
    exact chain_row_holds_iff reach finite first steps added accepted

/-- `(x + 5) - (y + 2) ≤ 10`, then `≥ 1`, added to a model of two variables read exactly: the row
is accepted and holds exactly where `1 ≤ x - y + 7 ≤ 10`. -/
theorem constraint_sides_from_last_step_example :
    let o : VarOptions Exact := ⟨.finite 0, .finite 0, .finite 1, .continuous⟩
    let m : Model Exact := ((Model.new.addVar o).2.1.addVar o).2.1
    let e : Expr Exact := .sub (.shift (.var 0) (.finite 5)) (.shift (.var 1) (.finite 2))
    let first : Option (Bound ℚ) := some (.lessThan 10)
    let steps : List (Side ℚ) := [.greaterThan 1]
    m.Reachable ∧ e.Finite ∧ ∃ st,
      m.tryAddConstraint (Constraint.chain e (first.map (·.map .finite)) (steps.map (·.map .finite))) = .ok st ∧
      st.result = .ok 0 ∧ ∃ view, st.model.tryConstraint 0 = .ok (.ok view) ∧ ∀ x : ℕ → ℚ,
        ∃ v, e.evaluate (Array.ofFn fun j : Fin st.model.nbVariables => Exact.finite (x j)) = .ok (.finite v) ∧
          (view.Satisfied x ↔ 1 ≤ v ∧ v ≤ 10) := by
  intro o m e first steps
  have reach : m.Reachable := ⟨[.addVar o, .addVar o], rfl⟩
  have finite : e.Finite := by
    have items : e.terms.items = [(0, .finite 1), (1, .finite (-1))] := rfl
    refine ⟨fun p found => ?_, (0 + 5) + (0 + 2), rfl⟩
    rw [items, List.mem_pair] at found
    rcases found with rfl | rfl
    · exact ⟨1, rfl⟩
    · exact ⟨-1, rfl⟩
  let c := Constraint.chain e (first.map (·.map .finite)) (steps.map (·.map .finite))
  have added := Model.tryAddConstraint_of_inside m c rfl rfl
  refine ⟨reach, finite, _, added, rfl, ?_⟩
  obtain ⟨view, shown, holds⟩ := constraint_sides_from_last_step.2 m reach e finite first steps _ 0 added rfl
  refine ⟨view, shown, fun x => ?_⟩
  obtain ⟨v, value, iff⟩ := holds x
  refine ⟨v, value, ?_⟩
  rw [iff]
  simp [first, steps, lastSet, Side.toBound, Bound.sets]

end Milp
