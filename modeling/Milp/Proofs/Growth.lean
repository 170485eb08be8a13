import Milp.Proofs.SignedZero
import Milp.Proofs.Calls
import Milp.Proofs.Traversal
import Milp.Script.Form

/-!
# Stored expressions: copies and growth

A stored expression is built in one of three ways: as the stored copy of an expression, from a
list of pairs with constant zero, or grown from the empty expression by steps that append one term
or all terms of an expression (`Growth`). The copy holds the expression's terms and constant, so a
second copy changes nothing (`Expr.materialize_eq_ok_iff`, `Expr.materialize_linear`). Growth
appends the terms in step order and sums the constants from `+0`, left to right
(`Linear.growAll_eq_ok_iff`); it stops only where an extending expression's reading faults.

The lazy sum `((E₁ + E₂) + …) + Eₖ` of the same expressions reads the same terms, but it sums
the constants from `E₁`'s constant, not from `+0`. In IEEE arithmetic `+0 + c = c` unless `c` is
`-0`, so the two constants agree up to the sign of a zero (`Num.SameUpToZeroSign`), and that
relation survives the rest of the fold.

A request grows an expression through `BuildStep.runAll`, which builds each step's form as it
reaches it; it succeeds exactly when every form builds and growth by the built steps succeeds
(`BuildStep.runAll_eq_ok_iff`).
-/
namespace Milp

/-- One call that grows a stored expression: append one term, or append all terms of an expression
and add its constant. -/
inductive Growth (α : Type) where
  | push (id : Nat) (c : α)
  | extend (e : Expr α)

namespace Growth

variable {α : Type}

/-- The expression a step extends by, if it is an extension. -/
def extension : Growth α → Option (Expr α)
  | push _ _ => none
  | extend e => some e

/-- The expressions of the extensions among the steps, in step order. -/
def extensions (gs : List (Growth α)) : List (Expr α) := gs.filterMap extension

@[simp] theorem extension_push (j : Nat) (c : α) : (push j c).extension = none := rfl
@[simp] theorem extension_extend (e : Expr α) : (extend e).extension = some e := rfl
@[simp] theorem extensions_nil : extensions ([] : List (Growth α)) = [] := rfl
@[simp] theorem extensions_push (j : Nat) (c : α) (rest : List (Growth α)) :
    extensions (push j c :: rest) = extensions rest := rfl
@[simp] theorem extensions_extend (e : Expr α) (rest : List (Growth α)) :
    extensions (extend e :: rest) = e :: extensions rest := rfl

theorem extensions_map_extend (es : List (Expr α)) : extensions (es.map extend) = es := by
  induction es with
  | nil => rfl
  | cons e rest ih => simp [ih]

variable [Scalar α]

/-- The terms a step appends. -/
def items : Growth α → List (Nat × α)
  | push j c => [(j, c)]
  | extend e => e.terms.items

@[simp] theorem items_push (j : Nat) (c : α) : (push j c).items = [(j, c)] := rfl
@[simp] theorem items_extend (e : Expr α) : (extend e).items = e.terms.items := rfl

end Growth

namespace Linear

variable {α : Type} [Scalar α]

/-- One growth step. -/
def grow (l : Linear α) : Growth α → Except Fault (Linear α)
  | .push j c => .ok (l.push j c)
  | .extend e => l.extend e

/-- Growth by steps in order; the first fault ends it. -/
def growAll : Linear α → List (Growth α) → Except Fault (Linear α)
  | l, [] => .ok l
  | l, g :: rest => l.grow g >>= fun l' => growAll l' rest

end Linear

/-! ## Copies and single steps -/

section Steps

variable {α : Type} [Scalar α]

/-- Copying a stored expression gives it back: materializing is idempotent. -/
theorem Expr.materialize_linear (l : Linear α) : (Expr.linear l).materialize = .ok l := by
  rw [Expr.materialize_eq_ok_iff, Expr.terms_linear]
  exact ⟨rfl, rfl⟩

theorem Linear.grow_eq_ok_iff (l l' : Linear α) (g : Growth α) :
    l.grow g = .ok l' ↔ (∀ e ∈ g.extension, e.terms.fault = none) ∧
      l' = ⟨l.terms ++ g.items, ((g.extension.toList.map Expr.constant).foldl (· + ·) l.constant)⟩ := by
  cases g with
  | push j c => simp [Linear.grow, Linear.push, eq_comm]
  | extend e => simp [Linear.grow, Linear.extend_eq_ok_iff]

end Steps

/-! ## Runs of growth steps -/

section Runs

variable {α : Type} [Scalar α]

/-- Growth by steps appends each step's terms in order and adds the extensions' constants to the
start's, left to right; it succeeds exactly when no extension's reading faults. Induction on the
steps, from any start. -/
theorem Linear.growAll_eq_ok_iff (l l' : Linear α) (gs : List (Growth α)) :
    l.growAll gs = .ok l' ↔ (∀ e ∈ Growth.extensions gs, e.terms.fault = none) ∧
      l' = ⟨l.terms ++ gs.flatMap Growth.items,
        ((Growth.extensions gs).map Expr.constant).foldl (· + ·) l.constant⟩ := by
  induction gs generalizing l with
  | nil => simp [Linear.growAll, eq_comm]
  | cons g rest ih =>
    rw [Linear.growAll, bind_eq_ok]
    simp only [ih, Linear.grow_eq_ok_iff]
    cases g with
    | push j c => simp
    | extend e => simp [and_assoc]

/-! ## The lazy sum of the same expressions -/

/-- The constant of a lazy sum adds the operands' constants to the first one's, left to right. -/
theorem Expr.constant_foldl_add (first : Expr α) (rest : List (Expr α)) :
    (rest.foldl Expr.add first).constant = (rest.map Expr.constant).foldl (· + ·) first.constant := by
  induction rest generalizing first with
  | nil => rfl
  | cons e rest ih => exact ih (Expr.add first e)

/-- A lazy sum faults exactly when one of its operands does. -/
theorem Expr.fault_foldl_add (first : Expr α) (rest : List (Expr α)) :
    (rest.foldl Expr.add first).terms.fault = none ↔ ∀ e ∈ first :: rest, e.terms.fault = none := by
  induction rest generalizing first with
  | nil => simp
  | cons e rest ih =>
    rw [List.foldl_cons, ih, List.forall_mem_cons, Expr.terms_add, Reading.fault_append_eq_none]
    simp [and_assoc]

/-- A lazy sum whose operands read without a fault reads their terms one after the other. -/
theorem Expr.terms_foldl_add {first : Expr α} {rest : List (Expr α)}
    (whole : ∀ e ∈ first :: rest, e.terms.fault = none) :
    (rest.foldl Expr.add first).terms = ⟨(first :: rest).flatMap (·.terms.items), none⟩ := by
  induction rest generalizing first with
  | nil =>
    rw [List.foldl_nil, List.flatMap_singleton, ← whole first List.mem_cons_self]
  | cons e rest ih =>
    have joined : (Expr.add first e).terms = ⟨first.terms.items ++ e.terms.items, none⟩ := by
      rw [Expr.terms_add, Reading.append_of_fault_none (whole first List.mem_cons_self),
        whole e (by simp)]
    have later : ∀ x ∈ Expr.add first e :: rest, x.terms.fault = none := by
      rintro x (_ | ⟨_, member⟩)
      · rw [joined]
      · exact whole x (List.mem_cons_of_mem _ (List.mem_cons_of_mem _ member))
    rw [List.foldl_cons, ih later]
    simp only [List.flatMap_cons, joined, List.append_assoc]

end Runs

/-! ## Growth as a request writes it -/

section Requests

variable {α : Type} [MachineScalar α]

/-- The growth step a request's step names, its form built in the scope. -/
def BuildStep.resolve (s : Scope α) : BuildStep → Except Stop (Growth α)
  | .push j c => .ok (.push j (MachineScalar.ofFloat c))
  | .extend f => f.toExpr s >>= fun e => .ok (.extend e)

theorem Stop.ofFault_eq_ok {β : Type} (x : Except Fault β) (b : β) : Stop.ofFault x = .ok b ↔ x = .ok b := by
  cases x <;> simp [Stop.ofFault]

/-- One step of a request's growth: its form builds, and growth by the built step goes on. -/
theorem BuildStep.runAll_cons_eq_ok_iff (s : Scope α) (acc l : Linear α) (step : BuildStep)
    (rest : List BuildStep) : BuildStep.runAll s acc (step :: rest) = .ok l ↔
      ∃ g, step.resolve s = .ok g ∧ ∃ acc', acc.grow g = .ok acc' ∧ BuildStep.runAll s acc' rest = .ok l := by
  cases step with
  | push j c => simp [BuildStep.runAll, BuildStep.resolve, Linear.grow]
  | extend f =>
    simp only [BuildStep.runAll, BuildStep.resolve, bind_eq_ok, Stop.ofFault_eq_ok, Except.ok.injEq]
    constructor
    · rintro ⟨e, built, acc', grown, later⟩
      exact ⟨.extend e, ⟨e, built, rfl⟩, acc', grown, later⟩
    · rintro ⟨_, ⟨e, built, rfl⟩, acc', grown, later⟩
      exact ⟨e, built, acc', grown, later⟩

/-- A request's growth succeeds exactly when every step's form builds and growth by the built
steps succeeds, with the same result: induction on the steps, from any start. -/
theorem BuildStep.runAll_eq_ok_iff (s : Scope α) (acc l : Linear α) (steps : List BuildStep) :
    BuildStep.runAll s acc steps = .ok l ↔
      ∃ gs, steps.mapM (BuildStep.resolve s) = .ok gs ∧ acc.growAll gs = .ok l := by
  induction steps generalizing acc with
  | nil => simp [BuildStep.runAll, Linear.growAll, pure, Except.pure, eq_comm]
  | cons step rest ih =>
    simp only [BuildStep.runAll_cons_eq_ok_iff, ih, List.mapM_cons, bind_eq_ok, pure, Except.pure,
      Except.ok.injEq]
    constructor
    · rintro ⟨g, resolved, acc', grown, gs, mapped, later⟩
      exact ⟨g :: gs, ⟨g, resolved, gs, mapped, rfl⟩, bind_eq_ok.mpr ⟨acc', grown, later⟩⟩
    · rintro ⟨_, ⟨g, resolved, gs, mapped, rfl⟩, ran⟩
      obtain ⟨acc', grown, later⟩ := bind_eq_ok.mp ran
      exact ⟨g, resolved, acc', grown, gs, mapped, later⟩

end Requests

/-- Stored expressions hold the terms they are given, in order: a copy keeps its terms and constant,
growth appends the terms in step order and sums the constants from `+0`, and growth by extensions
agrees with their lazy sum up to the sign of a zero. -/
theorem stored_expressions_keep_terms_in_order {α : Type} [MachineScalar α] [BEq α] [Num.SignedZeros α] :
    (∀ (e : Expr α) (l : Linear α), e.materialize = .ok l ↔
      e.terms.fault = none ∧ l = ⟨e.terms.items, e.constant⟩) ∧
    (∀ l : Linear α, (Expr.linear l).materialize = .ok l) ∧
    (∀ (gs : List (Growth α)) (l : Linear α), Linear.zero.growAll gs = .ok l ↔
      (∀ e ∈ Growth.extensions gs, e.terms.fault = none) ∧
      l = ⟨gs.flatMap Growth.items, ((Growth.extensions gs).map Expr.constant).foldl (· + ·) Scalar.zero⟩) ∧
    (∀ (gs : List (Growth α)) (first : Expr α) (rest : List (Expr α)) (l : Linear α),
      Growth.extensions gs = first :: rest → Linear.zero.growAll gs = .ok l →
      Num.SameUpToZeroSign l.constant (rest.foldl Expr.add first).constant) ∧
    (∀ (first : Expr α) (rest : List (Expr α)),
      (∃ l, Linear.zero.growAll ((first :: rest).map Growth.extend) = .ok l) ↔
        (rest.foldl Expr.add first).terms.fault = none) ∧
    (∀ (first : Expr α) (rest : List (Expr α)) (l : Linear α),
      Linear.zero.growAll ((first :: rest).map Growth.extend) = .ok l →
        (Expr.linear l).terms = (rest.foldl Expr.add first).terms) ∧
    (∀ (s : Scope α) (steps : List BuildStep) (e : Expr α), ExprForm.toExpr s (.build steps) = .ok e ↔
      ∃ gs, steps.mapM (BuildStep.resolve s) = .ok gs ∧ ∃ l, Linear.zero.growAll gs = .ok l ∧ e = .linear l) ∧
    (∀ (s : Scope α) (ps : List (Nat × Float)), ∃ e, ExprForm.toExpr s (.pairs ps) = .ok e ∧
      e.terms = ⟨ps.map fun p => (p.1, MachineScalar.ofFloat p.2), none⟩ ∧ e.constant = Scalar.zero) ∧
    (∀ (s : Scope α) (ids : List Nat), ∃ e, ExprForm.toExpr s (.xsum ids) = .ok e ∧
      e.terms = ⟨ids.map (·, Scalar.one), none⟩ ∧ e.constant = Scalar.zero) ∧
    (∀ (s : Scope α) (ps : List (Nat × Float)), ∃ e, ExprForm.toExpr s (.xsumWith ps) = .ok e ∧
      e.terms = ⟨ps.map fun p => (p.1, MachineScalar.ofFloat p.2), none⟩ ∧ e.constant = Scalar.zero) := by
  have grown := fun gs l => Linear.growAll_eq_ok_iff (α := α) Linear.zero l gs
  refine ⟨Expr.materialize_eq_ok_iff, Expr.materialize_linear, fun gs l => ?grow, ?sign, ?fault, ?terms,
    ?request, fun s ps => ⟨_, rfl, Expr.terms_linear _, rfl⟩, fun s ids => ⟨_, rfl, Expr.terms_linear _, rfl⟩,
    fun s ps => ⟨_, rfl, Expr.terms_linear _, rfl⟩⟩
  case grow => simpa [Linear.zero] using grown gs l
  case sign =>
    intro gs first rest l listed ran
    obtain ⟨-, rfl⟩ := (grown gs l).mp ran
    -- growth starts from `+0`, the lazy sum from the first constant
    rw [listed, Expr.constant_foldl_add, List.map_cons, List.foldl_cons]
    exact (Num.sameUpToZeroSign_zero_add first.constant).foldl _
  case fault =>
    intro first rest
    rw [Expr.fault_foldl_add]
    constructor
    · rintro ⟨l, ran⟩
      simpa [Growth.extensions_map_extend] using ((grown _ l).mp ran).1
    · intro whole
      exact ⟨_, (grown _ _).mpr ⟨by simpa [Growth.extensions_map_extend] using whole, rfl⟩⟩
  case terms =>
    intro first rest l ran
    obtain ⟨whole, rfl⟩ := (grown _ l).mp ran
    rw [Growth.extensions_map_extend] at whole
    rw [Expr.terms_linear, Expr.terms_foldl_add whole, List.flatMap_map]
    simp [Linear.zero]
  case request =>
    intro s steps e
    rw [ExprForm.toExpr, bind_eq_ok]
    simp only [BuildStep.runAll_eq_ok_iff, pure, Except.pure, Except.ok.injEq]
    constructor
    · rintro ⟨l, ⟨gs, mapped, ran⟩, rfl⟩
      exact ⟨gs, mapped, l, ran, rfl⟩
    · rintro ⟨gs, mapped, l, ran, rfl⟩
      exact ⟨l, ⟨gs, mapped, ran⟩, rfl⟩

/-- Growth by the constant `-0`, the term `1·x₀` and the stored `2·x₁ - 0`: the terms in step order,
and the constant `(+0 + -0) + -0 = +0`, where the lazy sum `-0 + (2·x₁ - 0)` has constant `-0`. -/
theorem stored_expressions_keep_terms_in_order_example :
    ∃ l, Linear.zero.growAll [.extend (.const (-0)), .push 0 1, .extend (.linear ⟨[(1, 2)], -0⟩)] = .ok l ∧
      l.terms = [(0, 1), (1, 2)] ∧ l.constant = 0 ∧
      ([Expr.linear ⟨[(1, 2)], -0⟩].foldl Expr.add (.const (-0 : Float))).constant = -0 ∧
      Num.SameUpToZeroSign l.constant ([Expr.linear ⟨[(1, 2)], -0⟩].foldl Expr.add (.const (-0 : Float))).constant := by
  have ran : Linear.zero.growAll [.extend (.const (-0)), .push 0 1, .extend (.linear ⟨[(1, 2)], -0⟩)] =
      .ok (⟨[(0, 1), (1, 2)], 0⟩ : Linear Float) := by
    rfl
  exact ⟨_, ran, rfl, rfl, by rfl, stored_expressions_keep_terms_in_order.2.2.2.1 _ _ _ _ rfl ran⟩

end Milp
