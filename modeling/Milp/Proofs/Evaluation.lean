import Mathlib.Algebra.BigOperators.Ring.List
import Mathlib.Algebra.Ring.Rat
import Mathlib.Tactic.Ring
import Milp.Proofs.Refusals
import Milp.Proofs.Traversal

/-!
# Evaluating an expression in exact arithmetic

With rational scalars, the left fold that evaluates an expression term by term is its value by
recursion on the expression: a variable is its value, a scalar itself, and each combinator
combines the values of its operands. The two combinators that negate the terms of an operand but
add its constant keep that constant twice: `l - r` is worth `l - r + 2 r.c` and `c - e` is worth
`c - e + 2 e.c`. The proof splits the value of an expression read whole into its constant and its
linear part (`value_eq_constant_add_weigh`), one case per constructor, and the fold computes the
same sum. The model's evaluation and the stored copy of an expression give the same value.
-/
namespace Milp

/-- Exact rationals as the scalar of expressions; division by zero gives zero. -/
instance : Scalar ℚ where
  zero := 0
  one := 1
  recip q := q⁻¹

@[simp] theorem Scalar.zero_rat : (Scalar.zero : ℚ) = 0 := rfl

@[simp] theorem Scalar.one_rat : (Scalar.one : ℚ) = 1 := rfl

namespace Terms

/-- The linear part of a reading at `x`: `∑ c · x_j` over the terms read, in order. -/
def weigh (t : Terms ℚ) (x : ℕ → ℚ) : ℚ := (t.items.map fun p => p.2 * x p.1).sum

variable {t u : Terms ℚ} (x : ℕ → ℚ)

theorem weigh_append (whole : t.fault = none) : weigh (t.append u) x = t.weigh x + u.weigh x := by
  simp [Reading.append, whole, weigh]

theorem weigh_mapCoef_mul (c : ℚ) : (t.mapCoef (c * ·)).weigh x = c * t.weigh x := by
  simp only [weigh, mapCoef, List.map_map, Function.comp_def, mul_assoc]
  exact List.sum_map_mul_left ..

theorem weigh_mapCoef_neg : (t.mapCoef (- ·)).weigh x = -t.weigh x := by
  have scaled := weigh_mapCoef_mul x (t := t) (-1)
  simpa only [neg_one_mul] using scaled

end Terms

namespace Expr

/-- The value of an expression at `x`, by recursion on the expression. -/
def value (x : ℕ → ℚ) : Expr ℚ → ℚ
  | const c => c
  | var j => x j
  | linear l => l.constant + (l.terms.map fun p => p.2 * x p.1).sum
  | add l r => l.value x + r.value x
  | sub l r => l.value x - r.value x + 2 * r.constant
  | neg e => -e.value x
  | shift e c => e.value x + c
  | rsub c e => c - e.value x + 2 * e.constant
  | scale c e => c * e.value x
  | blockSum b items => (items.map fun p => p.2 * x (wordAdd b.first (b.offset p.1))).sum

/-- Read whole, a block sum looks up every logical index inside the block. -/
theorem weigh_blockSum (b : Block) (items : List (ℕ × ℚ)) (whole : (blockSum b items).terms.fault = none)
    (x : ℕ → ℚ) : (blockSum b items).terms.weigh x = (items.map fun p => p.2 * x (wordAdd b.first (b.offset p.1))).sum := by
  induction items with
  | nil => rfl
  | cons p rest ih =>
    obtain ⟨i, c⟩ := p
    rw [terms_blockSum_cons] at whole ⊢
    cases found : b.access i with
    | error f => simp [found] at whole
    | ok j =>
      simp only [found] at whole ⊢
      obtain ⟨-, rfl⟩ := Block.access_eq_ok.mp found
      have later := ih whole
      simp only [Terms.weigh] at later ⊢
      simp [later]

/-- An expression read whole is worth its constant plus its linear part: induction on the
expression, each combinator's terms appended or mapped as `terms_add` and its siblings say. -/
theorem value_eq_constant_add_weigh (x : ℕ → ℚ) (e : Expr ℚ) (whole : e.terms.fault = none) :
    e.value x = e.constant + e.terms.weigh x := by
  induction e with
  | const c => simp [value, constant, terms_eq, varIds, Terms.weigh]
  | var j => simp [value, constant, terms_eq, varIds, coefficients, Terms.weigh]
  | linear l => simp [value, constant, terms_linear, Terms.weigh]
  | add l r ihl ihr =>
    rw [terms_add, Reading.fault_append_eq_none] at whole
    rw [value, ihl whole.1, ihr whole.2, constant, terms_add, Terms.weigh_append x whole.1]
    ring
  | sub l r ihl ihr =>
    rw [terms_sub, Reading.fault_append_eq_none] at whole
    rw [value, ihl whole.1, ihr whole.2, constant, terms_sub, Terms.weigh_append x whole.1,
      Terms.weigh_mapCoef_neg]
    ring
  | neg e ih =>
    rw [terms_neg] at whole
    rw [value, ih whole, constant, terms_neg, Terms.weigh_mapCoef_neg]
    ring
  | shift e c ih =>
    -- the terms of `e + c` are those of `e`
    have same : (shift e c).terms = e.terms := rfl
    rw [same] at whole ⊢
    rw [value, ih whole, constant]
    ring
  | rsub c e ih =>
    rw [terms_rsub] at whole
    rw [value, ih whole, constant, terms_rsub, Terms.weigh_mapCoef_neg]
    ring
  | scale c e ih =>
    rw [terms_scale] at whole
    rw [value, ih whole, constant, terms_scale, Terms.weigh_mapCoef_mul]
    ring
  | blockSum b items => simp [value, constant, weigh_blockSum b items whole]

/-- With every id below the number of values, the fold adds `c · x_j` term by term. -/
theorem foldValues_eq (xs : Array ℚ) (a : ℚ) (ts : List (ℕ × ℚ)) (inside : ∀ p ∈ ts, p.1 < xs.size) :
    foldValues xs a ts = .ok (a + (ts.map fun p => p.2 * xs.getD p.1 0).sum) := by
  induction ts generalizing a with
  | nil => simp [foldValues]
  | cons p rest ih =>
    obtain ⟨j, c⟩ := p
    have head : j < xs.size := inside (j, c) (by simp)
    rw [foldValues, dif_pos head, ih _ fun q member => inside q (by simp [member])]
    simp [Array.getD, head, add_assoc]

/-- Evaluating an expression read whole, at a point holding all its ids, gives its value. -/
theorem evaluate_eq_value (e : Expr ℚ) {xs : Array ℚ} (whole : e.terms.fault = none)
    (inside : ∀ j ∈ e.terms.ids, j < xs.size) : e.evaluate xs = .ok (e.value (xs.getD · 0)) := by
  have folded := foldValues_eq xs e.constant e.terms.items fun p member => inside p.1 (List.mem_map_of_mem member)
  rw [value_eq_constant_add_weigh _ e whole]
  simp [evaluate, folded, whole, Terms.weigh]

/-- The stored copy of an expression evaluates as the expression, at every point. -/
theorem evaluate_of_materialize {e : Expr ℚ} {l : Linear ℚ} (stored : e.materialize = .ok l) (xs : Array ℚ) :
    (linear l).evaluate xs = e.evaluate xs := by
  have same := terms_of_materialize stored
  have constant : l.constant = e.constant := by
    cases broken : e.terms.fault with
    | some f => simp [materialize, Terms.toLinear, Terms.toExcept, broken] at stored
    | none =>
      simp only [materialize, Terms.toLinear, Terms.toExcept, broken, Except.ok.injEq] at stored
      rw [← stored]
  simp only [evaluate, same, Expr.constant, constant]

end Expr

/-- The model evaluates an expression only when it is read whole with every id inside a point of
one value per variable, and then to the expression's own evaluation there. -/
theorem Model.evaluate_eq_ok {α : Type} [Scalar α] {m : Model α} {e : Expr α} {xs : Array α} {v : α}
    {log : List Event} (answered : m.evaluate e xs = .ok ⟨.ok v, log⟩) :
    xs.size = m.nbVariables ∧ e.terms.firstOutside m.nbVariables = none ∧ e.terms.fault = none ∧
      e.evaluate xs = .ok v := by
  by_cases fits : xs.size = m.nbVariables
  case neg => simp [Model.evaluate, fits] at answered
  case pos =>
    cases inside : e.terms.firstOutside m.nbVariables with
    | some j => simp [Model.evaluate, fits, inside, reject, Step.reply] at answered
    | none =>
      cases whole : e.terms.fault with
      | some f => simp [Model.evaluate, fits, inside, whole] at answered
      | none =>
        cases value : e.evaluate xs with
        | error f => simp [Model.evaluate, fits, inside, whole, value] at answered
        | ok w =>
          simp [Model.evaluate, fits, inside, whole, value] at answered
          exact ⟨fits, rfl, rfl, by rw [answered.1]⟩

/-- With rational scalars, the model's evaluation of an expression, whenever it answers with a value,
answers with `value`, the expression's value by recursion on it; a stored copy evaluates as the
expression. -/
theorem evaluation_matches_recursive_value :
    (∀ (e : Expr ℚ) (xs : Array ℚ), e.terms.fault = none → (∀ j ∈ e.terms.ids, j < xs.size) →
      e.evaluate xs = .ok (e.value (xs.getD · 0))) ∧
    (∀ (e : Expr ℚ) (c : ℚ) (x : ℕ → ℚ), (e.divide c).value x = c⁻¹ * e.value x) ∧
    (∀ (m : Model ℚ) (e : Expr ℚ) (xs : Array ℚ) (v : ℚ) (log : List Event),
      m.evaluate e xs = .ok ⟨.ok v, log⟩ → v = e.value (xs.getD · 0)) ∧
    (∀ (e : Expr ℚ) (l : Linear ℚ) (xs : Array ℚ), e.materialize = .ok l →
      (Expr.linear l).evaluate xs = e.evaluate xs) := by
  refine ⟨?fold, ?divide, ?model, ?stored⟩
  case fold => exact fun e xs whole inside => e.evaluate_eq_value whole inside
  case divide => exact fun e c x => rfl
  case model =>
    intro m e xs v log answered
    obtain ⟨fits, inside, whole, value⟩ := Model.evaluate_eq_ok answered
    have below : ∀ j ∈ e.terms.ids, j < xs.size := by
      rw [fits]
      exact (e.terms.firstOutside_eq_none_iff m.nbVariables).mp inside
    rw [e.evaluate_eq_value whole below] at value
    exact (Except.ok.inj value).symm
  case stored => exact fun e l xs stored => Expr.evaluate_of_materialize stored xs

/-- `(x + 5) - (y + 2)` at `x = 1, y = 2` is worth `-1 + 7 = 6`, the constants adding up; the model
with two variables and the stored copy agree. -/
theorem evaluation_matches_recursive_value_example :
    let e : Expr ℚ := .sub (.shift (.var 0) 5) (.shift (.var 1) 2)
    let xs : Array ℚ := #[1, 2]
    let m : Model ℚ := ((Model.new.addVar ⟨0, 0, 1, .continuous⟩).2.1.addVar ⟨0, 0, 1, .continuous⟩).2.1
    e.evaluate xs = .ok 6 ∧ m.evaluate e xs = .ok ⟨.ok 6, []⟩ ∧
      ∃ l, e.materialize = .ok l ∧ (Expr.linear l).evaluate xs = .ok 6 := by
  intro e xs m
  have whole : e.terms.fault = none := rfl
  have inside : ∀ j ∈ e.terms.ids, j < xs.size := by decide
  have value : e.value (xs.getD · 0) = 6 := by
    simp [e, xs, Expr.value, Expr.constant]
    norm_num
  have folded : e.evaluate xs = .ok 6 := by
    rw [← value]
    exact evaluation_matches_recursive_value.1 e xs whole inside
  have fits : xs.size = m.nbVariables := rfl
  obtain ⟨y, answered⟩ := m.evaluate_of_inside e fits (by decide) whole
  have six : y = 6 := (evaluation_matches_recursive_value.2.2.1 m e xs y [] answered).trans value
  obtain ⟨l, stored⟩ : ∃ l, e.materialize = .ok l := ⟨_, rfl⟩
  refine ⟨folded, six ▸ answered, l, stored, ?_⟩
  rw [evaluation_matches_recursive_value.2.2.2 e l xs stored, folded]

end Milp
