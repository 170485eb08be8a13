import Milp.Proofs.WellFormed

/-!
# Refused calls

Every call that takes a variable id checks it against the number of variables `n`. Adding to the
objective and evaluating read all ids of the expression before they do anything, and adding a
constraint appends entries while it reads them; all three stop at the same id, the first one in
the expression's traversal order that is not below `n`, and refuse it with one warning. Evaluating
checks the length of the point before any id, and refuses a wrong one without an event. A getter or
a setter refuses exactly the ids not below `n`, and a row id is refused exactly when it is not below
the number of rows. A refused call leaves the model as it was: on a reachable model the entry
vectors have one length, so cutting them back to where they were restores them exactly.
-/
namespace Milp

namespace Terms

variable {α : Type}

/-- Some id is outside the model exactly when there is a first one. -/
theorem exists_firstOutside {t : Terms α} {n : Nat} (outside : ∃ j ∈ t.ids, n ≤ j) :
    ∃ j, t.firstOutside n = some j := by
  cases found : t.firstOutside n with
  | none =>
    obtain ⟨j, member, far⟩ := outside
    have near := (firstOutside_eq_none_iff t n).mp found j member
    omega
  | some j => exact ⟨j, rfl⟩

end Terms

namespace Expr

variable {α : Type} [Scalar α]

/-- With every id below the number of values, the left fold over the terms ends normally. -/
theorem foldValues_of_inside (xs : Array α) (acc : α) (ts : List (Nat × α)) (inside : ∀ p ∈ ts, p.1 < xs.size) :
    ∃ v, foldValues xs acc ts = .ok v := by
  induction ts generalizing acc with
  | nil => exact ⟨acc, rfl⟩
  | cons p rest ih =>
    obtain ⟨j, c⟩ := p
    have head : j < xs.size := inside (j, c) (by simp)
    rw [foldValues, dif_pos head]
    exact ih _ fun q member => inside q (by simp [member])

/-- An expression read without a fault, with every id below the number of values, has a value. -/
theorem evaluate_of_inside {e : Expr α} {xs : Array α} (whole : e.terms.fault = none)
    (inside : ∀ j ∈ e.terms.ids, j < xs.size) : ∃ v, e.evaluate xs = .ok v := by
  obtain ⟨v, folded⟩ :=
    foldValues_of_inside xs e.constant e.terms.items fun p member => inside p.1 (List.mem_map_of_mem member)
  exact ⟨v, by simp [evaluate, folded, whole]⟩

end Expr

namespace Model

variable {α : Type} [Scalar α]

/-- A point of the wrong length is refused before any id is read, and logs nothing. -/
theorem evaluate_of_mismatch (m : Model α) (e : Expr α) {xs : Array α} (mismatch : xs.size ≠ m.nbVariables) :
    m.evaluate e xs = .ok ⟨.error (.solutionLengthMismatch m.nbVariables xs.size), []⟩ := by
  simp [evaluate, mismatch]

theorem evaluate_of_outside (m : Model α) (e : Expr α) {xs : Array α} (fits : xs.size = m.nbVariables) {j : Nat}
    (outside : e.terms.firstOutside m.nbVariables = some j) : m.evaluate e xs = .ok (m.reject "evaluate" j).reply := by
  simp [evaluate, fits, outside]

theorem evaluate_of_inside (m : Model α) (e : Expr α) {xs : Array α} (fits : xs.size = m.nbVariables)
    (inside : e.terms.firstOutside m.nbVariables = none) (whole : e.terms.fault = none) :
    ∃ y, m.evaluate e xs = .ok ⟨.ok y, []⟩ := by
  have below : ∀ j ∈ e.terms.ids, j < xs.size := by
    rw [fits]
    exact (e.terms.firstOutside_eq_none_iff m.nbVariables).mp inside
  obtain ⟨y, value⟩ := e.evaluate_of_inside whole below
  exact ⟨y, by simp [evaluate, fits, inside, whole, value]⟩

end Model

/-- On a reachable model with `n` variables, every check of a variable id refuses exactly the ids not
below `n`, naming the first in traversal order with one warning, and every refused call leaves the
model as it was. -/
theorem refusals_report_first_outside_id {α : Type} [MachineScalar α] {m : Model α} (reach : m.Reachable)
    (e : Expr α) (lower upper : α) (xs : Array α) (a : Attribute) (x : AttributeValue α) (v : Variable)
    (i : Nat) :
    let n := m.nbVariables
    ((∃ j ∈ e.terms.ids, n ≤ j) →
      ∃ j, (n ≤ j ∧ ∃ pre post, e.terms.ids = pre ++ j :: post ∧ ∀ k ∈ pre, k < n) ∧
        m.tryAddObj e = .ok ⟨.error (.invalidVariableId j n), m, [.rejectedVariable "add_obj" j n]⟩ ∧
        m.tryAddConstraint ⟨e, lower, upper⟩ =
          .ok ⟨.error (.invalidVariableId j n), m, [.rejectedVariable "add_constraint" j n]⟩ ∧
        (xs.size = n →
          m.evaluate e xs = .ok ⟨.error (.invalidVariableId j n), [.rejectedVariable "evaluate" j n]⟩)) ∧
    ((∀ j ∈ e.terms.ids, j < n) → e.terms.fault = none →
      (∃ st, m.tryAddObj e = .ok st ∧ st.result = .ok ()) ∧
      (∃ st, m.tryAddConstraint ⟨e, lower, upper⟩ = .ok st ∧ st.result = .ok m.nbConstraints) ∧
      (xs.size = n → ∃ y, m.evaluate e xs = .ok ⟨.ok y, []⟩)) ∧
    (xs.size ≠ n → m.evaluate e xs = .ok ⟨.error (.solutionLengthMismatch n xs.size), []⟩) ∧
    (n ≤ v.id →
      m.tryGet a v = .ok ⟨.error (.invalidVariableId v.id n), [.rejectedVariable a.reader v.id n]⟩ ∧
      m.trySet x v = .ok ⟨.error (.invalidVariableId v.id n), m, [.rejectedVariable x.attribute.writer v.id n]⟩) ∧
    (v.id < n → (∃ y, m.tryGet a v = .ok ⟨.ok y, []⟩) ∧ ∃ m', m.trySet x v = .ok ⟨.ok (), m', []⟩) ∧
    (m.nbConstraints ≤ i → m.tryConstraint i = .ok (.error (.invalidConstraintId i m.nbConstraints))) ∧
    (i < m.nbConstraints → ∃ w, m.tryConstraint i = .ok (.ok w)) := by
  intro n
  obtain ⟨R, stored⟩ := reach.stored
  refine ⟨?outside, ?inside, fun mismatch => m.evaluate_of_mismatch e mismatch, ?getOutside, ?getInside,
    ?rowOutside, fun below => stored.tryConstraint_ok below⟩
  case outside =>
    -- all three checks stop at the same first id outside
    intro far
    obtain ⟨j, first⟩ := Terms.exists_firstOutside far
    refine ⟨j, (e.terms.firstOutside_eq_some_iff n j).mp first, ?_, ?_, ?_⟩
    · exact m.tryAddObj_of_outside e first
    · exact m.tryAddConstraint_of_outside ⟨e, lower, upper⟩ stored.entries first
    · intro fits
      exact m.evaluate_of_outside e fits first
  case inside =>
    intro near whole
    have none : e.terms.firstOutside n = none := (e.terms.firstOutside_eq_none_iff n).mpr near
    refine ⟨⟨_, m.tryAddObj_of_inside e none whole, rfl⟩,
      ⟨_, m.tryAddConstraint_of_inside ⟨e, lower, upper⟩ none whole, rfl⟩, ?_⟩
    intro fits
    exact m.evaluate_of_inside e fits none whole
  case getOutside =>
    intro far
    exact ⟨m.tryGet_of_ge far a, m.trySet_of_ge far x⟩
  case getInside =>
    intro below
    obtain ⟨y, -, got⟩ := Model.tryGet_of_lt stored.toAligned below a
    exact ⟨⟨y, got⟩, _, Model.trySet_of_lt stored.toAligned below x⟩
  case rowOutside =>
    intro far
    rw [stored.nbConstraints] at far ⊢
    exact stored.tryConstraint_of_ge far

/-- Two variables and one row; an expression whose second id is the first outside the model, a
point of the right length, the bounds of the variable with id `3`, and row `1`, past the rows: the
run ends, and the theorem applies to the model it ends in. -/
theorem refusals_report_first_outside_id_example :
    let calls : List (Call Float) := [.addVar .default, .addVars 1 #[0], .addConstraint ⟨.var 0, 0, 1⟩]
    ∃ m, Model.new.run calls = .ok m ∧
      let e : Expr Float := .add (.var 1) (.add (.var 3) (.var 5))
      let xs : Array Float := #[1, 2]
      let v : Variable := ⟨3⟩
      let n := m.nbVariables
      ((∃ j ∈ e.terms.ids, n ≤ j) →
        ∃ j, (n ≤ j ∧ ∃ pre post, e.terms.ids = pre ++ j :: post ∧ ∀ k ∈ pre, k < n) ∧
          m.tryAddObj e = .ok ⟨.error (.invalidVariableId j n), m, [.rejectedVariable "add_obj" j n]⟩ ∧
          m.tryAddConstraint ⟨e, 0, 1⟩ =
            .ok ⟨.error (.invalidVariableId j n), m, [.rejectedVariable "add_constraint" j n]⟩ ∧
          (xs.size = n →
            m.evaluate e xs = .ok ⟨.error (.invalidVariableId j n), [.rejectedVariable "evaluate" j n]⟩)) ∧
      ((∀ j ∈ e.terms.ids, j < n) → e.terms.fault = none →
        (∃ st, m.tryAddObj e = .ok st ∧ st.result = .ok ()) ∧
        (∃ st, m.tryAddConstraint ⟨e, 0, 1⟩ = .ok st ∧ st.result = .ok m.nbConstraints) ∧
        (xs.size = n → ∃ y, m.evaluate e xs = .ok ⟨.ok y, []⟩)) ∧
      (xs.size ≠ n → m.evaluate e xs = .ok ⟨.error (.solutionLengthMismatch n xs.size), []⟩) ∧
      (n ≤ v.id →
        m.tryGet .lowerBound v = .ok ⟨.error (.invalidVariableId v.id n), [.rejectedVariable "lower_bound" v.id n]⟩ ∧
        m.trySet (.upperBound 4) v =
          .ok ⟨.error (.invalidVariableId v.id n), m, [.rejectedVariable "set_upper_bound" v.id n]⟩) ∧
      (v.id < n → (∃ y, m.tryGet .lowerBound v = .ok ⟨.ok y, []⟩) ∧
        ∃ m', m.trySet (.upperBound 4) v = .ok ⟨.ok (), m', []⟩) ∧
      (m.nbConstraints ≤ 1 → m.tryConstraint 1 = .ok (.error (.invalidConstraintId 1 m.nbConstraints))) ∧
      (1 < m.nbConstraints → ∃ w, m.tryConstraint 1 = .ok (.ok w)) := by
  intro calls
  exact ⟨_, rfl, refusals_report_first_outside_id ⟨calls, rfl⟩ _ 0 1 _ .lowerBound (.upperBound 4) ⟨3⟩ 1⟩

end Milp
