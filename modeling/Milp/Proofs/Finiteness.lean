import Milp.Proofs.Handoff

/-!
# Finite coefficients at the solver hand-off

The hand-off checks every cost and every stored row entry, and refuses the model at the first one
that is not finite. A reachable model it builds has them all finite, and one whose stored ids all
name variables is built as soon as they are (`build_checks_stored_entries`); a built problem's
costs are finite and every row coefficient is the left-to-right sum of the row's finite entries for
its variable. The check reads the entries before they are summed, and a sum of finite doubles can
overflow: a built problem may still hold an infinite row coefficient
(`merged_coefficient_overflows`).
-/
namespace Milp

/-- A traversal that ends normally gave a value for every item. -/
theorem mapM_eq_ok_forall {β γ ε : Type} {f : β → Except ε γ} {xs : List β} {ys : List γ}
    (read : xs.mapM f = .ok ys) : ∀ x ∈ xs, ∃ y, f x = .ok y := by
  induction xs generalizing ys with
  | nil => simp
  | cons x rest ih =>
    simp only [List.mapM_cons, bind_eq_ok] at read
    obtain ⟨y, first, ys', later, -⟩ := read
    intro z member
    rcases List.mem_cons.mp member with rfl | inRest
    · exact ⟨y, first⟩
    · exact ih later z inRest

/-- Columns handed over without a refusal come from finite costs. -/
theorem columnsOf_finite {m : Model Float} {cols : List Column} (read : Problem.columnsOf m = .ok cols) :
    ∀ o ∈ m.vars, o.objCoef.isFinite = true := by
  intro o listed
  obtain ⟨j, found⟩ := List.mem_iff_getElem?.mp listed
  have paired : (o, j) ∈ m.vars.zipIdx := List.mem_zipIdx_iff_getElem?.mpr (by simpa using found)
  obtain ⟨col, made⟩ := mapM_eq_ok_forall read _ paired
  by_cases finite : o.objCoef.isFinite = true
  · exact finite
  · simp [finite] at made

/-- Rows handed over without a refusal come from views whose entries are all finite. -/
theorem rowsOf_finite {ncols : Nat} {views : List (ConstraintView Float)} {out : List MergedRow × Nat}
    (handed : Problem.rowsOf ncols (views.map .ok) = .ok (.ok out)) :
    ∀ v ∈ views, ∀ p ∈ v.terms, p.2.isFinite = true := by
  induction views generalizing out with
  | nil => simp
  | cons v rest ih =>
    simp only [List.map_cons, Problem.rowsOf] at handed
    cases first : firstNonFinite v with
    | some e => simp [first] at handed
    | none =>
      simp only [first] at handed
      -- the rest of the views was handed over too
      have later : ∃ out', Problem.rowsOf ncols (rest.map .ok) = .ok (.ok out') := by
        split at handed <;> simp_all
      obtain ⟨out', later⟩ := later
      intro w member p entry
      rcases List.mem_cons.mp member with rfl | inRest
      · have none := List.find?_eq_none.mp first p entry
        simpa using none
      · exact ih later w inRest p entry

theorem mem_coefsOf {es : List (Nat × Float)} {j : Nat} {a : Float} : a ∈ coefsOf es j ↔ (j, a) ∈ es := by
  simp [coefsOf]

namespace Model

variable {α : Type} {m : Model α} {R : List (Row α)}

/-- On aligned attribute vectors, every cost is the cost of some variable's attributes. -/
theorem Aligned.mem_vars (aligned : m.Aligned) {c : α} (member : c ∈ m.varObj) : ∃ o ∈ m.vars, o.objCoef = c := by
  obtain ⟨j, found⟩ := List.mem_iff_getElem?.mp (Array.mem_toList_iff.mpr member)
  rw [Array.getElem?_toList] at found
  have inside : j < m.nbVariables := by
    have := (Array.getElem?_eq_some_iff.mp found).1
    simpa [nbVariables] using this
  have lower := aligned.lowerBounds
  have upper := aligned.upperBounds
  have types := aligned.categories
  obtain ⟨lb, hl⟩ : ∃ lb, m.varLb[j]? = some lb := ⟨_, Array.getElem?_eq_getElem (by omega)⟩
  obtain ⟨ub, hu⟩ : ∃ ub, m.varUb[j]? = some ub := ⟨_, Array.getElem?_eq_getElem (by omega)⟩
  obtain ⟨t, ht⟩ : ∃ t, m.varType[j]? = some t := ⟨_, Array.getElem?_eq_getElem (by omega)⟩
  exact ⟨_, List.mem_of_getElem? (vars_getElem? found hl hu ht), rfl⟩

/-- Every stored coefficient is an entry of some row's view. -/
theorem Stored.mem_views (stored : m.Stored R) {a : α} (member : a ∈ m.aCof) :
    ∃ v ∈ R.zipIdx.map (fun q => q.1.viewAt q.2), ∃ p ∈ v.terms, p.2 = a := by
  rw [← Array.mem_toList_iff, stored.cof, List.mem_flatMap] at member
  obtain ⟨r, row, coef⟩ := member
  obtain ⟨p, entry, rfl⟩ := List.mem_map.mp coef
  obtain ⟨i, found⟩ := List.mem_iff_getElem?.mp row
  refine ⟨r.viewAt i, List.mem_map.mpr ⟨(r, i), ?_, rfl⟩, p, by rwa [Row.viewAt_terms], rfl⟩
  exact List.mem_zipIdx_iff_getElem?.mpr (by simpa using found)

end Model

namespace Backend

variable {m : Model Float} {R : List (Row Float)} {b : Backend} {ev : Event}

/-- A built model has finite costs and finite stored row entries. -/
theorem ofModel_finite (stored : m.Stored R) (built : Backend.ofModel m = .ok (.ok (b, ev))) :
    (∀ c ∈ m.varObj, c.isFinite = true) ∧ ∀ a ∈ m.aCof, a.isFinite = true := by
  obtain ⟨p, merged, handed, -, -⟩ := Backend.ofModel_eq_ok built
  obtain ⟨cols, rows, columns, rowsRead, -⟩ := Problem.ofModel_eq_ok handed
  rw [stored.views] at rowsRead
  refine ⟨fun c member => ?_, fun a member => ?_⟩
  · obtain ⟨o, listed, rfl⟩ := stored.toAligned.mem_vars member
    exact columnsOf_finite columns o listed
  · obtain ⟨v, listed, p, entry, rfl⟩ := stored.mem_views member
    exact rowsOf_finite rowsRead v listed p entry

/-- Row `i` of a built problem is the merged view of stored row `i`. -/
theorem rows_getElem? (stored : m.Stored R) (built : Backend.ofModel m = .ok (.ok (b, ev))) {i : Nat}
    (inside : i < R.length) :
    b.problem.rows[i]? = some ⟨mergeEntries (R[i].viewAt i).terms, (R[i].viewAt i).lower, (R[i].viewAt i).upper⟩ := by
  obtain ⟨-, -, -, -, -, rows, -⟩ := Backend.ofModel_of_stored stored built
  rw [← Array.getElem?_toList, rows]
  simp [inside]

end Backend

/-- A model that a run reaches is built only with finite costs and stored row entries, and with its
stored ids all inside, it is built whenever they are finite. A built problem's costs are finite,
and each row coefficient is the left-to-right sum of the row's entries for its variable, each of
them finite: the check reads the entries, not their sums. -/
theorem build_checks_stored_entries {m : Model Float} (reach : m.Reachable) :
    ((∃ b ev, Backend.ofModel m = .ok (.ok (b, ev))) →
      (∀ c ∈ m.varObj, c.isFinite = true) ∧ ∀ a ∈ m.aCof, a.isFinite = true) ∧
    ((∀ j ∈ m.aSubj, j < m.nbVariables) → (∀ c ∈ m.varObj, c.isFinite = true) → (∀ a ∈ m.aCof, a.isFinite = true) →
      ∃ b ev, Backend.ofModel m = .ok (.ok (b, ev))) ∧
    ∀ b ev, Backend.ofModel m = .ok (.ok (b, ev)) →
      (∀ col ∈ b.problem.columns, col.cost.isFinite = true) ∧
      ∀ i < m.nbConstraints, ∃ v row, m.tryConstraint i = .ok (.ok v) ∧ b.problem.rows[i]? = some row ∧
        ∀ p ∈ row.factors, p.2 = mergedCoef v.terms p.1 ∧ ∀ a ∈ coefsOf v.terms p.1, a.isFinite = true := by
  obtain ⟨R, stored⟩ := reach.stored
  refine ⟨fun ⟨b, ev, built⟩ => Backend.ofModel_finite stored built,
    fun ids costs entries => Backend.ofModel_of_finite reach ids costs entries, ?_⟩
  intro b ev built
  obtain ⟨costs, entries⟩ := Backend.ofModel_finite stored built
  obtain ⟨-, -, -, -, columns, -⟩ := Backend.ofModel_of_stored stored built
  refine ⟨fun col member => ?_, fun i below => ?_⟩
  · -- every column is a variable's, with its cost
    rw [← Array.mem_toList_iff, columns] at member
    obtain ⟨o, listed, rfl⟩ := List.mem_map.mp member
    rw [(Column.ofVar_spec o).1]
    exact costs _ (Model.objCoef_mem_of_mem_vars listed)
  · have inside : i < R.length := stored.nbConstraints ▸ below
    refine ⟨R[i].viewAt i, _, stored.tryConstraint inside, Backend.rows_getElem? stored built inside, ?_⟩
    intro p factor
    refine ⟨mergeEntries_sums _ p factor, fun a listed => entries a ?_⟩
    exact stored.coef_mem (List.getElem_mem inside) i (mem_coefsOf.mp listed)

/-- One variable and the row `2¹⁰²³·x₀ + 2¹⁰²³·x₀ ≤ 1`: both entries are finite, so the model is
built. -/
theorem build_checks_stored_entries_example :
    let big : Float := Float.ofBits 0x7FE0000000000000
    let calls : List (Call Float) :=
      [.addVar .default, .addConstraint (Constraint.ofBound (.linear ⟨[(0, big), (0, big)], 0⟩) (.lessThan 1))]
    ∃ m, Model.new.run calls = .ok m ∧
      ((∃ b ev, Backend.ofModel m = .ok (.ok (b, ev))) →
        (∀ c ∈ m.varObj, c.isFinite = true) ∧ ∀ a ∈ m.aCof, a.isFinite = true) ∧
      ((∀ j ∈ m.aSubj, j < m.nbVariables) → (∀ c ∈ m.varObj, c.isFinite = true) → (∀ a ∈ m.aCof, a.isFinite = true) →
        ∃ b ev, Backend.ofModel m = .ok (.ok (b, ev))) ∧
      ∀ b ev, Backend.ofModel m = .ok (.ok (b, ev)) →
        (∀ col ∈ b.problem.columns, col.cost.isFinite = true) ∧
        ∀ i < m.nbConstraints, ∃ v row, m.tryConstraint i = .ok (.ok v) ∧ b.problem.rows[i]? = some row ∧
          ∀ p ∈ row.factors, p.2 = mergedCoef v.terms p.1 ∧ ∀ a ∈ coefsOf v.terms p.1, a.isFinite = true := by
  intro big calls
  have ran : Model.new.run calls = .ok _ := rfl
  exact ⟨_, ran, build_checks_stored_entries ⟨calls, ran⟩⟩

/-- The same model is built, yet its one row coefficient is `2¹⁰²³ + 2¹⁰²³`, which overflows to
infinity: the finite entries are checked, their merged sum is not. -/
theorem merged_coefficient_overflows :
    let big : Float := Float.ofBits 0x7FE0000000000000
    let calls : List (Call Float) :=
      [.addVar .default, .addConstraint (Constraint.ofBound (.linear ⟨[(0, big), (0, big)], 0⟩) (.lessThan 1))]
    ∃ m, Model.new.run calls = .ok m ∧ ∃ b ev, Backend.ofModel m = .ok (.ok (b, ev)) ∧
      ∃ row p, b.problem.rows[0]? = some row ∧ p ∈ row.factors ∧ p.2.isFinite = false := by
  intro big calls
  have ran : Model.new.run calls = .ok _ := rfl
  have reach : Model.Reachable _ := ⟨calls, ran⟩
  obtain ⟨R, stored⟩ := reach.stored
  obtain ⟨b, ev, built⟩ := Backend.ofModel_of_finite reach (by decide) (by decide) (by decide)
  have inside : 0 < R.length := stored.nbConstraints ▸ (by decide)
  -- the stored row is the one the call gave
  have terms : (R[0].viewAt 0).terms = [(0, big), (0, big)] := by
    have read := congrArg (fun r : Except Fault (Except ModelError (ConstraintView Float)) =>
      match r with | .ok (.ok v) => v.terms | _ => []) (stored.tryConstraint inside)
    exact read.symm
  have kept : 0 ∈ (mergeEntries (R[0].viewAt 0).terms).map Prod.fst := by
    rw [mem_keys_mergeEntries, terms]
    decide
  obtain ⟨p, factor, first⟩ := List.mem_map.mp kept
  refine ⟨_, ran, b, ev, built, _, p, Backend.rows_getElem? stored built inside, factor, ?_⟩
  rw [mergeEntries_sums _ p factor, first, terms]
  decide

end Milp
