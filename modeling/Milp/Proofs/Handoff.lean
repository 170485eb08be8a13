import Milp.Proofs.WellFormed
import Milp.Solver.Backend
import Milp.Num.Order

/-!
# The solver hand-off builds the model's own problem

A built backend holds one column per variable and one row per constraint, both in id order. A
column carries its variable's cost and bounds, integral unless the variable is continuous; a
binary variable's bounds are clipped with `fmax` and `fmin`, which keeps them inside `[0, 1]`
whatever they were, NaN and infinities included.

A row's factors come from a stable sort by id, a pass summing runs of equal ids, and a filter
dropping sums equal to `0.0`. Together they give each id of the row whose merged coefficient is not
`0.0` exactly once, in increasing order, where the merged coefficient (`mergedCoef`) is the
left-to-right sum of the id's coefficients in stored order: stability keeps that order through the
sort, and on sorted entries each run the summing pass meets is all of an id's entries.
-/
namespace Milp

/-! ## Clipped binary bounds -/

/-- Clipping from below at a number leaves no bound under it; a NaN bound becomes the number. -/
theorem le_fmax_right {a c : Float} (num : c.isNaN = false) : c ≤ fmax a c := by
  unfold fmax
  by_cases nan : a.isNaN = true
  · rw [if_pos nan]
    exact Num.le_refl num
  · rw [if_neg nan, if_neg (ne_true_of_eq_false num)]
    by_cases below : a < c
    · rw [if_pos below]
      exact Num.le_refl num
    · rw [if_neg below]
      exact Num.le_of_not_lt num (eq_false_of_ne_true nan) below

/-- Clipping from above at a number leaves no bound over it; a NaN bound becomes the number. -/
theorem fmin_le_right {a c : Float} (num : c.isNaN = false) : fmin a c ≤ c := by
  unfold fmin
  by_cases nan : a.isNaN = true
  · rw [if_pos nan]
    exact Num.le_refl num
  · rw [if_neg nan, if_neg (ne_true_of_eq_false num)]
    by_cases above : c < a
    · rw [if_pos above]
      exact Num.le_refl num
    · rw [if_neg above]
      exact Num.le_of_not_lt (eq_false_of_ne_true nan) num above

/-! ## Merged coefficients -/

/-- The coefficients the entries give an id, in stored order. -/
def coefsOf (es : List (Nat × Float)) (j : Nat) : List Float := (es.filter (·.1 = j)).map Prod.snd

/-- The merged coefficient of an id: its coefficients summed from left to right, starting from the
first of them; `0` for an id with none. -/
def mergedCoef (es : List (Nat × Float)) (j : Nat) : Float :=
  match coefsOf es j with
  | [] => 0
  | a :: rest => rest.foldl (· + ·) a

section Merged

variable {es : List (Nat × Float)} {j k : Nat} {a b : Float}

@[simp] theorem coefsOf_cons_self : coefsOf ((j, a) :: es) j = a :: coefsOf es j := by
  simp [coefsOf]

@[simp] theorem coefsOf_cons_of_ne (other : k ≠ j) : coefsOf ((k, a) :: es) j = coefsOf es j := by
  simp [coefsOf, other]

theorem coefsOf_eq_nil (absent : ∀ q ∈ es, q.1 ≠ j) : coefsOf es j = [] := by
  simp only [coefsOf, List.map_eq_nil_iff, List.filter_eq_nil_iff, decide_eq_true_eq]
  exact absent

theorem mergedCoef_cons_self : mergedCoef ((j, a) :: es) j = (coefsOf es j).foldl (· + ·) a := by
  simp [mergedCoef]

theorem mergedCoef_cons_of_ne (other : k ≠ j) : mergedCoef ((k, a) :: es) j = mergedCoef es j := by
  simp [mergedCoef, other]

/-- Adding the next entry of an id to a pending sum is the left-to-right sum. -/
theorem mergedCoef_absorb : mergedCoef ((k, a + b) :: es) j = mergedCoef ((k, a) :: (k, b) :: es) j := by
  by_cases same : k = j
  · subst same
    simp [mergedCoef_cons_self]
  · simp [mergedCoef_cons_of_ne same]

theorem byId_trans (a b c : Nat × Float) (ab : decide (a.1 ≤ b.1) = true) (bc : decide (b.1 ≤ c.1) = true) :
    decide (a.1 ≤ c.1) = true := by
  simp only [decide_eq_true_eq] at ab bc ⊢
  omega

theorem byId_total (a b : Nat × Float) : (decide (a.1 ≤ b.1) || decide (b.1 ≤ a.1)) = true := by
  simp only [Bool.or_eq_true, decide_eq_true_eq]
  omega

theorem sorted_mergeSort_byId (es : List (Nat × Float)) :
    (es.mergeSort fun a b => a.1 ≤ b.1).Pairwise fun a b => a.1 ≤ b.1 :=
  (List.pairwise_mergeSort byId_trans byId_total es).imp of_decide_eq_true

theorem mem_keys_mergeSort_byId (es : List (Nat × Float)) (j : Nat) :
    j ∈ (es.mergeSort fun a b => a.1 ≤ b.1).map Prod.fst ↔ j ∈ es.map Prod.fst :=
  ((List.mergeSort_perm es _).map Prod.fst).mem_iff

/-- Sorting by id is stable: the entries of one id keep their stored order. -/
theorem filter_mergeSort_byId (es : List (Nat × Float)) (j : Nat) :
    (es.mergeSort fun a b => a.1 ≤ b.1).filter (·.1 = j) = es.filter (·.1 = j) := by
  -- the entries of one id are sorted already, so they stay a sublist of the sorted entries
  have level : (es.filter (·.1 = j)).Pairwise fun a b => decide (a.1 ≤ b.1) = true := by
    rw [List.pairwise_filter]
    exact List.pairwise_of_forall fun a b ina inb => by simp_all
  have within : (es.filter (·.1 = j)).Sublist es := List.filter_sublist
  have kept := (List.sublist_mergeSort byId_trans byId_total level within).filter (·.1 = j)
  simp only [List.filter_filter, Bool.and_self] at kept
  refine (kept.eq_of_length ?_).symm
  exact ((List.mergeSort_perm es _).filter _).length_eq.symm

theorem coefsOf_mergeSort_byId : coefsOf (es.mergeSort fun a b => a.1 ≤ b.1) j = coefsOf es j := by
  rw [coefsOf, filter_mergeSort_byId, coefsOf]

theorem mergedCoef_mergeSort_byId : mergedCoef (es.mergeSort fun a b => a.1 ≤ b.1) j = mergedCoef es j := by
  rw [mergedCoef, coefsOf_mergeSort_byId, mergedCoef]

end Merged

/-! ## Summing runs of sorted entries -/

section Coalesce

variable {cur : Nat × Float} {rest : List (Nat × Float)}

/-- Summing runs keeps exactly the ids of the entries. -/
theorem mem_keys_coalesceFrom (cur : Nat × Float) (rest : List (Nat × Float)) (j : Nat) :
    j ∈ (coalesceFrom cur rest).map Prod.fst ↔ j ∈ (cur :: rest).map Prod.fst := by
  induction rest generalizing cur with
  | nil => simp [coalesceFrom]
  | cons e rest ih =>
    obtain ⟨k, b⟩ := e
    by_cases same : cur.1 = k
    · rw [coalesceFrom, if_pos same, ih]
      simp [same]
    · rw [coalesceFrom, if_neg same, List.map_cons, List.mem_cons, ih]
      simp

theorem length_coalesceFrom_le (cur : Nat × Float) (rest : List (Nat × Float)) :
    (coalesceFrom cur rest).length ≤ rest.length + 1 := by
  induction rest generalizing cur with
  | nil => simp [coalesceFrom]
  | cons e rest ih =>
    obtain ⟨k, b⟩ := e
    by_cases same : cur.1 = k
    · rw [coalesceFrom, if_pos same]
      have shorter := ih (cur.1, cur.2 + b)
      simp only [List.length_cons]
      omega
    · rw [coalesceFrom, if_neg same]
      simpa using ih (k, b)

/-- On entries sorted by id, the sums come out with strictly increasing ids. -/
theorem keys_coalesceFrom_lt (sorted : (cur :: rest).Pairwise fun a b => a.1 ≤ b.1) :
    ((coalesceFrom cur rest).map Prod.fst).Pairwise (· < ·) := by
  induction rest generalizing cur with
  | nil => simp [coalesceFrom]
  | cons e rest ih =>
    obtain ⟨k, b⟩ := e
    obtain ⟨first, later⟩ := List.pairwise_cons.mp sorted
    by_cases same : cur.1 = k
    · rw [coalesceFrom, if_pos same]
      exact ih (List.pairwise_cons.mpr ⟨fun q member => first q (List.mem_cons_of_mem _ member),
        (List.pairwise_cons.mp later).2⟩)
    · rw [coalesceFrom, if_neg same, List.map_cons, List.pairwise_cons]
      refine ⟨fun j found => ?_, ih later⟩
      -- every later id is at least `k`, which is above the pending id
      have below : cur.1 < k := Nat.lt_of_le_of_ne (first (k, b) (by simp)) same
      obtain ⟨q, member, rfl⟩ := List.mem_map.mp ((mem_keys_coalesceFrom _ _ j).mp found)
      rcases List.mem_cons.mp member with rfl | inRest
      · exact below
      · exact Nat.lt_of_lt_of_le below ((List.pairwise_cons.mp later).1 q inRest)

/-- On entries sorted by id, each sum is the merged coefficient of its id. -/
theorem coalesceFrom_sums (sorted : (cur :: rest).Pairwise fun a b => a.1 ≤ b.1) :
    ∀ p ∈ coalesceFrom cur rest, p.2 = mergedCoef (cur :: rest) p.1 := by
  induction rest generalizing cur with
  | nil =>
    intro p found
    rw [coalesceFrom, List.mem_singleton] at found
    subst found
    obtain ⟨j, a⟩ := p
    simp [mergedCoef_cons_self, coefsOf]
  | cons e rest ih =>
    obtain ⟨k, b⟩ := e
    obtain ⟨j, a⟩ := cur
    obtain ⟨first, later⟩ := List.pairwise_cons.mp sorted
    intro p found
    by_cases same : j = k
    · subst same
      rw [coalesceFrom, if_pos rfl] at found
      have pending : ((j, a + b) :: rest).Pairwise fun a b => a.1 ≤ b.1 :=
        List.pairwise_cons.mpr ⟨fun q member => first q (List.mem_cons_of_mem _ member),
          (List.pairwise_cons.mp later).2⟩
      rw [← mergedCoef_absorb]
      exact ih pending p found
    · rw [coalesceFrom, if_neg same] at found
      -- the later ids are all above `j`: `j` has no later entry, and no later sum is `j`'s
      have above : ∀ q ∈ (k, b) :: rest, j < q.1 := by
        have below : j < k := Nat.lt_of_le_of_ne (first (k, b) (by simp)) same
        intro q member
        rcases List.mem_cons.mp member with rfl | inRest
        · exact below
        · exact Nat.lt_of_lt_of_le below ((List.pairwise_cons.mp later).1 q inRest)
      rcases List.mem_cons.mp found with rfl | summed
      · rw [mergedCoef_cons_self, coefsOf_eq_nil fun q member => Nat.ne_of_gt (above q member)]
        rfl
      · obtain ⟨q, member, sameId⟩ := mem_coalesceFrom summed
        rw [mergedCoef_cons_of_ne (Nat.ne_of_lt (sameId ▸ above q member))]
        exact ih later p summed

variable {xs : List (Nat × Float)}

theorem mem_keys_coalesce (xs : List (Nat × Float)) (j : Nat) :
    j ∈ (coalesce xs).map Prod.fst ↔ j ∈ xs.map Prod.fst := by
  cases xs with
  | nil => simp [coalesce]
  | cons x rest => exact mem_keys_coalesceFrom x rest j

theorem length_coalesce_le (xs : List (Nat × Float)) : (coalesce xs).length ≤ xs.length := by
  cases xs with
  | nil => simp [coalesce]
  | cons x rest => exact length_coalesceFrom_le x rest

theorem keys_coalesce_lt (sorted : xs.Pairwise fun a b => a.1 ≤ b.1) :
    ((coalesce xs).map Prod.fst).Pairwise (· < ·) := by
  cases xs with
  | nil => simp [coalesce]
  | cons x rest => exact keys_coalesceFrom_lt sorted

theorem coalesce_sums (sorted : xs.Pairwise fun a b => a.1 ≤ b.1) :
    ∀ p ∈ coalesce xs, p.2 = mergedCoef xs p.1 := by
  cases xs with
  | nil => simp [coalesce]
  | cons x rest => exact coalesceFrom_sums sorted

end Coalesce

/-! ## Merged entries -/

section MergeEntries

variable (es : List (Nat × Float))

/-- Merged ids come out strictly increasing, so each at most once. -/
theorem keys_mergeEntries_lt : ((mergeEntries es).map Prod.fst).Pairwise (· < ·) :=
  (keys_coalesce_lt (sorted_mergeSort_byId es)).sublist (List.filter_sublist.map Prod.fst)

/-- Each merged factor is the merged coefficient of its id. -/
theorem mergeEntries_sums : ∀ p ∈ mergeEntries es, p.2 = mergedCoef es p.1 := by
  intro p merged
  rw [← mergedCoef_mergeSort_byId]
  exact coalesce_sums (sorted_mergeSort_byId es) p (List.mem_filter.mp merged).1

/-- The merged ids are the ids of the entries whose merged coefficient is not `0.0`. -/
theorem mem_keys_mergeEntries (j : Nat) :
    j ∈ (mergeEntries es).map Prod.fst ↔ j ∈ es.map Prod.fst ∧ mergedCoef es j != 0 := by
  constructor
  · intro found
    obtain ⟨p, merged, rfl⟩ := List.mem_map.mp found
    obtain ⟨summed, nonzero⟩ := List.mem_filter.mp merged
    have sortedKey := (mem_keys_coalesce _ p.1).mp (List.mem_map_of_mem summed)
    refine ⟨(mem_keys_mergeSort_byId es p.1).mp sortedKey, ?_⟩
    rw [← mergeEntries_sums es p merged]
    exact nonzero
  · rintro ⟨occurs, nonzero⟩
    have sortedKey := (mem_keys_coalesce _ j).mpr ((mem_keys_mergeSort_byId es j).mpr occurs)
    obtain ⟨p, summed, rfl⟩ := List.mem_map.mp sortedKey
    have value := coalesce_sums (sorted_mergeSort_byId es) p summed
    rw [mergedCoef_mergeSort_byId] at value
    exact List.mem_map_of_mem (List.mem_filter.mpr ⟨summed, value ▸ nonzero⟩)

/-- Merging never adds entries. -/
theorem length_mergeEntries_le : (mergeEntries es).length ≤ es.length := calc
  (mergeEntries es).length ≤ (coalesce (es.mergeSort fun a b => a.1 ≤ b.1)).length := List.length_filter_le _ _
  _ ≤ (es.mergeSort fun a b => a.1 ≤ b.1).length := length_coalesce_le _
  _ = es.length := List.length_mergeSort es

end MergeEntries

/-! ## What a built backend holds -/

theorem eq_map_of_mapM_eq_ok {β γ ε : Type} {f : β → Except ε γ} (g : β → γ)
    (agree : ∀ x y, f x = .ok y → y = g x) {xs : List β} {ys : List γ} (read : xs.mapM f = .ok ys) :
    ys = xs.map g := by
  induction xs generalizing ys with
  | nil =>
    cases read
    rfl
  | cons x rest ih =>
    simp only [List.mapM_cons, bind_eq_ok] at read
    obtain ⟨y, first, ys', later, done⟩ := read
    simp only [pure, Except.pure, Except.ok.injEq] at done
    rw [← done, agree x y first, ih later, List.map_cons]

theorem mapM_eq_ok_of_forall {β γ ε : Type} {f : β → Except ε γ} (g : β → γ) {xs : List β}
    (each : ∀ x ∈ xs, f x = .ok (g x)) : xs.mapM f = .ok (xs.map g) := by
  induction xs with
  | nil => rfl
  | cons x rest ih =>
    have later := ih fun y member => each y (List.mem_cons_of_mem x member)
    simp [each x (by simp), later, bind, Except.bind, pure, Except.pure]

/-- The columns handed over are the variables' columns, in id order. -/
theorem columnsOf_eq_ok {m : Model Float} {cols : List Column} (read : Problem.columnsOf m = .ok cols) :
    cols = m.vars.map Column.ofVar := by
  have listed := eq_map_of_mapM_eq_ok (fun p => Column.ofVar p.1)
    (fun p col made => by by_cases finite : p.1.objCoef.isFinite = true <;> simp_all) read
  rw [listed, ← List.zipIdx_map_fst 0 m.vars, List.map_map, List.zipIdx_map_fst]
  rfl

/-- Merged factors found among the columns are the merged entries themselves. -/
theorem factorsOf_eq_ok {ncols : Nat} {v : ConstraintView Float} {fs : List (Nat × Float)}
    (found : factorsOf ncols v = .ok fs) : fs = mergeEntries v.terms := by
  have listed := eq_map_of_mapM_eq_ok id (fun p q looked => by
    by_cases below : p.1 < ncols <;> simp_all) found
  rw [listed, List.map_id]

/-- Views handed over without a fault or a refusal become their merged rows, in order, and the
entries merging removed are counted row by row. -/
theorem rowsOf_eq_ok {ncols : Nat} {views : List (ConstraintView Float)} {rows : List MergedRow} {merged : Nat}
    (handed : Problem.rowsOf ncols (views.map .ok) = .ok (.ok (rows, merged))) :
    rows = views.map (fun v => ⟨mergeEntries v.terms, v.lower, v.upper⟩) ∧
      merged = (views.map fun v => v.subj.size - (mergeEntries v.terms).length).sum := by
  induction views generalizing rows merged with
  | nil =>
    simp only [List.map_nil, Problem.rowsOf, Except.ok.injEq, Prod.mk.injEq] at handed
    obtain ⟨rfl, rfl⟩ := handed
    simp
  | cons v rest ih =>
    simp only [List.map_cons, Problem.rowsOf] at handed
    cases finite : firstNonFinite v with
    | some e => simp [finite] at handed
    | none =>
      -- the row's factors were all found among the columns, so they are its merged entries
      cases factors : factorsOf ncols v with
      | error f => simp [finite, factors] at handed
      | ok fs =>
        cases later : Problem.rowsOf ncols (rest.map .ok) with
        | error f => simp [finite, factors, later] at handed
        | ok r =>
          cases r with
          | error e => simp [finite, factors, later] at handed
          | ok out =>
            obtain ⟨rows', merged'⟩ := out
            simp only [finite, factors, later, Except.ok.injEq, Prod.mk.injEq] at handed
            obtain ⟨rfl, rfl⟩ := handed
            obtain ⟨rfl, rfl⟩ := ih later
            simp [factorsOf_eq_ok factors]

/-- A problem handed over whole is the columns and the merged rows, with the model's sense. -/
theorem Problem.ofModel_eq_ok {m : Model Float} {p : Problem} {merged : Nat}
    (handed : Problem.ofModel m = .ok (.ok (p, merged))) :
    ∃ cols rows, Problem.columnsOf m = .ok cols ∧
      Problem.rowsOf cols.length m.constraints = .ok (.ok (rows, merged)) ∧
      p = ⟨m.sense, cols.toArray, rows.toArray⟩ := by
  unfold Problem.ofModel at handed
  cases columns : Problem.columnsOf m with
  | error e => simp [columns] at handed
  | ok cols =>
    cases rowsRead : Problem.rowsOf cols.length m.constraints with
    | error f => simp [columns, rowsRead] at handed
    | ok r =>
      cases r with
      | error e => simp [columns, rowsRead] at handed
      | ok out =>
        obtain ⟨rows, merged'⟩ := out
        simp only [columns, rowsRead, Except.ok.injEq, Prod.mk.injEq] at handed
        obtain ⟨rfl, rfl⟩ := handed
        exact ⟨cols, rows, rfl, rowsRead, rfl⟩

/-- A built backend holds the problem handed over, the objective constant, and the counts of
columns and constraints; its build event reports them with the model's entry count. -/
theorem Backend.ofModel_eq_ok {m : Model Float} {b : Backend} {ev : Event}
    (built : Backend.ofModel m = .ok (.ok (b, ev))) :
    ∃ p merged, Problem.ofModel m = .ok (.ok (p, merged)) ∧
      b = ⟨p, m.objConstant, p.columns.size, m.nbConstraints, #[], false, none, none⟩ ∧
      ev = .builtProblem p.columns.size m.nbConstraints m.nbEntries merged := by
  unfold Backend.ofModel at built
  cases handed : Problem.ofModel m with
  | error f => simp [handed] at built
  | ok r =>
    cases r with
    | error e =>
      simp only [handed] at built
      cases e <;> simp at built
    | ok out =>
      obtain ⟨p, merged⟩ := out
      simp only [handed, Except.ok.injEq, Prod.mk.injEq] at built
      obtain ⟨rfl, rfl⟩ := built
      exact ⟨p, merged, rfl, rfl, rfl⟩

theorem Model.vars_getElem? {α : Type} {m : Model α} {j : Nat} {c lb ub : α} {t : Category}
    (cost : m.varObj[j]? = some c) (lower : m.varLb[j]? = some lb) (upper : m.varUb[j]? = some ub)
    (category : m.varType[j]? = some t) : m.vars[j]? = some ⟨c, lb, ub, t⟩ := by
  have zipped : (m.varObj.toList.zip (m.varLb.toList.zip (m.varUb.toList.zip m.varType.toList)))[j]? =
      some (c, lb, ub, t) := by
    simp only [List.getElem?_zip_eq_some, Array.getElem?_toList]
    exact ⟨cost, lower, upper, category⟩
  simp [Model.vars, zipped]

/-- A column carries its variable's cost, is integral unless the variable is continuous, keeps
the bounds of a continuous or integer variable and clips a binary one's into `[0, 1]`. -/
theorem Column.ofVar_spec (o : VarOptions Float) :
    (Column.ofVar o).cost = o.objCoef ∧
      ((Column.ofVar o).integer = true ↔ o.category ≠ .continuous) ∧
      (o.category ≠ .binary → (Column.ofVar o).lower = o.lowerBound ∧ (Column.ofVar o).upper = o.upperBound) ∧
      (o.category = .binary → (Column.ofVar o).lower = fmax o.lowerBound 0 ∧
        (Column.ofVar o).upper = fmin o.upperBound 1 ∧ 0 ≤ (Column.ofVar o).lower ∧ (Column.ofVar o).upper ≤ 1) := by
  obtain ⟨c, lb, ub, t⟩ := o
  cases t with
  | continuous => simp [Column.ofVar]
  | integer => simp [Column.ofVar]
  | binary =>
    refine ⟨rfl, by simp [Column.ofVar], by simp, fun _ => ⟨rfl, rfl, ?_, ?_⟩⟩
    · exact le_fmax_right (by decide)
    · exact fmin_le_right (by decide)

/-- The rows merging leaves and the entries it removed add up to the entries of the views. -/
theorem merged_add_factors (views : List (ConstraintView Float))
    (fits : ∀ v ∈ views, v.terms.length = v.subj.size) :
    (views.map fun v => v.subj.size - (mergeEntries v.terms).length).sum +
        (views.map fun v => (mergeEntries v.terms).length).sum = (views.map fun v => v.subj.size).sum := by
  induction views with
  | nil => rfl
  | cons v rest ih =>
    have shorter := length_mergeEntries_le v.terms
    have size := fits v (by simp)
    have later := ih fun w member => fits w (by simp [member])
    simp only [List.map_cons, List.sum_cons]
    omega

/-- Reading something off each view of the rows, in order, is reading it off each row. -/
theorem map_views {β : Type} {R : List (Row Float)} (f : ConstraintView Float → β) (g : Row Float → β)
    (same : ∀ r i, f (r.viewAt i) = g r) :
    (R.zipIdx.map fun p => p.1.viewAt p.2).map f = R.map g := by
  rw [List.map_map]
  conv => rhs; rw [← List.zipIdx_map_fst 0 R]
  rw [List.map_map]
  simp [same]

theorem Row.keys_viewAt_terms (r : Row Float) (i : Nat) :
    (r.viewAt i).terms.map Prod.fst = (r.viewAt i).subj.toList := by
  rw [Row.viewAt_terms]
  simp [Row.viewAt, Row.ids]

/-- A backend built from a model that holds the rows `R` has the variables' columns and the merged
views of `R`, in order, and its build event counts the entries merging removed. -/
theorem Backend.ofModel_of_stored {m : Model Float} {R : List (Row Float)} (stored : m.Stored R)
    {b : Backend} {ev : Event} (built : Backend.ofModel m = .ok (.ok (b, ev))) :
    b.problem.sense = m.sense ∧ b.offset = m.objConstant ∧ b.numCols = m.nbVariables ∧
      b.numRows = m.nbConstraints ∧
      b.problem.columns.toList = m.vars.map Column.ofVar ∧
      b.problem.rows.toList = (R.zipIdx.map fun q => q.1.viewAt q.2).map
        (fun v => ⟨mergeEntries v.terms, v.lower, v.upper⟩) ∧
      ∃ merged, ev = .builtProblem m.nbVariables m.nbConstraints m.nbEntries merged ∧
        merged = ((R.zipIdx.map fun q => q.1.viewAt q.2).map
          fun v => v.subj.size - (mergeEntries v.terms).length).sum := by
  obtain ⟨p, merged, handed, rfl, rfl⟩ := Backend.ofModel_eq_ok built
  obtain ⟨cols, rows, columns, rowsRead, rfl⟩ := Problem.ofModel_eq_ok handed
  have listed := columnsOf_eq_ok columns
  have count : cols.length = m.nbVariables := by rw [listed, List.length_map, stored.toAligned.vars_length]
  rw [stored.views] at rowsRead
  obtain ⟨rfl, rfl⟩ := rowsOf_eq_ok rowsRead
  refine ⟨rfl, rfl, ?_, rfl, by simp [listed], by simp, _, ?_, rfl⟩
  · simpa using count
  · simpa using count

/-- Every stored row's merged factors: strictly increasing ids, each an id of the row whose merged
coefficient is not `0.0`, every such id present, each with its merged coefficient. -/
theorem mergeEntries_viewAt (r : Row Float) (i : Nat) :
    ((mergeEntries (r.viewAt i).terms).map Prod.fst).Pairwise (· < ·) ∧
      (∀ j, j ∈ (mergeEntries (r.viewAt i).terms).map Prod.fst ↔
        j ∈ (r.viewAt i).subj ∧ mergedCoef (r.viewAt i).terms j != 0) ∧
      ∀ p ∈ mergeEntries (r.viewAt i).terms, p.2 = mergedCoef (r.viewAt i).terms p.1 := by
  refine ⟨keys_mergeEntries_lt _, fun j => ?_, mergeEntries_sums _⟩
  rw [mem_keys_mergeEntries, Row.keys_viewAt_terms, Array.mem_toList_iff]

/-! ## Every model with finite coefficients is built -/

theorem Model.objCoef_mem_of_mem_vars {m : Model Float} {o : VarOptions Float} (listed : o ∈ m.vars) :
    o.objCoef ∈ m.varObj := by
  obtain ⟨q, zipped, rfl⟩ := List.mem_map.mp listed
  exact Array.mem_toList_iff.mp (List.of_mem_zip zipped).1

/-- Every entry of a stored row's view is a stored coefficient. -/
theorem Model.Stored.coef_mem {α : Type} {m : Model α} {R : List (Row α)} (stored : m.Stored R) {r : Row α}
    (row : r ∈ R) (i : Nat) {p : Nat × α} (entry : p ∈ (r.viewAt i).terms) : p.2 ∈ m.aCof := by
  rw [Row.viewAt_terms] at entry
  rw [← Array.mem_toList_iff, stored.cof, List.mem_flatMap]
  exact ⟨r, row, List.mem_map_of_mem entry⟩

/-- Views with their ids among the columns and no non-finite entry are all handed over. -/
theorem rowsOf_of_finite (ncols : Nat) (views : List (ConstraintView Float))
    (inside : ∀ v ∈ views, ∀ j ∈ v.subj, j < ncols) (finite : ∀ v ∈ views, firstNonFinite v = none) :
    ∃ rows merged, Problem.rowsOf ncols (views.map .ok) = .ok (.ok (rows, merged)) := by
  induction views with
  | nil => exact ⟨[], 0, rfl⟩
  | cons v rest ih =>
    obtain ⟨rows, merged, later⟩ :=
      ih (fun w member => inside w (by simp [member])) (fun w member => finite w (by simp [member]))
    have factors := factorsOf_of_inside (inside v (by simp))
    refine ⟨⟨mergeEntries v.terms, v.lower, v.upper⟩ :: rows, v.subj.size - (mergeEntries v.terms).length + merged, ?_⟩
    simp [Problem.rowsOf, finite v (by simp), factors, later]

/-- Finite costs are all handed over, one column per variable in id order. -/
theorem Problem.columnsOf_of_finite {m : Model Float} (costs : ∀ c ∈ m.varObj, c.isFinite = true) :
    Problem.columnsOf m = .ok (m.vars.zipIdx.map fun p => Column.ofVar p.1) := by
  refine mapM_eq_ok_of_forall _ fun p member => ?_
  simp [costs _ (Model.objCoef_mem_of_mem_vars (List.fst_mem_of_mem_zipIdx member))]

/-- A model that a run reaches, with every stored id inside and every cost and every stored
coefficient finite, is built. -/
theorem Backend.ofModel_of_finite {m : Model Float} (reach : m.Reachable) (ids : ∀ j ∈ m.aSubj, j < m.nbVariables)
    (costs : ∀ c ∈ m.varObj, c.isFinite = true) (entries : ∀ a ∈ m.aCof, a.isFinite = true) :
    ∃ b ev, Backend.ofModel m = .ok (.ok (b, ev)) := by
  obtain ⟨R, stored⟩ := reach.stored
  have columns := Problem.columnsOf_of_finite costs
  have count : (m.vars.zipIdx.map fun p => Column.ofVar p.1).length = m.nbVariables := by
    simp [stored.toAligned.vars_length]
  have made := stored.views
  have inside := stored.views_inside ids
  -- every entry of a view is a stored coefficient
  have finite : ∀ v ∈ R.zipIdx.map (fun q => q.1.viewAt q.2), firstNonFinite v = none := by
    intro v listed
    obtain ⟨q, member, rfl⟩ := List.mem_map.mp listed
    simp only [firstNonFinite, List.find?_eq_none, Bool.not_eq_true', Bool.not_eq_false]
    intro e term
    exact entries _ (stored.coef_mem (List.fst_mem_of_mem_zipIdx member) q.2 term)
  obtain ⟨rows, merged, handed⟩ := rowsOf_of_finite _ _ (count ▸ inside) finite
  simp only [Backend.ofModel, Problem.ofModel, columns, made, handed]
  exact ⟨_, _, rfl⟩

/-! ## The problem handed to the solver -/

/-- A backend built from a reachable model hands the solver one column per variable, with its cost,
integrality and bounds (clipped for a binary variable), and one row per constraint with its sides
and its entries merged by id; its build event counts the entries merging removed. -/
theorem built_problem_matches_model {m : Model Float} (reach : m.Reachable) {b : Backend} {ev : Event}
    (built : Backend.ofModel m = .ok (.ok (b, ev))) :
    b.numCols = m.nbVariables ∧ b.numRows = m.nbConstraints ∧ b.problem.sense = m.sense ∧
      b.offset = m.objConstant ∧ b.problem.columns.size = m.nbVariables ∧
      b.problem.rows.size = m.nbConstraints ∧
      (∀ (j : Nat) c lb ub (t : Category), m.varObj[j]? = some c → m.varLb[j]? = some lb →
        m.varUb[j]? = some ub → m.varType[j]? = some t →
        ∃ col : Column, b.problem.columns[j]? = some col ∧ col.cost = c ∧ (col.integer = true ↔ t ≠ .continuous) ∧
          (t ≠ .binary → col.lower = lb ∧ col.upper = ub) ∧
          (t = .binary → col.lower = fmax lb 0 ∧ col.upper = fmin ub 1 ∧ 0 ≤ col.lower ∧ col.upper ≤ 1)) ∧
      (∀ i < m.nbConstraints, ∃ (v : ConstraintView Float) (row : MergedRow),
        m.tryConstraint i = .ok (.ok v) ∧ b.problem.rows[i]? = some row ∧
        row.lower = v.lower ∧ row.upper = v.upper ∧ (row.factors.map Prod.fst).Pairwise (· < ·) ∧
        (∀ j, j ∈ row.factors.map Prod.fst ↔ j ∈ v.subj ∧ mergedCoef v.terms j != 0) ∧
        ∀ p ∈ row.factors, p.2 = mergedCoef v.terms p.1) ∧
      ∃ merged, ev = .builtProblem m.nbVariables m.nbConstraints m.nbEntries merged ∧
        merged + (b.problem.rows.toList.map fun r => r.factors.length).sum = m.nbEntries := by
  obtain ⟨R, stored⟩ := reach.stored
  obtain ⟨sense, offset, numCols, numRows, columns, rows, merged, event, removed⟩ :=
    Backend.ofModel_of_stored stored built
  have count : R.length = m.nbConstraints := stored.nbConstraints.symm
  refine ⟨numCols, numRows, sense, offset, ?_, ?_, ?_, ?_, merged, event, ?_⟩
  · rw [← Array.length_toList, columns, List.length_map, stored.toAligned.vars_length]
  · rw [← Array.length_toList, rows]
    simp [count]
  · -- column `j` is the column of variable `j`
    intro j c lb ub t cost lower upper category
    refine ⟨Column.ofVar ⟨c, lb, ub, t⟩, ?_, Column.ofVar_spec ⟨c, lb, ub, t⟩⟩
    rw [← Array.getElem?_toList, columns, List.getElem?_map, Model.vars_getElem? cost lower upper category]
    rfl
  · -- row `i` is the merged view of stored row `i`
    intro i below
    have inside : i < R.length := count ▸ below
    refine ⟨R[i].viewAt i, ⟨mergeEntries (R[i].viewAt i).terms, (R[i].viewAt i).lower, (R[i].viewAt i).upper⟩,
      stored.tryConstraint inside, ?_, rfl, rfl, mergeEntries_viewAt R[i] i⟩
    rw [← Array.getElem?_toList, rows]
    simp [inside]
  · -- the entries merging removed and those it kept make up every stored entry
    have fits : ∀ v ∈ R.zipIdx.map (fun q => q.1.viewAt q.2), v.terms.length = v.subj.size := by
      intro v listed
      obtain ⟨q, -, rfl⟩ := List.mem_map.mp listed
      rw [Row.viewAt_terms]
      simp [Row.viewAt, Row.ids]
    have sizes : ((R.zipIdx.map fun q => q.1.viewAt q.2).map fun v => v.subj.size) = R.map Row.length :=
      map_views _ _ fun r i => by simp [Row.viewAt, Row.ids, Row.length]
    have kept : (b.problem.rows.toList.map fun r => r.factors.length) =
        (R.zipIdx.map fun q => q.1.viewAt q.2).map fun v => (mergeEntries v.terms).length := by
      rw [rows, List.map_map]
      rfl
    rw [removed, kept, stored.nbEntries, entryCount, ← sizes]
    exact merged_add_factors _ fits

/-- A binary variable with bounds `[-1, 5]`, a default variable and the row `x₀ + x₁ - x₀` in
`[0, 3]`: the model is built, so the theorem applies to its problem. -/
theorem built_problem_matches_model_example :
    let calls : List (Call Float) :=
      [.addVar ⟨1, -1, 5, .binary⟩, .addVar .default,
       .addConstraint ⟨.add (.add (.var 0) (.var 1)) (.scale (-1) (.var 0)), 0, 3⟩]
    ∃ m, Model.new.run calls = .ok m ∧ ∃ b ev, Backend.ofModel m = .ok (.ok (b, ev)) ∧
      b.numCols = m.nbVariables ∧ b.numRows = m.nbConstraints ∧ b.problem.sense = m.sense ∧
      b.offset = m.objConstant ∧ b.problem.columns.size = m.nbVariables ∧
      b.problem.rows.size = m.nbConstraints ∧
      (∀ (j : Nat) c lb ub (t : Category), m.varObj[j]? = some c → m.varLb[j]? = some lb →
        m.varUb[j]? = some ub → m.varType[j]? = some t →
        ∃ col : Column, b.problem.columns[j]? = some col ∧ col.cost = c ∧
          (col.integer = true ↔ t ≠ .continuous) ∧
          (t ≠ .binary → col.lower = lb ∧ col.upper = ub) ∧
          (t = .binary → col.lower = fmax lb 0 ∧ col.upper = fmin ub 1 ∧ 0 ≤ col.lower ∧ col.upper ≤ 1)) ∧
      (∀ i < m.nbConstraints, ∃ (v : ConstraintView Float) (row : MergedRow),
        m.tryConstraint i = .ok (.ok v) ∧ b.problem.rows[i]? = some row ∧
        row.lower = v.lower ∧ row.upper = v.upper ∧ (row.factors.map Prod.fst).Pairwise (· < ·) ∧
        (∀ j, j ∈ row.factors.map Prod.fst ↔ j ∈ v.subj ∧ mergedCoef v.terms j != 0) ∧
        ∀ p ∈ row.factors, p.2 = mergedCoef v.terms p.1) ∧
      ∃ merged, ev = .builtProblem m.nbVariables m.nbConstraints m.nbEntries merged ∧
        merged + (b.problem.rows.toList.map fun r => r.factors.length).sum = m.nbEntries := by
  intro calls
  have ran : Model.new.run calls = .ok _ := rfl
  have reach : Model.Reachable _ := ⟨calls, ran⟩
  obtain ⟨b, ev, built⟩ := Backend.ofModel_of_finite reach (by decide) (by decide) (by decide)
  exact ⟨_, ran, b, ev, built, built_problem_matches_model reach built⟩

end Milp
