import Milp.Proofs.ObjectiveView
import Milp.Proofs.Handoff

/-!
# Merging a row and aggregating an objective agree

The solver hand-off merges a row's entries (`mergeEntries`): a stable sort by id, the coefficients
of one id summed from left to right starting from the first of them, and sums equal to `0`
dropped. Adding the same entries to a blank objective sums each id's coefficients in the same
order, but from `+0`. The two sums differ at most where the first coefficient is a zero, and then
only in the sign of a zero result: partial sums that start the same up to the sign of a zero stay
so (`sameUpToZeroSign_mergedCoef`). Both sides drop the zeros, so the merged row and the
objective's view are the same list of pairs (`row_merge_matches_objective`), whatever the
coefficients are, NaN and infinities included.
-/
namespace Milp

/-- An objective coefficient summed from `+0` is the merged coefficient, up to the sign of a
zero. -/
theorem sameUpToZeroSign_mergedCoef (es : List (Nat × Float)) (j : Nat) :
    Num.SameUpToZeroSign ((coefsOf es j).foldl (· + ·) 0) (mergedCoef es j) := by
  unfold mergedCoef
  cases coefsOf es j with
  | nil => exact .inl rfl
  | cons c rest =>
    rw [List.foldl_cons]
    exact (Num.sameUpToZeroSign_zero_add c).foldl rest

/-- A merged row lists each id of its entries whose merged coefficient is not a zero, with that
coefficient. -/
theorem mem_mergeEntries_iff (es : List (Nat × Float)) (j : Nat) (c : Float) :
    (j, c) ∈ mergeEntries es ↔ j ∈ es.map Prod.fst ∧ c = mergedCoef es j ∧ (mergedCoef es j != 0) = true := by
  constructor
  · intro merged
    have sum : c = mergedCoef es j := mergeEntries_sums es (j, c) merged
    have key := (mem_keys_mergeEntries es j).mp (List.mem_map_of_mem (f := Prod.fst) merged)
    exact ⟨key.1, sum, key.2⟩
  · rintro ⟨key, rfl, nonzero⟩
    obtain ⟨p, merged, rfl⟩ := List.mem_map.mp ((mem_keys_mergeEntries es j).mpr ⟨key, nonzero⟩)
    rw [← mergeEntries_sums es p merged]
    exact merged

/-- After entries are added to a blank objective over `n` variables, the objective lists each id
below `n` whose coefficients, summed from `+0`, are not a zero, with that sum. -/
theorem mem_terms_accumulate_blank (n : Nat) (es : List (Nat × Float)) (k : Float) (j : Nat) (c : Float) :
    (j, c) ∈ (ObjectiveView.mk (Model.accumulate (Array.replicate n 0) es) k).terms.items ↔
      j < n ∧ (coefsOf es j).foldl (· + ·) 0 = c ∧ (c != 0) = true := by
  rw [ObjectiveView.mem_terms, Model.getElem?_accumulate, Array.getElem?_replicate, Num.scalar_zero_float]
  by_cases below : j < n
  · -- the coefficients added to `j` are the entries of `j`
    simp only [below, if_true, Option.map_some, Option.some.injEq, true_and]
    exact Iff.rfl
  · simp [below]

/-- A row's merged factors are what a blank objective lists once the row's entries are added to it,
for every coefficient, NaN and infinities included: both sum each id's coefficients in order and
drop the zero sums. -/
theorem row_merge_matches_objective (n : Nat) (t : List (Nat × Float)) (k : Float)
    (inside : ∀ p ∈ t, p.1 < n) {m : Model Float} (blank : m.varObj = Array.replicate n 0) :
    ∃ s, m.tryAddObj (.linear ⟨t, k⟩) = .ok s ∧ s.result = .ok () ∧ s.model.objective.terms.fault = none ∧
      ∀ i lower upper, factorsOf n ((⟨t, lower, upper⟩ : Row Float).viewAt i) = .ok s.model.objective.terms.items := by
  have vars : m.nbVariables = n := by simp [Model.nbVariables, blank]
  have reads : (Expr.linear ⟨t, k⟩).terms = ⟨t, none⟩ := Expr.terms_linear _
  have accepted : (Expr.linear ⟨t, k⟩).terms.firstOutside m.nbVariables = none := by
    rw [Terms.firstOutside_eq_none_iff, reads, vars]
    intro j key
    obtain ⟨p, entry, rfl⟩ := List.mem_map.mp key
    exact inside p entry
  refine ⟨_, Model.tryAddObj_of_inside m _ accepted (by rw [reads]), rfl, ObjectiveView.terms_fault _,
    fun i lower upper => ?_⟩
  -- the objective lists exactly the merged pairs
  have listed : (ObjectiveView.mk (Model.accumulate m.varObj t) (m.objConstant + k)).terms.items =
      mergeEntries t := by
    rw [blank]
    apply eq_of_keys_lt (ObjectiveView.ids_lt _) (keys_mergeEntries_lt t)
    rintro ⟨j, c⟩
    rw [mem_terms_accumulate_blank, mem_mergeEntries_iff]
    have same := sameUpToZeroSign_mergedCoef t j
    by_cases key : j ∈ t.map Prod.fst
    · have below : j < n := by
        obtain ⟨p, entry, rfl⟩ := List.mem_map.mp key
        exact inside p entry
      -- the two sums are zeros together, and equal when they are not
      have zeros := same.beq_zero_eq
      simp only [Num.scalar_zero_float] at zeros
      constructor
      · rintro ⟨-, rfl, nonzero⟩
        have kept : ((coefsOf t j).foldl (· + ·) 0 == 0) = false := Num.beq_eq_false_of_bne nonzero
        rw [same.eq_of_beq_zero_false kept] at nonzero ⊢
        exact ⟨key, rfl, nonzero⟩
      · rintro ⟨-, rfl, nonzero⟩
        have kept : (mergedCoef t j == 0) = false := Num.beq_eq_false_of_bne nonzero
        rw [← zeros] at kept
        rw [← same.eq_of_beq_zero_false kept] at nonzero ⊢
        exact ⟨below, rfl, nonzero⟩
    · -- an id without entries keeps `+0`, which is not listed
      have none : coefsOf t j = [] := coefsOf_eq_nil fun p entry same => key (same ▸ List.mem_map_of_mem entry)
      simp only [none, List.foldl_nil, key, false_and, iff_false, not_and]
      rintro - rfl
      decide
  have ids : ∀ j ∈ ((⟨t, lower, upper⟩ : Row Float).viewAt i).subj, j < n := by
    intro j key
    simp only [Row.viewAt, Row.ids, List.mem_toArray, List.mem_map] at key
    obtain ⟨p, entry, rfl⟩ := key
    exact inside p entry
  rw [factorsOf_of_inside ids, Row.viewAt_terms]
  show _ = Except.ok (ObjectiveView.mk (Model.accumulate m.varObj (Expr.linear ⟨t, k⟩).terms.items) _).terms.items
  rw [reads]
  exact congrArg Except.ok listed.symm

/-- Three variables and the entries `-0·x₂ + 1·x₀ + 5·x₂ - 1·x₀`: merging cancels `x₀` and sums
`x₂` from `-0`, the objective of a fresh model sums from `+0`, and both list `5·x₂` alone. -/
theorem row_merge_matches_objective_example :
    let t : List (Nat × Float) := [(2, -0), (0, 1), (2, 5), (0, -1)]
    ∃ m, (Model.new : Model Float).run (List.replicate 3 (.addVar .default)) = .ok m ∧
      (∀ p ∈ t, p.1 < 3) ∧ m.varObj = Array.replicate 3 0 ∧
      ∃ s, m.tryAddObj (.linear ⟨t, 0⟩) = .ok s ∧ s.result = .ok () ∧ s.model.objective.terms.fault = none ∧
        ∀ i lower upper, factorsOf 3 ((⟨t, lower, upper⟩ : Row Float).viewAt i) = .ok s.model.objective.terms.items := by
  intro t
  have inside : ∀ p ∈ t, p.1 < 3 := by decide
  exact ⟨_, rfl, inside, rfl, row_merge_matches_objective 3 t 0 inside rfl⟩

end Milp
