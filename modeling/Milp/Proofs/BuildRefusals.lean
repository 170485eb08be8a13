import Mathlib.Data.Nat.Find
import Milp.Proofs.Finiteness
import Milp.Script.Run

/-!
# Which coefficient a refused hand-off reports

The solver hand-off checks the costs in id order and then each row, in id order, entry by entry in
stored order, and stops at the first value that is not finite. `Model.FirstNonFinite` says which
value that is without following the traversals: the least variable whose cost is not finite, or,
when every cost is finite, the first non-finite entry of the least row that has one. A model that
a run reaches, with every stored id inside, is refused exactly when some cost or some stored
coefficient is not finite, and then with exactly that value
(`build_refuses_first_non_finite_coefficient`); bounds are never checked. A stored id left outside
by a wrapped block faults the hand-off before a later row's refusal
(`wrapped_block_faults_before_refusal`).

Both traversals stop at the first failure: a `mapM` whose items before some item all succeed fails
with that item's error (`mapM_append_cons_eq_error`), and the row loop refuses the first row with a
non-finite entry once the rows before it are merged (`rowsOf_append_cons`). An index splits the
traversed list into the items before it, the item, and the rest (`zipIdx_eq_take_append`).
-/
namespace Milp

/-! ## Traversals that stop at the first failure -/

/-- A traversal whose items before `x` all succeed stops at `x` with its error. -/
theorem mapM_append_cons_eq_error {β γ ε : Type} {f : β → Except ε γ} {pre post : List β} {x : β} {e : ε}
    (before : ∀ y ∈ pre, ∃ z, f y = .ok z) (fails : f x = .error e) : (pre ++ x :: post).mapM f = .error e := by
  induction pre with
  | nil => simp [List.mapM_cons, fails, bind, Except.bind]
  | cons y rest ih =>
    obtain ⟨z, made⟩ := before y List.mem_cons_self
    have later := ih fun w member => before w (List.mem_cons_of_mem y member)
    simp [List.mapM_cons, made, later, bind, Except.bind]

/-- A list's indexed items split at index `j`: those before it, the item at `j`, and the rest. -/
theorem zipIdx_eq_take_append {β : Type} (xs : List β) {j : Nat} (inside : j < xs.length) :
    xs.zipIdx = (xs.take j).zipIdx ++ (xs[j], j) :: (xs.drop (j + 1)).zipIdx (j + 1) := by
  conv => lhs; rw [← List.take_append_drop j xs, List.drop_eq_getElem_cons inside]
  rw [List.zipIdx_append, List.zipIdx_cons, List.length_take_of_le (Nat.le_of_lt inside)]
  simp

/-- An indexed item before index `j` sits at its own index, below `j`. -/
theorem mem_zipIdx_take {β : Type} {xs : List β} {j : Nat} {p : β × Nat} (member : p ∈ (xs.take j).zipIdx) :
    p.2 < j ∧ xs[p.2]? = some p.1 := by
  have found := List.mem_zipIdx_iff_getElem?.mp member
  rw [List.getElem?_take] at found
  split at found
  case isTrue below => exact ⟨below, found⟩
  case isFalse => cases found

/-! ## The first non-finite coefficient -/

/-- The attributes read for variable `k` carry its cost. -/
theorem Model.objCoef_of_vars_getElem? {α : Type} {m : Model α} {k : Nat} {o : VarOptions α}
    (found : m.vars[k]? = some o) : m.varObj[k]? = some o.objCoef := by
  unfold Model.vars at found
  rw [List.getElem?_map] at found
  obtain ⟨q, zipped, rfl⟩ := Option.map_eq_some_iff.mp found
  have cost := (List.getElem?_zip_eq_some.mp zipped).1
  simpa using cost

/-- The value a refused hand-off reports, stated on the model: row `none` and variable `j` when `j`
is the least variable whose cost is not finite; row `some i` and entry `(j, a)` when every cost is
finite, `i` is the least row with a non-finite entry, and `(j, a)` is its first one in stored order. -/
inductive Model.FirstNonFinite (m : Model Float) : Option Nat → Nat → Float → Prop
  | cost {j : Nat} {c : Float} (found : m.varObj[j]? = some c) (bad : c.isFinite = false)
      (before : ∀ k < j, ∀ d, m.varObj[k]? = some d → d.isFinite = true) : m.FirstNonFinite none j c
  | entry {i j : Nat} {a : Float} {v : ConstraintView Float} {pre post : List (Nat × Float)}
      (costs : ∀ c ∈ m.varObj, c.isFinite = true)
      (before : ∀ k < i, ∀ w, m.tryConstraint k = .ok (.ok w) → ∀ p ∈ w.terms, p.2.isFinite = true)
      (read : m.tryConstraint i = .ok (.ok v)) (split : v.terms = pre ++ (j, a) :: post)
      (bad : a.isFinite = false) (earlier : ∀ p ∈ pre, p.2.isFinite = true) : m.FirstNonFinite (some i) j a

/-- The costs are checked in id order: the least variable whose cost is not finite is refused. -/
theorem Problem.columnsOf_of_first {m : Model Float} (aligned : m.Aligned) {j : Nat} {c : Float}
    (found : m.varObj[j]? = some c) (bad : c.isFinite = false)
    (before : ∀ k < j, ∀ d, m.varObj[k]? = some d → d.isFinite = true) :
    Problem.columnsOf m = .error (.invalidCoefficient none j c) := by
  have inside : j < m.vars.length := by
    rw [aligned.vars_length]
    exact (Array.getElem?_eq_some_iff.mp found).1
  have own : m.vars[j].objCoef = c := by
    have cost := Model.objCoef_of_vars_getElem? (List.getElem?_eq_getElem inside)
    rw [found] at cost
    exact (Option.some.inj cost).symm
  unfold Problem.columnsOf
  rw [zipIdx_eq_take_append m.vars inside]
  apply mapM_append_cons_eq_error
  · rintro ⟨o, k⟩ member
    obtain ⟨below, listed⟩ := mem_zipIdx_take member
    have finite := before k below o.objCoef (Model.objCoef_of_vars_getElem? listed)
    exact ⟨Column.ofVar o, by simp [finite]⟩
  · simp [own, bad]

/-- Rows are checked in order, each merged before the next is read: after rows with no non-finite
entry, the first row with one is refused at its first non-finite entry. -/
theorem rowsOf_append_cons {ncols : Nat} {pre post : List (ConstraintView Float)} {v : ConstraintView Float}
    (inside : ∀ w ∈ pre, ∀ j ∈ w.subj, j < ncols) (finite : ∀ w ∈ pre, firstNonFinite w = none)
    {j : Nat} {a : Float} (first : firstNonFinite v = some (j, a)) :
    Problem.rowsOf ncols ((pre ++ v :: post).map .ok) = .ok (.error (.invalidCoefficient (some v.id) j a)) := by
  induction pre with
  | nil => simp [Problem.rowsOf, first]
  | cons w rest ih =>
    have later := ih (fun u member => inside u (by simp [member])) (fun u member => finite u (by simp [member]))
    have factors := factorsOf_of_inside (inside w (by simp))
    rw [List.cons_append, List.map_cons, Problem.rowsOf]
    simp only [finite w List.mem_cons_self, factors, later]

theorem Backend.ofModel_of_refused {m : Model Float} {row : Option Nat} {j : Nat} {c : Float}
    (refused : Problem.ofModel m = .ok (.error (.invalidCoefficient row j c))) :
    Backend.ofModel m = .ok (.error (.invalidCoefficient row j c, .nonFiniteCoefficient row j c)) := by
  simp [Backend.ofModel, refused]

/-- The rows of a model that holds `R` are checked in id order: after rows whose entries are all
finite, row `i` is refused at its first non-finite entry. -/
theorem Model.Stored.rowsOf_of_first {m : Model Float} {R : List (Row Float)} (stored : m.Stored R)
    (ids : ∀ j ∈ m.aSubj, j < m.nbVariables) {i j : Nat} {c : Float} {v : ConstraintView Float}
    (before : ∀ k < i, ∀ w, m.tryConstraint k = .ok (.ok w) → ∀ p ∈ w.terms, p.2.isFinite = true)
    (read : m.tryConstraint i = .ok (.ok v)) (first : firstNonFinite v = some (j, c)) :
    Problem.rowsOf m.nbVariables m.constraints = .ok (.error (.invalidCoefficient (some i) j c)) := by
  -- the row read is the stored row `i`
  have below : i < R.length := by
    apply Nat.lt_of_not_le
    intro outside
    rw [stored.tryConstraint_of_ge outside] at read
    cases read
  rw [stored.tryConstraint below, Except.ok.injEq, Except.ok.injEq] at read
  subst read
  have inside := stored.views_inside ids
  have views : R.zipIdx.map (fun q => q.1.viewAt q.2) =
      (R.take i).zipIdx.map (fun q => q.1.viewAt q.2) ++ R[i].viewAt i ::
        ((R.drop (i + 1)).zipIdx (i + 1)).map (fun q => q.1.viewAt q.2) := by
    rw [zipIdx_eq_take_append R below, List.map_append, List.map_cons]
  -- the rows before `i` have finite entries only
  have finite : ∀ w ∈ (R.take i).zipIdx.map (fun q => q.1.viewAt q.2), firstNonFinite w = none := by
    intro w listed
    obtain ⟨⟨r, k⟩, member, rfl⟩ := List.mem_map.mp listed
    obtain ⟨earlier, found⟩ : k < i ∧ R[k]? = some r := mem_zipIdx_take member
    obtain ⟨inR, same⟩ := List.getElem?_eq_some_iff.mp found
    have entries := before k earlier _ (stored.tryConstraint inR)
    rw [same] at entries
    simpa [firstNonFinite] using entries
  have earlierIds : ∀ w ∈ (R.take i).zipIdx.map (fun q => q.1.viewAt q.2), ∀ k ∈ w.subj, k < m.nbVariables :=
    fun w member => inside w (by rw [views]; exact List.mem_append_left _ member)
  rw [stored.views, views]
  exact rowsOf_append_cons earlierIds finite first

/-- A model that holds the rows `R` is refused with the value `Model.FirstNonFinite` names. -/
theorem Backend.ofModel_of_first {m : Model Float} {R : List (Row Float)} (stored : m.Stored R)
    (ids : ∀ j ∈ m.aSubj, j < m.nbVariables) {row : Option Nat} {j : Nat} {c : Float}
    (first : m.FirstNonFinite row j c) :
    Backend.ofModel m = .ok (.error (.invalidCoefficient row j c, .nonFiniteCoefficient row j c)) := by
  apply Backend.ofModel_of_refused
  cases first with
  | cost found bad before =>
    simp [Problem.ofModel, Problem.columnsOf_of_first stored.toAligned found bad before]
  | entry costs before read split bad earlier =>
    have count : (m.vars.zipIdx.map fun p => Column.ofVar p.1).length = m.nbVariables := by
      simp [stored.toAligned.vars_length]
    -- the first non-finite entry of the row, in stored order
    have firstEntry : firstNonFinite _ = some (j, c) :=
      List.find?_eq_some_iff_append.mpr ⟨by simp [bad], _, _, split, fun p member => by simp [earlier p member]⟩
    unfold Problem.ofModel
    simp only [Problem.columnsOf_of_finite costs, count, stored.rowsOf_of_first ids before read firstEntry]

/-- A model with some non-finite cost or stored coefficient has a first one: the least variable
with a non-finite cost, or else the least row with a non-finite entry and its first such entry. -/
theorem Model.Stored.exists_firstNonFinite {m : Model Float} {R : List (Row Float)} (stored : m.Stored R)
    (nonFinite : (∃ c ∈ m.varObj, c.isFinite = false) ∨ ∃ a ∈ m.aCof, a.isFinite = false) :
    ∃ row j c, m.FirstNonFinite row j c := by
  classical
  by_cases costly : ∃ c ∈ m.varObj, c.isFinite = false
  · have exists_cost : ∃ (j : Nat) (c : Float), m.varObj[j]? = some c ∧ c.isFinite = false := by
      obtain ⟨c, member, bad⟩ := costly
      obtain ⟨j, found⟩ := Array.mem_iff_getElem?.mp member
      exact ⟨j, c, found, bad⟩
    obtain ⟨c, found, bad⟩ := Nat.find_spec exists_cost
    refine ⟨none, _, c, .cost found bad fun k below d cost => ?_⟩
    by_contra notFinite
    exact Nat.find_min exists_cost below ⟨d, cost, by simpa using notFinite⟩
  · have costs : ∀ c ∈ m.varObj, c.isFinite = true := by
      intro c member
      by_contra notFinite
      exact costly ⟨c, member, by simpa using notFinite⟩
    obtain ⟨a, member, bad⟩ := nonFinite.resolve_left costly
    obtain ⟨v, listed, p, entry, rfl⟩ := stored.mem_views member
    have exists_row : ∃ (i : Nat) (w : ConstraintView Float), m.tryConstraint i = .ok (.ok w) ∧
        ∃ p ∈ w.terms, p.2.isFinite = false := by
      obtain ⟨⟨r, i⟩, inR, rfl⟩ := List.mem_map.mp listed
      obtain ⟨below, same⟩ := List.getElem?_eq_some_iff.mp (List.mem_zipIdx_iff_getElem?.mp inR)
      refine ⟨i, _, stored.tryConstraint below, p, ?_, bad⟩
      rw [same]
      exact entry
    -- the least such row, and its first non-finite entry in stored order
    obtain ⟨w, read, q, inW, badQ⟩ := Nat.find_spec exists_row
    have listedBad : (w.terms.find? fun p => !p.2.isFinite).isSome :=
      List.find?_isSome.mpr ⟨q, inW, by simp [badQ]⟩
    obtain ⟨⟨j, c⟩, first⟩ := Option.isSome_iff_exists.mp listedBad
    obtain ⟨badC, pre, post, split, earlier⟩ := List.find?_eq_some_iff_append.mp first
    refine ⟨some _, j, c, .entry costs (fun k below w' read' p' entry' => ?_) read split
      (by simpa using badC) (fun p' member => by simpa using earlier p' member)⟩
    by_contra notFinite
    exact Nat.find_min exists_row below ⟨w', read', p', entry', by simpa using notFinite⟩

/-- The hand-off refuses a reachable model with every stored id inside exactly when some cost or
stored coefficient is not finite, and reports the first in the order of the checks; a session step
logs that one warning after the build event. -/
theorem build_refuses_first_non_finite_coefficient {m : Model Float} (reach : m.Reachable)
    (ids : ∀ j ∈ m.aSubj, j < m.nbVariables) :
    ((∃ e ev, Backend.ofModel m = .ok (.error (e, ev))) ↔
      (∃ c ∈ m.varObj, c.isFinite = false) ∨ ∃ a ∈ m.aCof, a.isFinite = false) ∧
    (∀ e ev, Backend.ofModel m = .ok (.error (e, ev)) ↔
      ∃ row j c, m.FirstNonFinite row j c ∧ e = .invalidCoefficient row j c ∧
        ev = .nonFiniteCoefficient row j c) ∧
    (∀ (h : Highs) (s : Session) ops e ev, s.model = m → Backend.ofModel m = .ok (.error (e, ev)) →
      (s.step h (.solve ops)).session.log = (s.log.push m.buildEvent).push ev ∧
        m.buildEvent.level = .debug ∧ ev.level = .warn) := by
  obtain ⟨R, stored⟩ := reach.stored
  -- a model whose costs and coefficients are all finite is built, so a refused one has another
  have nonFinite : ∀ e ev, Backend.ofModel m = .ok (.error (e, ev)) →
      (∃ c ∈ m.varObj, c.isFinite = false) ∨ ∃ a ∈ m.aCof, a.isFinite = false := by
    intro e ev refused
    by_cases costs : ∀ c ∈ m.varObj, c.isFinite = true
    · by_cases entries : ∀ a ∈ m.aCof, a.isFinite = true
      · obtain ⟨b, built, handed⟩ := Backend.ofModel_of_finite reach ids costs entries
        rw [handed] at refused
        cases refused
      · exact .inr (by simpa using entries)
    · exact .inl (by simpa using costs)
  have reported : ∀ e ev, Backend.ofModel m = .ok (.error (e, ev)) →
      ∃ row j c, m.FirstNonFinite row j c ∧ e = .invalidCoefficient row j c ∧
        ev = .nonFiniteCoefficient row j c := by
    intro e ev refused
    obtain ⟨row, j, c, first⟩ := stored.exists_firstNonFinite (nonFinite e ev refused)
    have same := Backend.ofModel_of_first stored ids first
    rw [refused, Except.ok.injEq, Except.error.injEq, Prod.mk.injEq] at same
    exact ⟨row, j, c, first, same.1, same.2⟩
  refine ⟨⟨fun ⟨e, ev, refused⟩ => nonFinite e ev refused, fun bad => ?_⟩,
    fun e ev => ⟨reported e ev, ?_⟩, ?_⟩
  · obtain ⟨row, j, c, first⟩ := stored.exists_firstNonFinite bad
    exact ⟨_, _, Backend.ofModel_of_first stored ids first⟩
  · rintro ⟨row, j, c, first, rfl, rfl⟩
    exact Backend.ofModel_of_first stored ids first
  · rintro h s ops e ev rfl refused
    obtain ⟨row, j, c, -, -, rfl⟩ := reported e ev refused
    refine ⟨?_, rfl, rfl⟩
    simp [Session.step, Session.note, Session.goOn, refused]

/-- Two variables, the first with a NaN lower bound and the second with an infinite cost, and the
row `NaN·x₀ ≤ 1`: the cost is checked first, and the bound not at all. -/
theorem build_refuses_first_non_finite_coefficient_example :
    let calls : List (Call Float) :=
      [.addVar .default, .addVar .default, .set (.lowerBound (0 / 0)) ⟨0⟩, .set (.objCoef (1 / 0)) ⟨1⟩,
        .addConstraint (Constraint.ofBound (.linear ⟨[(0, 0 / 0)], 0⟩) (.lessThan 1))]
    ∃ m, Model.new.run calls = .ok m ∧ (∀ j ∈ m.aSubj, j < m.nbVariables) ∧
      ((∃ e ev, Backend.ofModel m = .ok (.error (e, ev))) ↔
        (∃ c ∈ m.varObj, c.isFinite = false) ∨ ∃ a ∈ m.aCof, a.isFinite = false) ∧
      (∀ e ev, Backend.ofModel m = .ok (.error (e, ev)) ↔
        ∃ row j c, m.FirstNonFinite row j c ∧ e = .invalidCoefficient row j c ∧
          ev = .nonFiniteCoefficient row j c) ∧
      (∀ (h : Highs) (s : Session) ops e ev, s.model = m → Backend.ofModel m = .ok (.error (e, ev)) →
        (s.step h (.solve ops)).session.log = (s.log.push m.buildEvent).push ev ∧
          m.buildEvent.level = .debug ∧ ev.level = .warn) := by
  intro calls
  have ran : Model.new.run calls = .ok _ := rfl
  refine ⟨_, ran, ?ids, build_refuses_first_non_finite_coefficient ⟨calls, ran⟩ ?ids⟩
  case ids => decide +kernel

/-- Two variables, a row on the second, a block of `2 ^ 64 - 1` variables and the row `NaN·x₀ ≤ 1`:
the block wraps the number of variables to one, and the hand-off faults at the first row's id
before it reaches the second row's NaN. -/
theorem wrapped_block_faults_before_refusal :
    let calls : List (Call Float) := [.addVar .default, .addVar .default, .addConstraint ⟨.var 1, 0, 1⟩,
      .addVars (2 ^ 64 - 1) #[], .addConstraint (Constraint.ofBound (.linear ⟨[(0, 0 / 0)], 0⟩) (.lessThan 1))]
    ∃ m, Model.new.run calls = .ok m ∧ (∃ a ∈ m.aCof, a.isFinite = false) ∧
      Backend.ofModel m = .error (Vec.outOfBounds 1 1) := by
  intro calls
  refine ⟨_, Model.run_cons_eq_ok.mpr ⟨_, rfl, Model.run_cons_eq_ok.mpr ⟨_, rfl, Model.run_cons_eq_ok.mpr ⟨_, rfl,
    Model.run_cons_eq_ok.mpr ⟨_, Model.exec_addVars_of_limit ?limit, Model.run_cons_eq_ok.mpr
      ⟨_, Model.exec_addConstraint_of_inside ?inside ?whole, rfl⟩⟩⟩⟩⟩, ⟨0 / 0, ?member, ?nan⟩, ?fault⟩
  case limit => decide +kernel
  case inside => decide +kernel
  case whole => decide +kernel
  case member => exact Array.mem_iff_getElem?.mpr ⟨1, rfl⟩
  case nan => decide +kernel
  case fault => exact eq_error_iff.mpr (by decide +kernel)

end Milp
