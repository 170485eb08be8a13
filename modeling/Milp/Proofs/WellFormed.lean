import Milp.Proofs.Rows
import Milp.Solver.Dummy
import Milp.Solver.Problem

/-!
# The store's representation invariant

Every run keeps the eleven vectors of the store in shape: the four attribute vectors share the
number of variables, the pointer pairs and the two side vectors the number of rows, the two entry
vectors the number of entries, and the pointer pairs tile the entries from `0` in id order
(`Shaped`). It is read off the row relation of `Rows` with aligned attribute vectors (`Stored`),
which every call keeps (`Stored.exec`).

A block whose end wraps past `2 ^ 64` cuts the attribute vectors short, and the rows may then name
variables that no longer exist. A run in which no block wraps keeps every stored id inside
(`Closed`, `Closed.run`), and the store is then well formed (`WellFormed`).

On every model a run reaches, no reader slices or indexes out of range and none cuts a vector
short: each row can be read, the list of rows has one view per row, the four-way read of the
attributes has one entry per variable, and the data-only hand-off copies the whole model. The solver
hand-off looks each stored id up among the columns, and copies the model without a fault wherever
every stored id is inside.
-/
namespace Milp

namespace Model

variable {α : Type}

/-- The shape of the store: parallel vectors share their lengths, and the pointer pairs tile the
entry vectors in order (the first starts at `0`, each ends where the next starts, the last ends at
the number of entries, and there are no entries without rows). -/
structure Shaped (m : Model α) : Prop extends m.Aligned where
  rowLower : m.conLb.size = m.nbConstraints
  rowUpper : m.conUb.size = m.nbConstraints
  entries : m.aCof.size = m.nbEntries
  firstStart : ∀ p : Nat × Nat, m.conPtr[0]? = some p → p.1 = 0
  ordered : ∀ (i : Nat) (p : Nat × Nat), m.conPtr[i]? = some p → p.1 ≤ p.2
  consecutive : ∀ (i : Nat) (p q : Nat × Nat), m.conPtr[i]? = some p → m.conPtr[i + 1]? = some q → p.2 = q.1
  lastEnd : ∀ p : Nat × Nat, m.conPtr.back? = some p → p.2 = m.nbEntries
  noEntries : m.nbConstraints = 0 → m.nbEntries = 0

/-- The representation invariant: the store is in shape and every stored id names a variable. -/
structure WellFormed (m : Model α) : Prop extends m.Shaped where
  inside : ∀ j ∈ m.aSubj, j < m.nbVariables

/-- What every run keeps, read through the rows `R` it added: aligned attribute vectors and a store
that holds `R`. -/
structure Stored (R : List (Row α)) (m : Model α) : Prop extends m.Aligned, m.Holds R

/-- A store whose rows name only its variables. -/
structure Closed (R : List (Row α)) (m : Model α) : Prop extends m.Stored R where
  ids : ∀ r ∈ R, ∀ j ∈ r.ids, j < m.nbVariables

end Model

/-! ## Where a row's pointer pair lies -/

section
variable {α : Type}

/-- Each row ends where the next begins. -/
theorem entryCount_take_succ (R : List (Row α)) {i : Nat} (inside : i < R.length) :
    entryCount (R.take (i + 1)) = entryCount (R.take i) + R[i].length := by
  rw [List.take_add_one, List.getElem?_eq_getElem inside, Option.toList_some, entryCount_append]
  simp [entryCount]

/-- A pointer pair found at `i` is row `i`'s. -/
theorem Model.Holds.pair {R : List (Row α)} {m : Model α} {i : Nat} {p : Nat × Nat} (holds : m.Holds R)
    (found : m.conPtr[i]? = some p) :
    ∃ inside : i < R.length, p = (entryCount (R.take i), entryCount (R.take i) + R[i].length) := by
  rw [← Array.getElem?_toList, holds.ptr] at found
  have inside : i < R.length := by
    simpa using (List.getElem?_eq_some_iff.mp found).1
  rw [spans_getElem? R inside] at found
  exact ⟨inside, (Option.some.inj found).symm⟩

end

namespace Model

variable {α : Type} {R : List (Row α)} {m : Model α}

/-- The tiling and every length follow from the rows. -/
theorem Stored.shaped (stored : m.Stored R) : m.Shaped where
  toAligned := stored.toAligned
  rowLower := by rw [← Array.length_toList, stored.lower, List.length_map, stored.nbConstraints]
  rowUpper := by rw [← Array.length_toList, stored.upper, List.length_map, stored.nbConstraints]
  entries := stored.entries
  firstStart := by
    intro p first
    obtain ⟨-, rfl⟩ := stored.pair first
    simp [entryCount]
  ordered := by
    intro i p found
    obtain ⟨-, rfl⟩ := stored.pair found
    simp
  consecutive := by
    intro i p q here next
    obtain ⟨inside, rfl⟩ := stored.pair here
    obtain ⟨-, rfl⟩ := stored.pair next
    exact (entryCount_take_succ R inside).symm
  lastEnd := by
    intro p last
    rw [Array.back?_eq_getElem?] at last
    obtain ⟨inside, rfl⟩ := stored.pair last
    have rows : m.conPtr.size = R.length := stored.nbConstraints
    have whole : m.conPtr.size - 1 + 1 = R.length := by omega
    rw [← entryCount_take_succ R inside, whole, List.take_length, stored.nbEntries]
  noEntries := by
    intro none
    rw [stored.nbConstraints, List.length_eq_zero_iff] at none
    rw [stored.nbEntries, none]
    rfl

/-- A stored id is an id of one of the rows. -/
theorem Stored.mem_subj (stored : m.Stored R) {j : Nat} : j ∈ m.aSubj ↔ ∃ r ∈ R, j ∈ r.ids := by
  rw [← Array.mem_toList_iff, stored.subj, List.mem_flatMap]

/-- The ids of the rows are the stored ids, so a closed store is well formed. -/
theorem Closed.wellFormed (closed : m.Closed R) : m.WellFormed where
  toShaped := closed.shaped
  inside := by
    intro j member
    obtain ⟨r, row, found⟩ := closed.mem_subj.mp member
    exact closed.ids r row j found

theorem stored_new [Scalar α] : (Model.new : Model α).Stored [] := ⟨⟨rfl, rfl, rfl⟩, holds_new⟩

theorem closed_new [Scalar α] : (Model.new : Model α).Closed [] := ⟨stored_new, by simp⟩

end Model

/-! ## One call keeps the invariant -/

namespace Call

variable {α : Type} [MachineScalar α]

/-- The row a call adds has only ids inside the model it was added to. -/
theorem ids_rowAt {c : Call α} {n : Nat} {r : Row α} (added : r ∈ c.rowAt n) : ∀ j ∈ r.ids, j < n := by
  cases c with
  | addConstraint c =>
    by_cases inside : c.terms.firstOutside n = none
    · simp only [rowAt, inside, if_true, List.mem_singleton] at added
      subst added
      exact (Terms.firstOutside_eq_none_iff c.terms n).mp inside
    · simp [rowAt, inside] at added
  | _ => simp [rowAt] at added

end Call

namespace Model

variable {α : Type} [MachineScalar α] {m m' : Model α} {c : Call α}

/-- Every call keeps the attribute vectors aligned: a variable is pushed onto all four, a block
resizes all four to one length, and every other call writes inside a vector or not at all. -/
theorem Aligned.exec (aligned : m.Aligned) (entries : m.aCof.size = m.aSubj.size) (ran : m.exec c = .ok m') :
    m'.Aligned := by
  have lower := aligned.lowerBounds
  have upper := aligned.upperBounds
  have types := aligned.categories
  cases c with
  | addVar o =>
    cases ran
    constructor <;> simp_all [addVar, nbVariables]
  | addVars count table =>
    obtain ⟨-, rfl⟩ := exec_addVars ran
    constructor <;> simp [addVars, nbVariables]
  | addObj e =>
    rcases exec_addObj ran with ⟨j, -, rfl⟩ | ⟨-, -, rfl⟩
    · exact aligned
    · constructor <;> simp_all [nbVariables]
  | addConstraint c =>
    rcases exec_addConstraint entries ran with ⟨j, -, rfl⟩ | ⟨-, -, rfl⟩
    · exact aligned
    · exact ⟨lower, upper, types⟩
  | set a v =>
    rcases exec_set ran with ⟨-, rfl⟩ | ⟨-, rfl⟩
    · exact aligned
    · cases a <;> constructor <;> simp_all [assign, nbVariables]
  | setSense s =>
    cases ran
    exact ⟨lower, upper, types⟩

/-- One call keeps the invariant, with the row it adds at the end. -/
theorem Stored.exec {R : List (Row α)} (stored : m.Stored R) (ran : m.exec c = .ok m') :
    m'.Stored (R ++ c.rowAt m.nbVariables) :=
  ⟨stored.toAligned.exec stored.entries ran, exec_holds stored.toHolds ran⟩

/-- One call that wraps no block keeps the rows closed: earlier rows keep their ids and the model
keeps its variables, and a new row was checked against them. -/
theorem Closed.exec {R : List (Row α)} (closed : m.Closed R) (fits : c.fits m.nbVariables)
    (ran : m.exec c = .ok m') : m'.Closed (R ++ c.rowAt m.nbVariables) := by
  have grown : m'.nbVariables = c.grow m.nbVariables := exec_nbVariables closed.entries ran
  refine ⟨closed.toStored.exec ran, ?_⟩
  intro r member j found
  rw [grown]
  rcases List.mem_append.mp member with old | new
  · exact Nat.lt_of_lt_of_le (closed.ids r old j found) (Call.le_grow fits)
  · exact Nat.lt_of_lt_of_le (Call.ids_rowAt new j found) (Call.le_grow fits)

/-- A run that wraps no block keeps the rows closed, with the rows it adds at the end. -/
theorem Closed.run {R : List (Row α)} (closed : m.Closed R) {calls : List (Call α)}
    (fits : Call.Fits m.nbVariables calls) (ran : m.run calls = .ok m') :
    m'.Closed (R ++ Call.rowsAdded m.nbVariables calls) := by
  induction calls generalizing R m with
  | nil =>
    cases ran
    simpa using closed
  | cons c rest ih =>
    obtain ⟨m₁, first, later⟩ := run_cons_eq_ok.mp ran
    obtain ⟨now, after⟩ := Call.fits_cons.mp fits
    have grown : m₁.nbVariables = c.grow m.nbVariables := exec_nbVariables closed.entries first
    have kept := ih (closed.exec now first) (grown ▸ after) later
    rw [grown, List.append_assoc] at kept
    rwa [Call.rowsAdded_cons]

/-- Every reachable model keeps the invariant, read through some list of rows. -/
theorem Reachable.stored (reach : m.Reachable) : ∃ R, m.Stored R := by
  obtain ⟨calls, ran⟩ := reach
  have step : ∀ (m m' : Model α) (c : Call α), (∃ R, m.Stored R) → m.exec c = .ok m' → ∃ R, m'.Stored R := by
    rintro m m' c ⟨R, stored⟩ ran
    exact ⟨_, stored.exec ran⟩
  exact run_preserves step calls Model.new m ⟨[], stored_new⟩ ran

theorem Reachable.shaped (reach : m.Reachable) : m.Shaped := by
  obtain ⟨R, stored⟩ := reach.stored
  exact stored.shaped

/-- A run from the empty model that wraps no block ends in a closed store. -/
theorem closed_of_run {calls : List (Call α)} (fits : Call.Fits 0 calls) (ran : Model.new.run calls = .ok m) :
    m.Closed (Call.rowsAdded 0 calls) := by
  have closed := closed_new.run fits ran
  rwa [List.nil_append] at closed

end Model

/-! ## The readers of a well-formed store -/

namespace Model

variable {α : Type} {R : List (Row α)} {m : Model α}

/-- Every row inside the model can be read. -/
theorem Stored.tryConstraint_ok (stored : m.Stored R) {i : Nat} (inside : i < m.nbConstraints) :
    ∃ v, m.tryConstraint i = .ok (.ok v) :=
  ⟨_, stored.tryConstraint (stored.nbConstraints ▸ inside)⟩

/-- The list of rows is the views of the rows the store holds. -/
theorem Stored.views (stored : m.Stored R) :
    m.constraints = (R.zipIdx.map fun q => q.1.viewAt q.2).map .ok := by
  rw [stored.constraints, List.map_map]
  rfl

/-- With every stored id inside, every id of every view is inside. -/
theorem Stored.views_inside (stored : m.Stored R) (inside : ∀ j ∈ m.aSubj, j < m.nbVariables) :
    ∀ v ∈ R.zipIdx.map (fun q => q.1.viewAt q.2), ∀ j ∈ v.subj, j < m.nbVariables := by
  intro v listed j found
  obtain ⟨q, member, rfl⟩ := List.mem_map.mp listed
  exact inside j (stored.mem_subj.mpr ⟨q.1, List.fst_mem_of_mem_zipIdx member, by simpa [Row.viewAt] using found⟩)

/-- The list of rows has one view per row, each made without a fault. -/
theorem Stored.constraints_ok (stored : m.Stored R) :
    ∃ views : List (ConstraintView α), m.constraints = views.map .ok ∧ views.length = m.nbConstraints :=
  ⟨_, stored.views, by simp [stored.nbConstraints]⟩

/-- The four attribute vectors read in step give one entry per variable: nothing is cut short. -/
theorem Aligned.vars_length (aligned : m.Aligned) : m.vars.length = m.nbVariables := by
  have lower := aligned.lowerBounds
  have upper := aligned.upperBounds
  have types := aligned.categories
  simp only [nbVariables] at lower upper types
  simp [vars, List.length_zip, lower, upper, types, nbVariables]

end Model

/-! ### The data-only backend -/

namespace Snapshot

/-- Copying views that were all made copies each of them, in order. -/
theorem pushRows_map_ok (s : Snapshot) (views : List (ConstraintView Float)) :
    s.pushRows (views.map .ok) = .ok (views.foldl pushRow s) := by
  induction views generalizing s with
  | nil => rfl
  | cons v rest ih => exact ih (s.pushRow v)

/-- Copying rows adds one pointer pair per row and leaves the columns as they were. -/
theorem foldl_pushRow (s : Snapshot) (views : List (ConstraintView Float)) :
    (views.foldl pushRow s).costs = s.costs ∧ (views.foldl pushRow s).aPtr.size = s.aPtr.size + views.length := by
  induction views generalizing s with
  | nil => simp
  | cons v rest ih =>
    obtain ⟨costs, rows⟩ := ih (s.pushRow v)
    refine ⟨costs, ?_⟩
    rw [List.foldl_cons, rows]
    simp [pushRow]
    omega

end Snapshot

/-- A model whose rows can all be made is copied whole: one column per variable and one row per
view. -/
theorem Snapshot.ofModel_of_views {m : Model Float} {views : List (ConstraintView Float)}
    (made : m.constraints = views.map .ok) :
    ∃ s, Snapshot.ofModel m = .ok s ∧ s.numCols = m.nbVariables ∧ s.numRows = views.length := by
  obtain ⟨costs, rows⟩ := Snapshot.foldl_pushRow ⟨m.sense, m.varObj, m.objConstant, m.varLb, m.varUb, m.varType,
    #[], #[], #[], #[], #[], #[]⟩ views
  refine ⟨_, by rw [Snapshot.ofModel, made, Snapshot.pushRows_map_ok], ?_, ?_⟩
  · rw [Snapshot.numCols, costs]
    rfl
  · rw [Snapshot.numRows, rows]
    simp

/-! ### The solver hand-off -/

/-- Summing a run of equal ids keeps the id of an entry. -/
theorem mem_coalesceFrom {cur : Nat × Float} {rest : List (Nat × Float)} {p : Nat × Float}
    (merged : p ∈ coalesceFrom cur rest) : ∃ q ∈ cur :: rest, q.1 = p.1 := by
  induction rest generalizing cur with
  | nil =>
    simp only [coalesceFrom, List.mem_singleton] at merged
    exact ⟨cur, by simp, by rw [merged]⟩
  | cons e rest ih =>
    obtain ⟨k, b⟩ := e
    unfold coalesceFrom at merged
    split at merged
    · -- the pending pair absorbed the entry and kept its id
      obtain ⟨q, member, same⟩ := ih merged
      rcases List.mem_cons.mp member with rfl | later
      · exact ⟨cur, by simp, same⟩
      · exact ⟨q, by simp [later], same⟩
    · rcases List.mem_cons.mp merged with rfl | later
      · exact ⟨p, by simp, rfl⟩
      · obtain ⟨q, member, same⟩ := ih later
        exact ⟨q, List.mem_cons_of_mem _ member, same⟩

/-- Merging keeps only ids of the entries. -/
theorem mem_mergeEntries {es : List (Nat × Float)} {p : Nat × Float} (merged : p ∈ mergeEntries es) :
    ∃ q ∈ es, q.1 = p.1 := by
  have summed := (List.mem_filter.mp merged).1
  generalize sorted : es.mergeSort (fun a b => a.1 ≤ b.1) = xs at summed
  cases xs with
  | nil => simp [coalesce] at summed
  | cons x rest =>
    obtain ⟨q, member, same⟩ := mem_coalesceFrom summed
    rw [← sorted, List.mem_mergeSort] at member
    exact ⟨q, member, same⟩

/-- With every id of a row among the columns, every merged id is found among them. -/
theorem factorsOf_of_inside {ncols : Nat} {v : ConstraintView Float} (inside : ∀ j ∈ v.subj, j < ncols) :
    factorsOf ncols v = .ok (mergeEntries v.terms) := by
  have found : ∀ p ∈ mergeEntries v.terms, p.1 < ncols := by
    intro p merged
    obtain ⟨⟨j, a⟩, entry, same⟩ := mem_mergeEntries merged
    rw [← same]
    exact inside j (Array.mem_toList_iff.mp (List.of_mem_zip entry).1)
  unfold factorsOf
  generalize mergeEntries v.terms = fs at found ⊢
  induction fs with
  | nil => rfl
  | cons p rest ih =>
    have head := found p (by simp)
    have tail := ih fun q member => found q (by simp [member])
    simp [head, tail, bind, Except.bind, pure, Except.pure]

/-- A list read element by element has as many results as elements. -/
theorem length_of_mapM_eq_ok {β γ ε : Type} {f : β → Except ε γ} {xs : List β} {ys : List γ}
    (read : xs.mapM f = .ok ys) : ys.length = xs.length := by
  induction xs generalizing ys with
  | nil =>
    cases read
    rfl
  | cons x rest ih =>
    simp only [List.mapM_cons, bind_eq_ok] at read
    obtain ⟨y, -, ys', later, done⟩ := read
    simp only [pure, Except.pure, Except.ok.injEq] at done
    rw [← done, List.length_cons, List.length_cons, ih later]

/-- Views that were all made, with all their ids among the columns, are handed over without a
fault: one merged row per view, unless a non-finite coefficient refuses the model. -/
theorem rowsOf_map_ok (ncols : Nat) (views : List (ConstraintView Float))
    (inside : ∀ v ∈ views, ∀ j ∈ v.subj, j < ncols) :
    ∃ r, Problem.rowsOf ncols (views.map .ok) = .ok r ∧
      ∀ rows merged, r = .ok (rows, merged) → rows.length = views.length := by
  induction views with
  | nil => exact ⟨_, rfl, by simp⟩
  | cons v rest ih =>
    obtain ⟨r, handed, lengths⟩ := ih fun w member => inside w (by simp [member])
    have factors := factorsOf_of_inside (inside v (by simp))
    cases finite : firstNonFinite v with
    | some e =>
      -- a non-finite entry refuses the model before the row is merged
      refine ⟨.error (.invalidCoefficient (some v.id) e.1 e.2), by simp [Problem.rowsOf, finite], ?_⟩
      simp
    | none =>
      cases r with
      | error e =>
        refine ⟨.error e, by simp [Problem.rowsOf, finite, factors, handed], ?_⟩
        simp
      | ok out =>
        obtain ⟨rows, merged⟩ := out
        refine ⟨.ok (⟨mergeEntries v.terms, v.lower, v.upper⟩ :: rows,
          v.subj.size - (mergeEntries v.terms).length + merged), by simp [Problem.rowsOf, finite, factors, handed], ?_⟩
        intro rows' merged' same
        cases same
        simp [lengths rows merged rfl]

/-- An aligned model whose rows can all be made, with their ids among the variables, is handed
over without a fault: one column per variable and one row per view, unless a non-finite
coefficient refuses it. -/
theorem Problem.ofModel_of_views {m : Model Float} (aligned : m.Aligned) {views : List (ConstraintView Float)}
    (made : m.constraints = views.map .ok) (inside : ∀ v ∈ views, ∀ j ∈ v.subj, j < m.nbVariables) :
    ∃ r, Problem.ofModel m = .ok r ∧
      ∀ p merged, r = .ok (p, merged) → p.columns.size = m.nbVariables ∧ p.rows.size = views.length := by
  cases columns : Problem.columnsOf m with
  | error e =>
    refine ⟨.error e, by simp [Problem.ofModel, columns], ?_⟩
    simp
  | ok cols =>
    have count : cols.length = m.nbVariables := by
      rw [length_of_mapM_eq_ok columns, List.length_zipIdx, aligned.vars_length]
    obtain ⟨r, handed, lengths⟩ := rowsOf_map_ok cols.length views (count ▸ inside)
    cases r with
    | error e =>
      refine ⟨.error e, by simp [Problem.ofModel, columns, made, handed], ?_⟩
      simp
    | ok out =>
      obtain ⟨rows, merged⟩ := out
      refine ⟨.ok (⟨m.sense, cols.toArray, rows.toArray⟩, merged),
        by simp [Problem.ofModel, columns, made, handed], ?_⟩
      intro p merged' same
      cases same
      simp [count, lengths rows merged rfl]

/-! ## Every run keeps the store in shape -/

/-- Every run from the empty model keeps the store in shape, and one that wraps no block keeps it
well formed. No reader of a model a run reaches slices or indexes out of range or cuts a vector
short, the data-only hand-off copies it whole, and so does the solver hand-off wherever every
stored id is inside. -/
theorem reachable_store_wellFormed {calls : List (Call Float)} {m : Model Float}
    (ran : Model.new.run calls = .ok m) :
    m.Shaped ∧ (Call.Fits 0 calls → m.WellFormed) ∧
      (∀ i < m.nbConstraints, ∃ v, m.tryConstraint i = .ok (.ok v)) ∧
      (∃ views : List (ConstraintView Float), m.constraints = views.map .ok ∧ views.length = m.nbConstraints) ∧
      m.vars.length = m.nbVariables ∧
      (∃ s, Snapshot.ofModel m = .ok s ∧ s.numCols = m.nbVariables ∧ s.numRows = m.nbConstraints) ∧
      ((∀ j ∈ m.aSubj, j < m.nbVariables) → ∃ r, Problem.ofModel m = .ok r ∧
        ∀ p merged, r = .ok (p, merged) → p.columns.size = m.nbVariables ∧ p.rows.size = m.nbConstraints) := by
  obtain ⟨R, stored⟩ := Model.Reachable.stored ⟨calls, ran⟩
  have count : (R.zipIdx.map fun q => q.1.viewAt q.2).length = m.nbConstraints := by
    simp [stored.nbConstraints]
  refine ⟨stored.shaped, fun fits => (Model.closed_of_run fits ran).wellFormed,
    fun i below => stored.tryConstraint_ok below, stored.constraints_ok, stored.toAligned.vars_length, ?_, ?_⟩
  · rw [← count]
    exact Snapshot.ofModel_of_views stored.views
  · intro inside
    rw [← count]
    exact Problem.ofModel_of_views stored.toAligned stored.views (stored.views_inside inside)

/-- A variable, a block of two, an objective, a row, a refused row whose first entry was appended
and cut back, and a bound written: the run ends, no block wraps, and every stored id is inside. -/
theorem reachable_store_wellFormed_example :
    let calls : List (Call Float) :=
      [.addVar .default, .addVars 2 #[1, 2], .addObj (.add (.var 0) (.scale 3 (.var 2))),
       .addConstraint ⟨.add (.var 2) (.var 0), 0, 1⟩, .addConstraint ⟨.add (.var 1) (.var 5), 0, 1⟩,
       .set (.lowerBound 1) ⟨1⟩]
    ∃ m, Model.new.run calls = .ok m ∧ Call.Fits 0 calls ∧ (∀ j ∈ m.aSubj, j < m.nbVariables) ∧
      m.Shaped ∧ (Call.Fits 0 calls → m.WellFormed) ∧
      (∀ i < m.nbConstraints, ∃ v, m.tryConstraint i = .ok (.ok v)) ∧
      (∃ views : List (ConstraintView Float), m.constraints = views.map .ok ∧ views.length = m.nbConstraints) ∧
      m.vars.length = m.nbVariables ∧
      (∃ s, Snapshot.ofModel m = .ok s ∧ s.numCols = m.nbVariables ∧ s.numRows = m.nbConstraints) ∧
      ((∀ j ∈ m.aSubj, j < m.nbVariables) → ∃ r, Problem.ofModel m = .ok r ∧
        ∀ p merged, r = .ok (p, merged) → p.columns.size = m.nbVariables ∧ p.rows.size = m.nbConstraints) := by
  intro calls
  have ran : Model.new.run calls = .ok _ := rfl
  exact ⟨_, ran, by decide +kernel, by decide +kernel, reachable_store_wellFormed ran⟩

/-- Two variables, a row on the second, then a block of `2 ^ 64 - 1` variables: the number of
variables wraps to one, the row's id is left outside, and the solver hand-off faults at its column. -/
theorem wrapped_block_strands_row_id :
    let calls : List (Call Float) :=
      [.addVar .default, .addVar .default, .addConstraint ⟨.var 1, 0, 1⟩, .addVars (2 ^ 64 - 1) #[]]
    ∃ m, Model.new.run calls = .ok m ∧ m.nbVariables = 1 ∧ 1 ∈ m.aSubj ∧ ¬m.WellFormed ∧
      Problem.ofModel m = .error (Vec.outOfBounds 1 1) := by
  intro calls
  -- the first three calls are evaluated; the block goes through its lemma, past the wrapped sum
  refine ⟨_, Model.run_cons_eq_ok.mpr ⟨_, rfl, Model.run_cons_eq_ok.mpr ⟨_, rfl, Model.run_cons_eq_ok.mpr ⟨_, rfl,
    Model.run_cons_eq_ok.mpr ⟨_, Model.exec_addVars_of_limit ?limit, rfl⟩⟩⟩⟩, ?count, ?member, ?broken, ?fault⟩
  case limit => decide +kernel
  case count => decide +kernel
  case member => decide +kernel
  case broken => exact fun wf => absurd (wf.inside 1 (by decide +kernel)) (by decide +kernel)
  case fault => exact eq_error_iff.mpr (by decide +kernel)

end Milp
