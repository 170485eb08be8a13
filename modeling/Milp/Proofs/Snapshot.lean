import Milp.Proofs.WellFormed

/-!
# The data-only backend copies the model verbatim

The backend copies the rows one view after another and rebuilds its pointer pairs from its own
entry count, so its copy is right only because the model's rows are contiguous. Read through the
rows `R` that a reachable model holds, the copy holds them the same way (`Snapshot.Holds`): its
pointer pairs, entry vectors and side vectors are the model's own, vector for vector. Its row
starts form a compressed row matrix, each start the previous one plus the previous row's length,
and its columns are the model's attribute vectors.

Building reads the model only: `Snapshot.ofModel` returns no model.
-/
namespace Milp

namespace Snapshot

/-- The copy holds the rows `R`: its pointer pairs lay them one after another from `0`, its entry
vectors hold their ids and coefficients in order, and its side vectors their sides. -/
structure Holds (R : List (Row Float)) (s : Snapshot) : Prop where
  ptr : s.aPtr.toList = spans 0 R
  subj : s.subj.toList = R.flatMap Row.ids
  cof : s.cof.toList = R.flatMap Row.coefs
  lower : s.rowLower.toList = R.map (·.lower)
  upper : s.rowUpper.toList = R.map (·.upper)

variable {R : List (Row Float)} {s : Snapshot}

theorem holds_empty (s : Snapshot) (ptr : s.aPtr = #[]) (subj : s.subj = #[]) (cof : s.cof = #[])
    (lower : s.rowLower = #[]) (upper : s.rowUpper = #[]) : s.Holds [] :=
  ⟨by simp [ptr, spans], by simp [subj], by simp [cof], by simp [lower], by simp [upper]⟩

/-- Copying a row's view puts the row after the rows copied so far: its pointer pair starts at the
entries copied before it. -/
theorem Holds.pushRow (holds : s.Holds R) (r : Row Float) (i : Nat) :
    (s.pushRow (r.viewAt i)).Holds (R ++ [r]) := by
  have start : s.subj.size = entryCount R := by
    rw [← Array.length_toList, holds.subj, length_flatMap_ids]
  constructor
  · simp [Snapshot.pushRow, Row.viewAt, holds.ptr, spans_append, spans, start, Row.length, Row.ids]
  · simp [Snapshot.pushRow, Row.viewAt, holds.subj]
  · simp [Snapshot.pushRow, Row.viewAt, holds.cof]
  · simp [Snapshot.pushRow, Row.viewAt, holds.lower]
  · simp [Snapshot.pushRow, Row.viewAt, holds.upper]

/-- Copying rows changes only the row part of the copy: pointer pairs, entries and sides. -/
theorem foldl_pushRow_frame (views : List (ConstraintView Float)) (s : Snapshot) :
    ∃ ptr subj cof lower upper, views.foldl pushRow s =
      { s with aPtr := ptr, subj := subj, cof := cof, rowLower := lower, rowUpper := upper } := by
  induction views generalizing s with
  | nil => exact ⟨s.aPtr, s.subj, s.cof, s.rowLower, s.rowUpper, rfl⟩
  | cons v rest ih =>
    obtain ⟨ptr, subj, cof, lower, upper, folded⟩ := ih (s.pushRow v)
    exact ⟨ptr, subj, cof, lower, upper, folded⟩

/-- Copying the views of rows, whatever their ids, appends the rows. -/
theorem Holds.foldl_pushRow (holds : s.Holds R) (L : List (Row Float × Nat)) :
    ((L.map fun p => p.1.viewAt p.2).foldl Snapshot.pushRow s).Holds (R ++ L.map Prod.fst) := by
  induction L generalizing R s with
  | nil => simpa using holds
  | cons p rest ih =>
    have later := ih (holds.pushRow p.1 p.2)
    simpa using later

/-! ## The copy of a model that holds its rows -/

variable {m : Model Float}

/-- A model that holds `R` is copied with its columns as they are and a row part that holds `R`. -/
theorem ofModel_of_holds (holds : m.Holds R) :
    ∃ s, ofModel m = .ok s ∧ s.Holds R ∧ s.sense = m.sense ∧ s.costs = m.varObj ∧
      s.offset = m.objConstant ∧ s.lower = m.varLb ∧ s.upper = m.varUb ∧ s.categories = m.varType := by
  let start : Snapshot := ⟨m.sense, m.varObj, m.objConstant, m.varLb, m.varUb, m.varType,
    #[], #[], #[], #[], #[], #[]⟩
  let views := R.zipIdx.map fun p => p.1.viewAt p.2
  have listed : m.constraints = views.map .ok := by
    rw [holds.constraints, List.map_map]
    rfl
  have copied : ofModel m = .ok (views.foldl pushRow start) := by
    rw [ofModel, listed, pushRows_map_ok]
  have rows : (views.foldl pushRow start).Holds R := by
    have folded := (holds_empty start rfl rfl rfl rfl rfl).foldl_pushRow R.zipIdx
    rwa [List.nil_append, List.zipIdx_map_fst] at folded
  obtain ⟨ptr, subj, cof, lower, upper, frame⟩ := foldl_pushRow_frame views start
  refine ⟨_, copied, rows, ?_⟩
  rw [frame]
  exact ⟨rfl, rfl, rfl, rfl, rfl, rfl⟩

theorem Holds.same (holds : s.Holds R) (stored : m.Holds R) :
    s.aPtr = m.conPtr ∧ s.subj = m.aSubj ∧ s.cof = m.aCof ∧ s.rowLower = m.conLb ∧ s.rowUpper = m.conUb := by
  refine ⟨?_, ?_, ?_, ?_, ?_⟩ <;> rw [← Array.toList_inj]
  · rw [holds.ptr, stored.ptr]
  · rw [holds.subj, stored.subj]
  · rw [holds.cof, stored.cof]
  · rw [holds.lower, stored.lower]
  · rw [holds.upper, stored.upper]

/-- Row `i` of a copy that shares the model's pointer pairs and entry vectors is the model's row `i`. -/
theorem row_of_same (stored : m.Holds R) (ptr : s.aPtr = m.conPtr) (subj : s.subj = m.aSubj)
    (cof : s.cof = m.aCof) {i : Nat} (inside : i < R.length) :
    s.row i = .ok (R[i].ids.toArray, R[i].coefs.toArray) := by
  have pair : Vec.get s.aPtr i = .ok (entryCount (R.take i), entryCount (R.take i) + R[i].length) := by
    rw [Vec.get_eq_ok, ptr, ← Array.getElem?_toList, stored.ptr, spans_getElem? R inside]
  -- the slices are read in the model, where the row sits between the rows before and after it
  rw [split_at R inside] at stored
  obtain ⟨ids, coefs⟩ := stored.slices
  simp [Snapshot.row, pair, subj, cof, ids, coefs, bind, Except.bind, pure, Except.pure]

/-- Reading something off each view of the rows, in order, is reading it off each row. -/
theorem flatMap_views {β : Type} (f : ConstraintView Float → List β) (g : Row Float → List β)
    (same : ∀ r i, f (r.viewAt i) = g r) :
    (R.zipIdx.map fun p => p.1.viewAt p.2).flatMap f = R.flatMap g := by
  rw [List.flatMap_map]
  conv => rhs; rw [← List.zipIdx_map_fst 0 R]
  rw [List.flatMap_map]
  simp [same]

/-! ## Row starts -/

/-- The row starts of rows laid out from `0`: start `i` is the number of entries of the rows before
row `i`, up to the end of the last row. -/
theorem getElem?_starts (R : List (Row Float)) {i : Nat} (inside : i ≤ R.length) :
    (0 :: (spans 0 R).map Prod.snd)[i]? = some (entryCount (R.take i)) := by
  cases i with
  | zero => simp [entryCount]
  | succ i =>
    have row : i < R.length := by omega
    rw [List.getElem?_cons_succ, List.getElem?_map, spans_getElem? R row, entryCount_take_succ R row]
    rfl

theorem Holds.ptr_eq (holds : s.Holds R) : s.ptr = 0 :: (spans 0 R).map Prod.snd := by
  rw [Snapshot.ptr, holds.ptr]

theorem Holds.ptr_length (holds : s.Holds R) : s.ptr.length = R.length + 1 := by
  simp [holds.ptr_eq]

theorem Holds.ptr_first (holds : s.Holds R) : s.ptr[0]? = some 0 := by
  simp [holds.ptr_eq]

/-- Each row start is the previous one plus the previous row's length. -/
theorem Holds.ptr_succ (holds : s.Holds R) {i : Nat} (inside : i < R.length) :
    s.ptr[i + 1]? = (s.ptr[i]?).map (· + R[i].length) := by
  rw [holds.ptr_eq, getElem?_starts R inside, getElem?_starts R (by omega), entryCount_take_succ R inside]
  rfl

/-- The last row start is the number of entries. -/
theorem Holds.ptr_last (holds : s.Holds R) : s.ptr.getLast? = some (entryCount R) := by
  rw [List.getLast?_eq_getElem?, holds.ptr_length, Nat.add_sub_cancel, holds.ptr_eq,
    getElem?_starts R (Nat.le_refl _), List.take_length]

end Snapshot

/-! ## The copy of a reachable model -/

/-- The data-only backend copies every reachable model verbatim: its columns, rows, sides and entries
are the model's own, and its row starts form a compressed row matrix. -/
theorem snapshot_copies_model {m : Model Float} (reach : m.Reachable) :
    ∃ s, Snapshot.ofModel m = .ok s ∧
      s.numCols = m.nbVariables ∧ s.costs = m.varObj ∧ s.offset = m.objConstant ∧
      s.lower = m.varLb ∧ s.upper = m.varUb ∧ s.categories = m.varType ∧ s.sense = m.sense ∧
      s.numRows = m.nbConstraints ∧
      (∀ i < m.nbConstraints, ∃ v, m.tryConstraint i = .ok (.ok v) ∧
        s.row i = .ok (v.subj, v.cof) ∧ s.rowLower[i]? = some v.lower ∧ s.rowUpper[i]? = some v.upper ∧
        s.ptr[i + 1]? = (s.ptr[i]?).map (· + v.subj.size)) ∧
      s.ptr.length = m.nbConstraints + 1 ∧ s.ptr[0]? = some 0 ∧ s.ptr.getLast? = some m.nbEntries ∧
      (∃ views : List (ConstraintView Float), m.constraints = views.map .ok ∧
        s.subj.toList = views.flatMap (·.subj.toList) ∧ s.cof.toList = views.flatMap (·.cof.toList)) ∧
      s.subj = m.aSubj ∧ s.cof = m.aCof := by
  obtain ⟨R, stored⟩ := reach.stored
  have holds := stored.toHolds
  obtain ⟨s, copied, rows, sense, costs, offset, lower, upper, categories⟩ := Snapshot.ofModel_of_holds holds
  obtain ⟨ptr, subj, cof, rowLower, rowUpper⟩ := rows.same holds
  have count : m.nbConstraints = R.length := holds.nbConstraints
  refine ⟨s, copied, by rw [Snapshot.numCols, costs]; rfl, costs, offset, lower, upper, categories, sense,
    by rw [Snapshot.numRows, ptr]; rfl, ?_, by rw [rows.ptr_length, count], rows.ptr_first,
    by rw [rows.ptr_last, holds.nbEntries], ?_, subj, cof⟩
  · intro i below
    have inside : i < R.length := count ▸ below
    refine ⟨R[i].viewAt i, holds.tryConstraint inside, Snapshot.row_of_same holds ptr subj cof inside, ?_, ?_, ?_⟩
    · rw [rowLower, ← Array.getElem?_toList, holds.lower]
      simp [Row.viewAt, inside]
    · rw [rowUpper, ← Array.getElem?_toList, holds.upper]
      simp [Row.viewAt, inside]
    · rw [rows.ptr_succ inside]
      simp [Row.viewAt, Row.ids, Row.length]
  · refine ⟨R.zipIdx.map fun p => p.1.viewAt p.2, by rw [holds.constraints, List.map_map]; rfl, ?_, ?_⟩
    · rw [rows.subj, Snapshot.flatMap_views _ Row.ids fun r i => by simp [Row.viewAt]]
    · rw [rows.cof, Snapshot.flatMap_views _ Row.coefs fun r i => by simp [Row.viewAt]]

/-- Two variables, a row that repeats an id and a row over the second variable: the run ends, and
the theorem applies to the model it ends in. -/
theorem snapshot_copies_model_example :
    let calls : List (Call Float) :=
      [.addVar .default, .addVar .default, .addObj (.add (.var 0) (.scale 2 (.var 1))),
       .addConstraint ⟨.add (.add (.var 0) (.var 1)) (.var 0), 0, 3⟩, .addConstraint ⟨.var 1, 1, 2⟩]
    ∃ m, Model.new.run calls = .ok m ∧
      ∃ s, Snapshot.ofModel m = .ok s ∧
        s.numCols = m.nbVariables ∧ s.costs = m.varObj ∧ s.offset = m.objConstant ∧
        s.lower = m.varLb ∧ s.upper = m.varUb ∧ s.categories = m.varType ∧ s.sense = m.sense ∧
        s.numRows = m.nbConstraints ∧
        (∀ i < m.nbConstraints, ∃ v, m.tryConstraint i = .ok (.ok v) ∧
          s.row i = .ok (v.subj, v.cof) ∧ s.rowLower[i]? = some v.lower ∧ s.rowUpper[i]? = some v.upper ∧
          s.ptr[i + 1]? = (s.ptr[i]?).map (· + v.subj.size)) ∧
        s.ptr.length = m.nbConstraints + 1 ∧ s.ptr[0]? = some 0 ∧ s.ptr.getLast? = some m.nbEntries ∧
        (∃ views : List (ConstraintView Float), m.constraints = views.map .ok ∧
          s.subj.toList = views.flatMap (·.subj.toList) ∧ s.cof.toList = views.flatMap (·.cof.toList)) ∧
        s.subj = m.aSubj ∧ s.cof = m.aCof := by
  intro calls
  exact ⟨_, rfl, snapshot_copies_model ⟨calls, rfl⟩⟩

end Milp
