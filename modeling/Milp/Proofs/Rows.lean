import Milp.Proofs.Calls

/-!
# Rows: the pointer pairs refine a list of rows

The store keeps its rows as pointer pairs into two shared entry vectors. Read through the
relation `Holds R m`, it is an append-only list `R` of rows, each with its terms exactly as its
expression gave them and its two sides: the pointer pairs lay the rows one after another from `0`
and the entry and side vectors hold them in order. Every call keeps the relation, adding the row of
an accepted constraint at the end and nothing else (`exec_holds`), so along a run `R` is the list
of the accepted constraints in call order (`run_holds`). Both readers of a row, `tryConstraint`
and `constraints`, show `R`'s rows.
-/
namespace Milp

/-- A row as the call that added it gave it: its terms in order and its two sides. -/
structure Row (α : Type) where
  terms : List (Nat × α)
  lower : α
  upper : α

namespace Row

variable {α : Type}

/-- The number of entries of a row. -/
def length (r : Row α) : Nat := r.terms.length

/-- The ids of a row's terms, in order. -/
def ids (r : Row α) : List Nat := r.terms.map Prod.fst

/-- The coefficients of a row's terms, in order. -/
def coefs (r : Row α) : List α := r.terms.map Prod.snd

/-- The view of a row stored with id `i`. -/
def viewAt (r : Row α) (i : Nat) : ConstraintView α := ⟨i, r.ids.toArray, r.coefs.toArray, r.lower, r.upper⟩

/-- A view shows the row's terms exactly: same order, nothing merged or dropped. -/
theorem viewAt_terms (r : Row α) (i : Nat) : (r.viewAt i).terms = r.terms := by
  show r.ids.toArray.toList.zip r.coefs.toArray.toList = r.terms
  rw [List.toList_toArray, List.toList_toArray]
  exact (List.zip_of_prod rfl rfl).symm

end Row

/-- The pointer pairs of rows laid one after another from `start`. -/
def spans {α : Type} (start : Nat) : List (Row α) → List (Nat × Nat)
  | [] => []
  | r :: rest => (start, start + r.length) :: spans (start + r.length) rest

/-- The total number of entries of rows. -/
def entryCount {α : Type} (R : List (Row α)) : Nat := (R.map Row.length).sum

namespace Model

variable {α : Type}

/-- The store holds the rows `R`: its pointer pairs lay them one after another from `0`, the entry
vectors hold their ids and coefficients in order, and the side vectors their sides. -/
structure Holds (R : List (Row α)) (m : Model α) : Prop where
  ptr : m.conPtr.toList = spans 0 R
  subj : m.aSubj.toList = R.flatMap Row.ids
  cof : m.aCof.toList = R.flatMap Row.coefs
  lower : m.conLb.toList = R.map (·.lower)
  upper : m.conUb.toList = R.map (·.upper)

end Model

/-! ## Laying rows out -/

section
variable {α : Type}

@[simp] theorem length_spans (start : Nat) (R : List (Row α)) : (spans start R).length = R.length := by
  induction R generalizing start with
  | nil => rfl
  | cons r rest ih => simp [spans, ih]

theorem spans_append (start : Nat) (R R' : List (Row α)) :
    spans start (R ++ R') = spans start R ++ spans (start + entryCount R) R' := by
  induction R generalizing start with
  | nil => simp [entryCount, spans]
  | cons r rest ih =>
    simp only [List.cons_append, spans, ih, entryCount, List.map_cons, List.sum_cons, List.cons.injEq, true_and]
    congr 2
    omega

@[simp] theorem length_flatMap_ids (R : List (Row α)) : (R.flatMap Row.ids).length = entryCount R := by
  simp only [entryCount, Row.ids, List.length_flatMap, List.length_map]
  rfl

@[simp] theorem length_flatMap_coefs (R : List (Row α)) : (R.flatMap Row.coefs).length = entryCount R := by
  simp only [entryCount, Row.coefs, List.length_flatMap, List.length_map]
  rfl

@[simp] theorem entryCount_append (R R' : List (Row α)) : entryCount (R ++ R') = entryCount R + entryCount R' := by
  simp [entryCount]

/-- Row `i` splits the rows: those before it, it, and those after it. -/
theorem split_at (R : List (Row α)) {i : Nat} (inside : i < R.length) :
    R = R.take i ++ R[i] :: R.drop (i + 1) := by
  rw [← List.drop_eq_getElem_cons inside, List.take_append_drop]

/-- A row's pointer pair starts at the number of entries of the rows before it. -/
theorem spans_middle (A B : List (Row α)) (r : Row α) :
    (spans 0 (A ++ r :: B))[A.length]? = some (entryCount A, entryCount A + r.length) := by
  rw [spans_append, List.getElem?_append_right (by simp)]
  simp [spans]

/-- The pointer pair of row `i` starts at the number of entries of the rows before it. -/
theorem spans_getElem? (R : List (Row α)) {i : Nat} (inside : i < R.length) :
    (spans 0 R)[i]? = some (entryCount (R.take i), entryCount (R.take i) + R[i].length) := by
  have middle := spans_middle (R.take i) (R.drop (i + 1)) R[i]
  have before : (R.take i).length = i := by simp; omega
  rwa [← split_at R inside, before] at middle

/-- A row's slice of a vector that lays out the rows' entries in order. -/
theorem extract_middle {β : Type} (f : Row α → List β) (lengths : ∀ r, (f r).length = r.length)
    (A B : List (Row α)) (r : Row α) :
    ((A ++ r :: B).flatMap f).extract (entryCount A) (entryCount A + r.length) = f r := by
  have before : (A.flatMap f).length = entryCount A := by
    simp [List.length_flatMap, lengths, entryCount]
  simp only [List.flatMap_append, List.flatMap_cons, List.extract_eq_take_drop]
  rw [← before, List.drop_left' rfl]
  simp [lengths, before]

end

namespace Model

variable {α : Type} {R : List (Row α)} {m : Model α}

theorem Holds.nbConstraints (holds : m.Holds R) : m.nbConstraints = R.length := by
  rw [Model.nbConstraints, ← Array.length_toList, holds.ptr, length_spans]

theorem Holds.nbEntries (holds : m.Holds R) : m.nbEntries = entryCount R := by
  rw [Model.nbEntries, ← Array.length_toList, holds.subj, length_flatMap_ids]

/-- Ids and coefficients are stored in step. -/
theorem Holds.entries (holds : m.Holds R) : m.aCof.size = m.aSubj.size := by
  rw [← Array.length_toList, ← Array.length_toList, holds.subj, holds.cof, length_flatMap_coefs,
    length_flatMap_ids]

theorem holds_new [Scalar α] : (Model.new : Model α).Holds [] := ⟨rfl, rfl, rfl, rfl, rfl⟩

/-- A model with the same row vectors holds the same rows. -/
theorem Holds.keep (holds : m.Holds R) {m' : Model α} (ptr : m'.conPtr = m.conPtr) (subj : m'.aSubj = m.aSubj)
    (cof : m'.aCof = m.aCof) (lower : m'.conLb = m.conLb) (upper : m'.conUb = m.conUb) : m'.Holds R :=
  ⟨ptr ▸ holds.ptr, subj ▸ holds.subj, cof ▸ holds.cof, lower ▸ holds.lower, upper ▸ holds.upper⟩

/-- The slices of a stored row hold its ids and its coefficients. -/
theorem Holds.slices {A B : List (Row α)} {r : Row α} (holds : m.Holds (A ++ r :: B)) :
    Vec.slice m.aSubj (entryCount A) (entryCount A + r.length) = .ok r.ids.toArray ∧
    Vec.slice m.aCof (entryCount A) (entryCount A + r.length) = .ok r.coefs.toArray := by
  have total : entryCount A + r.length ≤ m.aSubj.size := by
    rw [← Model.nbEntries, holds.nbEntries]
    simp [entryCount]
  have total' : entryCount A + r.length ≤ m.aCof.size := holds.entries ▸ total
  constructor
  · rw [Vec.slice_of_le (by omega) total]
    congr 1
    rw [← Array.toList_inj, Array.toList_extract, holds.subj,
      extract_middle Row.ids (fun r => by simp [Row.ids, Row.length])]
  · rw [Vec.slice_of_le (by omega) total']
    congr 1
    rw [← Array.toList_inj, Array.toList_extract, holds.cof,
      extract_middle Row.coefs (fun r => by simp [Row.coefs, Row.length])]

/-- The view made of row `i`'s pointer pair and sides is the row. -/
theorem Holds.view {i : Nat} (holds : m.Holds R) (inside : i < R.length) :
    m.view i (entryCount (R.take i), entryCount (R.take i) + R[i].length) R[i].lower R[i].upper =
      .ok (R[i].viewAt i) := by
  have split := split_at R inside
  rw [split] at holds
  obtain ⟨subj, cof⟩ := holds.slices
  simp [Model.view, subj, cof, bind, Except.bind, pure, Except.pure, Row.viewAt]

/-- Row `i` is read back as it was stored. -/
theorem Holds.tryConstraint {i : Nat} (holds : m.Holds R) (inside : i < R.length) :
    m.tryConstraint i = .ok (.ok (R[i].viewAt i)) := by
  have ptr : m.conPtr[i]? = some (entryCount (R.take i), entryCount (R.take i) + R[i].length) := by
    rw [← Array.getElem?_toList, holds.ptr, spans_getElem? R inside]
  have lower : Vec.get m.conLb i = .ok R[i].lower := by
    rw [Vec.get_eq_ok, ← Array.getElem?_toList, holds.lower]
    simp [inside]
  have upper : Vec.get m.conUb i = .ok R[i].upper := by
    rw [Vec.get_eq_ok, ← Array.getElem?_toList, holds.upper]
    simp [inside]
  have view := holds.view inside
  simp only [Model.view, bind, Except.bind, pure, Except.pure] at view
  simp only [Model.tryConstraint, ptr, lower, upper, bind, Except.bind, pure, Except.pure]
  split at view <;> try contradiction
  split at view <;> try contradiction
  cases view
  rfl

/-- There is no row `i` past the rows. -/
theorem Holds.tryConstraint_of_ge {i : Nat} (holds : m.Holds R) (outside : R.length ≤ i) :
    m.tryConstraint i = .ok (.error (.invalidConstraintId i R.length)) := by
  have none : m.conPtr[i]? = none := by
    rw [← Array.getElem?_toList, holds.ptr]
    simp [outside]
  simp [Model.tryConstraint, none, holds.nbConstraints]

/-- The rows are read in id order, each as it was stored. -/
theorem Holds.constraints (holds : m.Holds R) : m.constraints = R.zipIdx.map fun p => .ok (p.1.viewAt p.2) := by
  apply List.ext_getElem?
  intro i
  by_cases inside : i < R.length
  · have bound : i < (spans 0 R).length := by simpa using inside
    have ptr : (spans 0 R)[i] = (entryCount (R.take i), entryCount (R.take i) + R[i].length) := by
      have found := spans_getElem? R inside
      rw [List.getElem?_eq_getElem bound] at found
      exact Option.some.inj found
    simp [Model.constraints, holds.ptr, holds.lower, holds.upper, inside, ptr, holds.view inside]
  · simp [Model.constraints, holds.ptr, holds.lower, holds.upper, inside]

/-- An accepted row goes at the end: its pointer pair starts where the entries ended. -/
theorem Holds.withRow (holds : m.Holds R) (ts : List (Nat × α)) (lower upper : α) :
    (m.withRow ts lower upper).Holds (R ++ [⟨ts, lower, upper⟩]) := by
  have start : m.aSubj.size = entryCount R := holds.nbEntries
  constructor
  · simp [Model.withRow, holds.ptr, spans_append, spans, start, Row.length]
  · simp [Model.withRow, holds.subj, Row.ids]
  · simp [Model.withRow, holds.cof, Row.coefs]
  · simp [Model.withRow, holds.lower]
  · simp [Model.withRow, holds.upper]

end Model

/-! ## The rows a run adds -/

namespace Call

variable {α : Type} [MachineScalar α]

/-- The row a call adds to a model with `n` variables: that of a constraint whose ids are all
inside. -/
def rowAt : Call α → Nat → List (Row α)
  | .addConstraint c, n => if c.terms.firstOutside n = none then [⟨c.terms.items, c.lower, c.upper⟩] else []
  | _, _ => []

/-- The rows a run adds from a model with `n` variables, in call order. -/
def rowsAdded (n : Nat) (calls : List (Call α)) : List (Row α) :=
  (annotate n calls).flatMap fun p => p.1.rowAt p.2

@[simp] theorem rowsAdded_nil (n : Nat) : rowsAdded n ([] : List (Call α)) = [] := rfl

theorem rowsAdded_cons (n : Nat) (c : Call α) (rest : List (Call α)) :
    rowsAdded n (c :: rest) = c.rowAt n ++ rowsAdded (c.grow n) rest := by
  simp [rowsAdded, annotate]

end Call

namespace Model

variable {α : Type} [MachineScalar α] {R : List (Row α)} {m : Model α}

/-- One call keeps the relation, with the row it adds at the end. -/
theorem exec_holds {c : Call α} {m' : Model α} (holds : m.Holds R) (ran : m.exec c = .ok m') :
    m'.Holds (R ++ c.rowAt m.nbVariables) := by
  cases c with
  | addVar o =>
    cases ran
    simp only [Call.rowAt, List.append_nil]
    exact holds.keep rfl rfl rfl rfl rfl
  | addVars count table =>
    obtain ⟨-, rfl⟩ := exec_addVars ran
    simp only [Call.rowAt, List.append_nil]
    exact holds.keep rfl rfl rfl rfl rfl
  | addObj e =>
    rcases exec_addObj ran with ⟨j, -, rfl⟩ | ⟨-, -, rfl⟩
    · simpa [Call.rowAt] using holds
    · simp only [Call.rowAt, List.append_nil]
      exact holds.keep rfl rfl rfl rfl rfl
  | addConstraint c =>
    rcases exec_addConstraint holds.entries ran with ⟨j, outside, rfl⟩ | ⟨inside, -, rfl⟩
    · simpa [Call.rowAt, outside] using holds
    · simpa [Call.rowAt, inside] using holds.withRow c.terms.items c.lower c.upper
  | set a v =>
    rcases exec_set ran with ⟨-, rfl⟩ | ⟨-, rfl⟩
    · simpa [Call.rowAt] using holds
    · simp only [Call.rowAt, List.append_nil]
      cases a <;> exact holds.keep rfl rfl rfl rfl rfl
  | setSense s =>
    cases ran
    simp only [Call.rowAt, List.append_nil]
    exact holds.keep rfl rfl rfl rfl rfl

/-- Along a run the store holds the rows it held, then the rows of the accepted constraints in
call order. -/
theorem run_holds {calls : List (Call α)} {m' : Model α} (holds : m.Holds R) (ran : m.run calls = .ok m') :
    m'.Holds (R ++ Call.rowsAdded m.nbVariables calls) := by
  induction calls generalizing R m with
  | nil =>
    cases ran
    simpa using holds
  | cons c rest ih =>
    obtain ⟨m₁, first, later⟩ := run_cons_eq_ok.mp ran
    have grown : m₁.nbVariables = c.grow m.nbVariables := exec_nbVariables holds.entries first
    have after := ih (exec_holds holds first) later
    rw [grown, List.append_assoc] at after
    rwa [Call.rowsAdded_cons]

end Model

namespace Model

variable {α : Type} [MachineScalar α]

/-- An accepted constraint returns the number of rows before it, and its row goes at the end. -/
theorem Holds.tryAddConstraint {R : List (Row α)} {m : Model α} (holds : m.Holds R) {c : Constraint α}
    {st : Step α Nat} {id : Nat} (added : m.tryAddConstraint c = .ok st) (accepted : st.result = .ok id) :
    id = R.length ∧ st.model.Holds (R ++ [⟨c.terms.items, c.lower, c.upper⟩]) := by
  cases outside : c.terms.firstOutside m.nbVariables with
  | some j =>
    rw [tryAddConstraint_of_outside m c holds.entries outside] at added
    cases added
    simp at accepted
  | none =>
    cases broken : c.terms.fault with
    | some f => simp [tryAddConstraint_of_fault m c outside broken] at added
    | none =>
      rw [tryAddConstraint_of_inside m c outside broken] at added
      cases added
      cases accepted
      exact ⟨holds.nbConstraints, holds.withRow c.terms.items c.lower c.upper⟩

end Model

/-- The row store refines an append-only list of rows: along every run, the rows are those of the
accepted constraints in call order, with their terms as read and their sides, and no later call
changes a stored row. -/
theorem row_store_refines_added_rows {α : Type} [MachineScalar α] {calls : List (Call α)} {m : Model α}
    (ran : Model.new.run calls = .ok m) :
    let R := Call.rowsAdded 0 calls
    m.nbConstraints = R.length ∧ m.nbEntries = entryCount R ∧
      (∀ i (inside : i < R.length), m.tryConstraint i = .ok (.ok (R[i].viewAt i)) ∧
        (R[i].viewAt i).terms = R[i].terms) ∧
      m.constraints = R.zipIdx.map (fun p => .ok (p.1.viewAt p.2)) ∧
      (∀ (c : Constraint α) (st : Step α Nat) (id : Nat), m.tryAddConstraint c = .ok st → st.result = .ok id →
        id = R.length ∧ st.model.Holds (R ++ [⟨c.terms.items, c.lower, c.upper⟩])) ∧
      ∀ (more : List (Call α)) (m' : Model α), m.run more = .ok m' →
        ∀ i < R.length, m'.tryConstraint i = m.tryConstraint i := by
  intro R
  have holds : m.Holds R := by
    have after := Model.run_holds Model.holds_new ran
    rw [List.nil_append] at after
    exact after
  refine ⟨holds.nbConstraints, holds.nbEntries, ?_, holds.constraints, ?_, ?_⟩
  · intro i inside
    exact ⟨holds.tryConstraint inside, Row.viewAt_terms R[i] i⟩
  · intro c st id added accepted
    exact holds.tryAddConstraint added accepted
  · intro more m' later i inside
    have after := Model.run_holds holds later
    have inside' : i < (R ++ Call.rowsAdded m.nbVariables more).length := by simp; omega
    rw [after.tryConstraint inside', holds.tryConstraint inside, List.getElem_append_left inside]

/-- Two variables, a row that repeats an id, a refused row and a row read from a sum: the run
ends, and the theorem applies to the model it ends in. -/
theorem row_store_refines_added_rows_example :
    let calls : List (Call Float) :=
      [.addVar .default, .addVar .default, .addConstraint ⟨.add (.var 1) (.add (.var 0) (.var 1)), 0, 1⟩,
       .addConstraint ⟨.var 2, 0, 1⟩, .addConstraint ⟨.scale 2 (.var 0), 1, 1⟩]
    ∃ m, Model.new.run calls = .ok m ∧
      let R := Call.rowsAdded 0 calls
      m.nbConstraints = R.length ∧ m.nbEntries = entryCount R ∧
        (∀ i (inside : i < R.length), m.tryConstraint i = .ok (.ok (R[i].viewAt i)) ∧
          (R[i].viewAt i).terms = R[i].terms) ∧
        m.constraints = R.zipIdx.map (fun p => .ok (p.1.viewAt p.2)) ∧
        (∀ (c : Constraint Float) (st : Step Float Nat) (id : Nat), m.tryAddConstraint c = .ok st →
          st.result = .ok id → id = R.length ∧ st.model.Holds (R ++ [⟨c.terms.items, c.lower, c.upper⟩])) ∧
        ∀ (more : List (Call Float)) (m' : Model Float), m.run more = .ok m' →
          ∀ i < R.length, m'.tryConstraint i = m.tryConstraint i :=
  ⟨_, rfl, row_store_refines_added_rows rfl⟩

end Milp
