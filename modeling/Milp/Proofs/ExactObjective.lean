import Mathlib.Algebra.BigOperators.Group.Finset.Piecewise
import Mathlib.Algebra.Ring.Rat
import Mathlib.Tactic.Ring
import Mathlib.Tactic.Linarith
import Milp.Num.Exact
import Milp.Proofs.Attributes

/-!
# The objective in exact arithmetic

Read with `Exact` scalars, where finite values are rationals and arithmetic on them has no
rounding, the objective a run accumulates is linear in what the run gave it. With no setter of an
objective coefficient in the run, at every point `x`
`∑ v obj_v x_v + constant = ∑ v base_v x_v + ∑ k e_k(x)`,
where `base_v` is the coefficient `v` was created with and `e_k` are the accepted objectives. Each
call keeps the identity (`exec_exactObjective`): a new variable adds its base on both sides, an
accepted objective adds its value at `x` on both sides, and nothing else touches the objective.
The last theorem puts this identity beside what a run over any scalar leaves in the attribute
store.
-/
namespace Milp

open Milp.Num (Exact)

/-- `∑ v w_v x_v` over the entries of `w`. -/
def weighted (w : List ℚ) (x : ℕ → ℚ) : ℚ := ∑ v ∈ Finset.range w.length, (w[v]?.getD 0) * x v

section Weighted

variable (x : ℕ → ℚ)

/-- Entries appended after `w` weigh the values after `w`'s. -/
theorem weighted_append (w u : List ℚ) :
    weighted (w ++ u) x = weighted w x + ∑ v ∈ Finset.range u.length, (u[v]?.getD 0) * x (w.length + v) := by
  have before : ∀ v ∈ Finset.range w.length, ((w ++ u)[v]?.getD 0) * x v = (w[v]?.getD 0) * x v := by
    intro v member
    rw [List.getElem?_append_left (Finset.mem_range.mp member)]
  have after : ∀ v ∈ Finset.range u.length,
      ((w ++ u)[w.length + v]?.getD 0) * x (w.length + v) = (u[v]?.getD 0) * x (w.length + v) := by
    intro v member
    rw [List.getElem?_append_right (by omega), Nat.add_sub_cancel_left]
  rw [weighted, List.length_append, Finset.sum_range_add, Finset.sum_congr rfl before, Finset.sum_congr rfl after]
  rfl

theorem weighted_append_single (w : List ℚ) (q : ℚ) : weighted (w ++ [q]) x = weighted w x + q * x w.length := by
  simp [weighted_append]

theorem weighted_append_zeros (w : List ℚ) (k : ℕ) : weighted (w ++ List.replicate k 0) x = weighted w x := by
  have zero : ∀ v ∈ Finset.range k, ((List.replicate k (0 : ℚ))[v]?.getD 0) * x (w.length + v) = 0 := by
    intro v member
    simp [Finset.mem_range.mp member]
  rw [weighted_append, List.length_replicate, Finset.sum_congr rfl zero]
  simp

theorem weighted_modify_add (w : List ℚ) {j : ℕ} (inside : j < w.length) (c : ℚ) :
    weighted (w.modify j (· + c)) x = weighted w x + c * x j := by
  have term : ∀ v ∈ Finset.range w.length,
      ((w.modify j (· + c))[v]?.getD 0) * x v = (w[v]?.getD 0) * x v + (if j = v then c * x v else 0) := by
    intro v member
    have below : v < w.length := Finset.mem_range.mp member
    rw [List.getElem?_modify, List.getElem?_eq_getElem below]
    by_cases same : j = v
    · simp [same]
      ring
    · simp [same]
  rw [weighted, List.length_modify, Finset.sum_congr rfl term, Finset.sum_add_distrib, Finset.sum_ite_eq]
  simp [weighted, inside]

/-- Adding terms to their entries adds `∑ c x_j` over the terms. -/
theorem weighted_accumulate (w : Array ℚ) (ts : List (ℕ × ℚ)) (inside : ∀ p ∈ ts, p.1 < w.size) :
    weighted (Model.accumulate w ts).toList x = weighted w.toList x + (ts.map fun p => p.2 * x p.1).sum := by
  induction ts generalizing w with
  | nil => simp [Model.accumulate]
  | cons p rest ih =>
    obtain ⟨j, c⟩ := p
    have head : j < w.toList.length := by simpa using inside (j, c) (by simp)
    have tail : ∀ p ∈ rest, p.1 < (w.modify j (· + c)).size := by
      intro p member
      simpa using inside p (by simp [member])
    rw [Model.accumulate, ih _ tail, Array.toList_modify, weighted_modify_add x _ head]
    simp
    ring

end Weighted

namespace Num.Exact

/-- The rational value of a finite value; `0` for the value that is not finite. -/
def val (a : Exact) : ℚ := a.rat?.getD 0

@[simp] theorem val_finite (q : ℚ) : (finite q).val = q := rfl

@[simp] theorem finite_add (p q : ℚ) : finite p + finite q = finite (p + q) := rfl

@[simp] theorem finite_mul (p q : ℚ) : finite p * finite q = finite (p * q) := rfl

theorem zero_eq : (Scalar.zero : Exact) = finite 0 := rfl

theorem eq_map_finite {l : List Exact} (finite : ∀ a ∈ l, ∃ q, a = Exact.finite q) :
    l = (l.map val).map Exact.finite := by
  induction l with
  | nil => rfl
  | cons a rest ih =>
    obtain ⟨q, rfl⟩ := finite a (by simp)
    rw [List.map_cons, List.map_cons, val_finite, ← ih fun b member => finite b (by simp [member])]

end Num.Exact

namespace Model

theorem accumulate_finite (obj : Array ℚ) (ts : List (ℕ × ℚ)) :
    accumulate (obj.map Exact.finite) (ts.map fun p => (p.1, Exact.finite p.2)) = (accumulate obj ts).map Exact.finite := by
  induction ts generalizing obj with
  | nil => rfl
  | cons p rest ih =>
    obtain ⟨j, c⟩ := p
    have modified : (obj.map Exact.finite).modify j (· + Exact.finite c) = (obj.modify j (· + c)).map Exact.finite := by
      apply Array.ext
      · simp
      · intro i inside inside'
        by_cases same : j = i
        · subst same
          simp [Array.getElem_modify]
        · simp [Array.getElem_modify, same]
    simp only [List.map_cons, accumulate]
    rw [modified, ih]

end Model

/-! ## What a run gives the objective -/

namespace Call

variable {α : Type} [MachineScalar α]

/-- The objective coefficients a call gives the variables it creates, in id order. -/
def basesAt : Call α → List α
  | .addVar o => [o.objCoef]
  | .addVars count _ => List.replicate count (VarOptions.default : VarOptions α).objCoef
  | _ => []

/-- The objective coefficients a run gives the variables it creates, in id order. -/
def basesAdded (calls : List (Call α)) : List α := calls.flatMap basesAt

theorem basesAdded_cons (c : Call α) (rest : List (Call α)) : basesAdded (c :: rest) = c.basesAt ++ basesAdded rest := by
  simp [basesAdded]

/-- The objective a call adds to a model with `n` variables, if it is accepted. -/
def objectiveAt : Call α → Nat → List (Expr α)
  | .addObj e, n => if e.terms.firstOutside n = none then [e] else []
  | _, _ => []

/-- The accepted objectives of a run from a model with `n` variables, in order. -/
def objectivesAdded (n : Nat) (calls : List (Call α)) : List (Expr α) :=
  (annotate n calls).flatMap fun p => p.1.objectiveAt p.2

theorem objectivesAdded_cons (n : Nat) (c : Call α) (rest : List (Call α)) :
    objectivesAdded n (c :: rest) = c.objectiveAt n ++ objectivesAdded (c.grow n) rest := by
  simp [objectivesAdded, annotate]

end Call

namespace Expr

/-- An expression read exactly whose coefficients and constant are all finite. -/
def Finite (e : Expr Exact) : Prop := (∀ p ∈ e.terms.items, ∃ q, p.2 = .finite q) ∧ ∃ q, e.constant = .finite q

/-- The value at `x` of an expression read exactly: its constant plus each coefficient times the
value of its variable, in rationals. -/
def exactValue (e : Expr Exact) (x : ℕ → ℚ) : ℚ :=
  e.constant.val + (e.terms.items.map fun p => p.2.val * x p.1).sum

theorem Finite.terms {e : Expr Exact} (finite : e.Finite) :
    ∃ ts : List (ℕ × ℚ), e.terms.items = ts.map fun p => (p.1, Exact.finite p.2) := by
  suffices pairs : ∀ items : List (ℕ × Exact), (∀ p ∈ items, ∃ q, p.2 = .finite q) →
      ∃ ts : List (ℕ × ℚ), items = ts.map fun p => (p.1, Exact.finite p.2) from pairs _ finite.1
  intro items all
  induction items with
  | nil => exact ⟨[], rfl⟩
  | cons p rest ih =>
    obtain ⟨ts, rest_eq⟩ := ih fun p member => all p (by simp [member])
    obtain ⟨q, value⟩ := all p (by simp)
    refine ⟨(p.1, q) :: ts, ?_⟩
    rw [List.map_cons, ← rest_eq, ← value]

section Terms

variable {e : Expr Exact} {ts : List (ℕ × ℚ)} (items : e.terms.items = ts.map fun p => (p.1, Exact.finite p.2))
include items

theorem id_mem_ids {p : ℕ × ℚ} (member : p ∈ ts) : p.1 ∈ e.terms.ids := by
  rw [Terms.ids, items, List.map_map]
  exact List.mem_map_of_mem member

theorem exactValue_eq {k : ℚ} (constant : e.constant = .finite k) (x : ℕ → ℚ) :
    e.exactValue x = k + (ts.map fun p => p.2 * x p.1).sum := by
  simp [exactValue, items, constant, Function.comp_def]

end Terms

end Expr

/-! ## Each call keeps the objective identity -/

namespace Model

/-- The objective of a model read exactly, against the bases `B` of its variables and the accepted
objectives `E`: every objective was read whole with its ids inside the model, the coefficients and
the constant are finite, and at `x`, `∑ v obj_v x_v + constant = ∑ v B_v x_v + ∑ e ∈ E, e(x)`. -/
def ExactObjective (x : ℕ → ℚ) (B : List Exact) (E : List (Expr Exact)) (m : Model Exact) : Prop :=
  (∀ e ∈ E, e.terms.fault = none ∧ ∀ j ∈ e.terms.ids, j < m.nbVariables) ∧
  ∃ (obj : List ℚ) (constant : ℚ), m.varObj.toList = obj.map .finite ∧ m.objConstant = .finite constant ∧
    B.length = obj.length ∧
    weighted obj x + constant = weighted (B.map Num.Exact.val) x + (E.map (·.exactValue x)).sum

theorem exactObjective_new (x : ℕ → ℚ) : (Model.new : Model Exact).ExactObjective x [] [] :=
  ⟨by simp, [], 0, rfl, rfl, rfl, by simp [weighted]⟩

variable {x : ℕ → ℚ} {B : List Exact} {E : List (Expr Exact)} {m m' : Model Exact}

theorem ExactObjective.read_grow (inv : m.ExactObjective x B E) (grown : m.nbVariables ≤ m'.nbVariables) :
    ∀ e ∈ E, e.terms.fault = none ∧ ∀ j ∈ e.terms.ids, j < m'.nbVariables := by
  intro e member
  obtain ⟨whole, inside⟩ := inv.1 e member
  exact ⟨whole, fun j found => Nat.lt_of_lt_of_le (inside j found) grown⟩

/-- A model with at least the variables and the same objective keeps the identity, with nothing
added to it. -/
theorem ExactObjective.keep (inv : m.ExactObjective x B E) (grown : m.nbVariables ≤ m'.nbVariables)
    (coefs : m'.varObj = m.varObj) (const : m'.objConstant = m.objConstant) : m'.ExactObjective x (B ++ []) (E ++ []) := by
  rw [List.append_nil, List.append_nil]
  exact ⟨inv.read_grow grown, coefs ▸ const ▸ inv.2⟩

/-- Each call keeps the identity: a new variable adds its base on both sides, an accepted
objective its value at `x`, and no other call touches the objective. -/
theorem exec_exactObjective {c : Call Exact} (inv : m.ExactObjective x B E) (entries : m.aCof.size = m.aSubj.size)
    (fits : c.fits m.nbVariables) (ran : m.exec c = .ok m') (unset : ∀ a v, c ≠ .set (.objCoef a) v)
    (bases : ∀ b ∈ c.basesAt, ∃ q, b = .finite q) (objectives : ∀ e ∈ c.objectiveAt m.nbVariables, e.Finite) :
    m'.ExactObjective x (B ++ c.basesAt) (E ++ c.objectiveAt m.nbVariables) := by
  have grown : m'.nbVariables = c.grow m.nbVariables := exec_nbVariables entries ran
  have more : m.nbVariables ≤ m'.nbVariables := grown ▸ Call.le_grow fits
  have ⟨read, obj, constant, coefs, const, count, identity⟩ := inv
  have size : m.varObj.size = obj.length := by
    rw [← Array.length_toList, coefs, List.length_map]
  cases c with
  | addVar o =>
    cases ran
    show ExactObjective x (B ++ [o.objCoef]) (E ++ []) _
    rw [List.append_nil]
    obtain ⟨q, base⟩ := bases o.objCoef (by simp [Call.basesAt])
    refine ⟨inv.read_grow more, obj ++ [q], constant, ?_, const, ?_, ?_⟩
    · simp [addVar, coefs, base]
    · simp [count]
    · rw [weighted_append_single, base, List.map_append, List.map_singleton, Num.Exact.val_finite,
        weighted_append_single, List.length_map, count]
      linarith
  | addVars k table =>
    obtain ⟨-, rfl⟩ := exec_addVars ran
    show ExactObjective x (B ++ List.replicate k VarOptions.default.objCoef) (E ++ []) _
    rw [List.append_nil]
    -- the block fits, so the objective vector grows by `k` zeros
    have sum : wordAdd m.varObj.size k = m.varObj.size + k := wordAdd_of_lt fits
    refine ⟨inv.read_grow more, obj ++ List.replicate k 0, constant, ?_, const, ?_, ?_⟩
    · simp [addVars, sum, Vec.resize_of_le, coefs, VarOptions.default, Num.Exact.zero_eq]
    · simp [count]
    · rw [weighted_append_zeros, List.map_append, List.map_replicate, VarOptions.default,
        Num.Exact.zero_eq, Num.Exact.val_finite, weighted_append_zeros]
      exact identity
  | addObj e =>
    rcases exec_addObj ran with ⟨k, outside, same⟩ | ⟨inside, whole, rfl⟩
    · rw [same]
      simpa [Call.basesAt, Call.objectiveAt, outside] using inv
    · -- the objective's terms and constant are finite, so it adds its value at `x` on both sides
      have accepted : (Call.addObj e).objectiveAt m.nbVariables = [e] := by simp [Call.objectiveAt, inside]
      obtain ⟨ts, items⟩ := (objectives e (by simp [accepted])).terms
      obtain ⟨k, constantOf⟩ := (objectives e (by simp [accepted])).2
      have ids : ∀ j ∈ e.terms.ids, j < m.nbVariables := (e.terms.firstOutside_eq_none_iff m.nbVariables).mp inside
      have below : ∀ p ∈ ts, p.1 < obj.toArray.size := by
        intro p member
        have near := ids p.1 (Expr.id_mem_ids items member)
        rw [nbVariables, size] at near
        simpa using near
      have added : accumulate m.varObj e.terms.items = (accumulate obj.toArray ts).map Exact.finite := by
        have whole : m.varObj = obj.toArray.map Exact.finite := by
          apply Array.toList_inj.mp
          simp [coefs]
        rw [whole, items, accumulate_finite]
      have value := Expr.exactValue_eq items constantOf x
      have kept := inv.read_grow more
      refine ⟨?_, (accumulate obj.toArray ts).toList, constant + k, by simp [added], by simp [const, constantOf],
        by simp [Call.basesAt, count], ?_⟩
      · rw [accepted]
        intro e' member
        rcases List.mem_append.mp member with old | new
        · exact kept e' old
        · rw [List.mem_singleton.mp new]
          exact ⟨whole, fun j found => by simpa [nbVariables] using ids j found⟩
      · rw [weighted_accumulate x _ _ below, List.toList_toArray, accepted]
        simp only [Call.basesAt, List.append_nil, List.map_append, List.map_singleton, List.sum_append,
          List.sum_singleton, value]
        linarith
  | addConstraint r =>
    rcases exec_addConstraint entries ran with ⟨k, -, same⟩ | ⟨-, -, rfl⟩
    · rw [same]
      exact inv.keep (Nat.le_refl _) rfl rfl
    · exact inv.keep more rfl rfl
  | set a v =>
    rcases exec_set ran with ⟨-, same⟩ | ⟨-, rfl⟩
    · rw [same]
      exact inv.keep (Nat.le_refl _) rfl rfl
    · -- only a setter of another attribute can be in the run, and it leaves the objective alone
      have other : (m.assign v.id a).varObj = m.varObj := by
        cases a with
        | objCoef q => exact absurd rfl (unset q v)
        | _ => rfl
      exact inv.keep more other (by cases a <;> rfl)
  | setSense s =>
    cases ran
    exact inv.keep more rfl rfl

/-- A run keeps the identity, with the bases of the variables it creates and the objectives it
accepts appended: the induction is on the run, each call kept by `exec_exactObjective`, whose
conditions on the call are read off the conditions on the whole run. -/
theorem run_exactObjective {R : List (Row Exact)} (stored : m.Stored R) (inv : m.ExactObjective x B E)
    {calls : List (Call Exact)} (fits : Call.Fits m.nbVariables calls) (ran : m.run calls = .ok m')
    (unset : ∀ a v, Call.set (.objCoef a) v ∉ calls)
    (bases : ∀ b ∈ Call.basesAdded calls, ∃ q, b = .finite q)
    (objectives : ∀ e ∈ Call.objectivesAdded m.nbVariables calls, e.Finite) :
    m'.ExactObjective x (B ++ Call.basesAdded calls) (E ++ Call.objectivesAdded m.nbVariables calls) := by
  induction calls generalizing R m B E with
  | nil =>
    cases ran
    simpa [Call.basesAdded, Call.objectivesAdded, Call.annotate] using inv
  | cons c rest ih =>
    obtain ⟨m₁, first, later⟩ := run_cons_eq_ok.mp ran
    obtain ⟨now, after⟩ := Call.fits_cons.mp fits
    have grown : m₁.nbVariables = c.grow m.nbVariables := exec_nbVariables stored.entries first
    rw [Call.basesAdded_cons] at bases ⊢
    rw [Call.objectivesAdded_cons] at objectives ⊢
    have step := exec_exactObjective inv stored.entries now first (fun a v same => unset a v (by simp [same]))
      (fun b member => bases b (List.mem_append_left _ member))
      (fun e member => objectives e (List.mem_append_left _ member))
    have whole := ih (stored.exec first) step (grown ▸ after) later
      (fun a v member => unset a v (List.mem_cons_of_mem _ member))
      (fun b member => bases b (List.mem_append_right _ member))
      (fun e member => objectives e (grown ▸ List.mem_append_right _ member))
    rw [grown, List.append_assoc, List.append_assoc] at whole
    exact whole

end Model

/-! ## Evaluating an objective exactly -/

namespace Expr

variable {x : ℕ → ℚ}

/-- At a point of finite values, the left fold over finite terms is their exact sum. -/
theorem foldValues_finite {xs : Array Exact} (point : ∀ (j : ℕ) (inside : j < xs.size), xs[j] = .finite (x j))
    (a : ℚ) (ts : List (ℕ × ℚ)) (inside : ∀ p ∈ ts, p.1 < xs.size) :
    foldValues xs (.finite a) (ts.map fun p => (p.1, Exact.finite p.2)) =
      .ok (.finite (a + (ts.map fun p => p.2 * x p.1).sum)) := by
  induction ts generalizing a with
  | nil => simp [foldValues]
  | cons p rest ih =>
    obtain ⟨j, c⟩ := p
    have head : j < xs.size := inside (j, c) (by simp)
    rw [List.map_cons, foldValues, dif_pos head, point j head, Num.Exact.finite_mul, Num.Exact.finite_add,
      ih _ fun q member => inside q (by simp [member])]
    simp only [List.map_cons, List.sum_cons, add_assoc]

/-- A finite expression read whole, with its ids inside a point of finite values, evaluates there to
its exact value. -/
theorem Finite.evaluate {e : Expr Exact} (finite : e.Finite) (whole : e.terms.fault = none) {xs : Array Exact}
    (point : ∀ (j : ℕ) (inside : j < xs.size), xs[j] = .finite (x j)) (inside : ∀ j ∈ e.terms.ids, j < xs.size) :
    e.evaluate xs = .ok (.finite (e.exactValue x)) := by
  obtain ⟨ts, items⟩ := finite.terms
  obtain ⟨k, constant⟩ := finite.2
  have below : ∀ p ∈ ts, p.1 < xs.size := fun p member => inside p.1 (id_mem_ids items member)
  have folded := foldValues_finite point k ts below
  rw [← items, ← constant] at folded
  rw [exactValue_eq items constant x]
  simp only [Expr.evaluate, folded, whole]

end Expr

/-- The model evaluates an accepted finite objective, at the finite point `x` of its length, to
the objective's exact value. -/
theorem Model.evaluate_exact (m : Model Exact) {e : Expr Exact} (finite : e.Finite) (whole : e.terms.fault = none)
    (inside : ∀ j ∈ e.terms.ids, j < m.nbVariables) (x : ℕ → ℚ) :
    m.evaluate e (Array.ofFn fun j : Fin m.nbVariables => .finite (x j)) =
      .ok ⟨.ok (.finite (e.exactValue x)), []⟩ := by
  have first : e.terms.firstOutside m.nbVariables = none := (e.terms.firstOutside_eq_none_iff _).mpr inside
  have value : e.evaluate (Array.ofFn fun j : Fin m.nbVariables => .finite (x j)) = .ok (.finite (e.exactValue x)) :=
    finite.evaluate whole (fun j inside => by simp) (by simpa using inside)
  simp [Model.evaluate, first, whole, value]

/-- Read exactly, a run from the empty model that wraps no block, with no setter of an objective
coefficient, finite bases and finite accepted objectives ends with a finite objective, and at every
point `x` its value is the bases' part plus what the model evaluates each accepted objective to. -/
theorem Model.exactObjective_of_run {calls : List (Call Exact)} {m : Model Exact} (fits : Call.Fits 0 calls)
    (ran : Model.new.run calls = .ok m) (unset : ∀ a v, Call.set (.objCoef a) v ∉ calls) (bases : ∀ b ∈ Call.basesAdded calls, ∃ q, b = .finite q)
    (objectives : ∀ e ∈ Call.objectivesAdded 0 calls, e.Finite) (x : ℕ → ℚ) :
    ∃ (obj : List ℚ) (constant : ℚ) (base values : List ℚ),
      m.varObj.toList = obj.map .finite ∧ m.objConstant = .finite constant ∧
      Call.basesAdded calls = base.map .finite ∧
      (Call.objectivesAdded 0 calls).map (m.evaluate · (Array.ofFn fun j : Fin m.nbVariables => .finite (x j))) =
        values.map (fun q => .ok ⟨.ok (.finite q), []⟩) ∧
      weighted obj x + constant = weighted base x + values.sum := by
  have inv := run_exactObjective stored_new (exactObjective_new x) fits ran unset bases objectives
  rw [List.nil_append, List.nil_append] at inv
  obtain ⟨read, obj, constant, coefs, const, -, identity⟩ := inv
  refine ⟨obj, constant, (Call.basesAdded calls).map Num.Exact.val, (Call.objectivesAdded 0 calls).map (·.exactValue x),
    coefs, const, Num.Exact.eq_map_finite bases, ?_, identity⟩
  -- each accepted objective stays inside the model and evaluates to its exact value
  rw [List.map_map]
  apply List.map_congr_left
  intro e member
  obtain ⟨whole, inside⟩ := read e member
  exact m.evaluate_exact (objectives e member) whole inside x

/-- After any run from the empty model, each attribute of a variable that exists is the last value
written for it, with the objective coefficients accepted since folded on by `+`, and the constant is
the fold of the accepted constants. Read exactly, with no block wrapped and no coefficient set,
`∑ v obj_v x_v + constant = ∑ v base_v x_v + ∑ k e_k(x)` at every point `x`. -/
theorem attribute_store_follows_history {α : Type} [MachineScalar α] (calls : List (Call α)) (m : Model α)
    (ran : Model.new.run calls = .ok m) :
    (∀ v : Variable, v.id < m.nbVariables →
      (∀ att, att ≠ .objCoef → ∃ (pre : List (Change α)) (x : AttributeValue α), Call.history 0 v.id att calls = pre ++ [Change.write x] ∧
        m.tryGet att v = .ok ⟨.ok x, []⟩) ∧
      ∃ (pre : List (Change α)) (c : α) (adds : List α), Call.history 0 v.id .objCoef calls = pre ++ Change.write (.objCoef c) :: adds.map Change.add ∧
        m.tryGet .objCoef v = .ok ⟨.ok (.objCoef (adds.foldl (· + ·) c)), []⟩) ∧
    m.objConstant = (Call.constantsAdded 0 calls).foldl (· + ·) Scalar.zero ∧
    (∀ (exact : List (Call Exact)) (e : Model Exact), Model.new.run exact = .ok e → Call.Fits 0 exact →
      (∀ a v, Call.set (.objCoef a) v ∉ exact) → (∀ b ∈ Call.basesAdded exact, ∃ q, b = .finite q) →
      (∀ o ∈ Call.objectivesAdded 0 exact, o.Finite) → ∀ x : ℕ → ℚ,
      ∃ (obj : List ℚ) (constant : ℚ) (base values : List ℚ),
        e.varObj.toList = obj.map .finite ∧ e.objConstant = .finite constant ∧
        Call.basesAdded exact = base.map .finite ∧
        (Call.objectivesAdded 0 exact).map (e.evaluate · (Array.ofFn fun j : Fin e.nbVariables => .finite (x j))) =
          values.map (fun q => .ok ⟨.ok (.finite q), []⟩) ∧
        weighted obj x + constant = weighted base x + values.sum) := by
  refine ⟨fun v inside => Model.tryGet_of_run_by_attribute ran inside, Model.objConstant_of_run ran, ?exact⟩
  intro exact e ranExact fits unset bases objectives x
  exact Model.exactObjective_of_run fits ranExact unset bases objectives x

/-- A run over doubles that creates variables one at a time and in a block, accepts two objectives
around a setter of an objective coefficient and writes a bound; and a run read exactly with one
variable and one accepted objective: both runs end, and the theorem applies to both. -/
theorem attribute_store_follows_history_example :
    let calls : List (Call Float) := [.addVar ⟨2, 0, 10, .continuous⟩, .addVars 1 #[0],
      .addObj (.add (.scale 3 (.var 0)) (.shift (.var 1) 5)), .set (.objCoef 4) ⟨0⟩, .addObj (.var 0),
      .set (.lowerBound 1) ⟨1⟩]
    let exact : List (Call Exact) := [.addVar ⟨.finite 2, .finite 0, .finite 10, .continuous⟩,
      .addObj (.shift (.scale (.finite 3) (.var 0)) (.finite 5))]
    (∃ m, Model.new.run calls = .ok m ∧
      (∀ v : Variable, v.id < m.nbVariables →
        (∀ att, att ≠ .objCoef → ∃ (pre : List (Change Float)) (x : AttributeValue Float),
          Call.history 0 v.id att calls = pre ++ [Change.write x] ∧ m.tryGet att v = .ok ⟨.ok x, []⟩) ∧
        ∃ (pre : List (Change Float)) (c : Float) (adds : List Float),
          Call.history 0 v.id .objCoef calls = pre ++ Change.write (.objCoef c) :: adds.map Change.add ∧
          m.tryGet .objCoef v = .ok ⟨.ok (.objCoef (adds.foldl (· + ·) c)), []⟩) ∧
      m.objConstant = (Call.constantsAdded 0 calls).foldl (· + ·) Scalar.zero) ∧
    ∃ m, Model.new.run exact = .ok m ∧ Call.Fits 0 exact ∧ (∀ a v, Call.set (.objCoef a) v ∉ exact) ∧
      (∀ b ∈ Call.basesAdded exact, ∃ q, b = .finite q) ∧ (∀ e ∈ Call.objectivesAdded 0 exact, e.Finite) ∧
      ∀ x : ℕ → ℚ, ∃ (obj : List ℚ) (constant : ℚ) (base values : List ℚ),
        m.varObj.toList = obj.map .finite ∧ m.objConstant = .finite constant ∧
        Call.basesAdded exact = base.map .finite ∧
        (Call.objectivesAdded 0 exact).map (m.evaluate · (Array.ofFn fun j : Fin m.nbVariables => .finite (x j))) =
          values.map (fun q => .ok ⟨.ok (.finite q), []⟩) ∧
        weighted obj x + constant = weighted base x + values.sum := by
  intro calls exact
  have unset : ∀ a v, Call.set (.objCoef a) v ∉ exact := by
    simp [exact]
  have bases : ∀ b ∈ Call.basesAdded exact, ∃ q, b = .finite q := by
    intro b member
    simp [exact, Call.basesAdded, Call.basesAt] at member
    exact ⟨2, member⟩
  have objectives : ∀ e ∈ Call.objectivesAdded 0 exact, e.Finite := by
    intro e member
    simp [exact, Call.objectivesAdded, Call.annotate, Call.objectiveAt] at member
    -- the arithmetic is left unevaluated: a finite value is finite whatever rational it holds
    have items : e.terms.items = [(0, .finite (3 * 1))] := by
      rw [member.2]
      rfl
    refine ⟨fun p found => ⟨3 * 1, ?_⟩, 3 * 0 + 5, by rw [member.2]; rfl⟩
    rw [items, List.mem_singleton] at found
    rw [found]
  have fits : Call.Fits 0 exact := by decide +kernel
  have ran : Model.new.run calls = .ok _ := rfl
  have ranExact : Model.new.run exact = .ok _ := rfl
  obtain ⟨attributes, constant, identity⟩ := attribute_store_follows_history calls _ ran
  exact ⟨⟨_, ran, attributes, constant⟩, _, ranExact, fits, unset, bases, objectives,
    identity exact _ ranExact fits unset bases objectives⟩

/-- Two variables, the second with lower bound `5`, then a block of `2 ^ 64 - 1` variables: the
number of variables wraps to one, the second variable's history ends in its erasure, and its getter
refuses it where its bound was written. -/
theorem wrapped_block_erases_variable :
    let calls : List (Call Float) := [.addVar .default, .addVar ⟨0, 5, 1 / 0, .continuous⟩, .addVars (2 ^ 64 - 1) #[]]
    ∃ m, Model.new.run calls = .ok m ∧ m.nbVariables = 1 ∧
      Call.history 0 1 .lowerBound calls = [.write (.lowerBound 5), .erase] ∧
      ∃ r, m.tryGet .lowerBound ⟨1⟩ = .ok r ∧ r.result = .error (.invalidVariableId 1 1) := by
  intro calls
  refine ⟨_, Model.run_cons_eq_ok.mpr ⟨_, rfl, Model.run_cons_eq_ok.mpr ⟨_, rfl,
    Model.run_cons_eq_ok.mpr ⟨_, Model.exec_addVars_of_limit ?limit, rfl⟩⟩⟩, ?count, ?history, ?refused⟩
  case limit => decide +kernel
  case count => decide +kernel
  case history => rfl
  case refused =>
    refine ⟨_, Model.tryGet_of_ge _ ?outside .lowerBound, ?result⟩
    case outside => decide +kernel
    case result =>
      simp only [Step.reply, Model.reject_result, Except.error.injEq, ModelError.invalidVariableId.injEq, true_and]
      decide +kernel

end Milp
