import Mathlib.Algebra.GroupWithZero.Nat
import Milp.Model.Call

/-!
What each call of the store does, stated once so that later proofs cite these lemmas and never
unfold a call: the first id outside the model, the entries a constraint appends before it stops,
the outcome of each call when it is refused and when it is accepted, and how the number of
variables grows along a run.
-/
namespace Milp

/-- A computation followed by another ends normally exactly when the first gives a value from which
the second ends normally. -/
theorem bind_eq_ok {ε β γ : Type} {x : Except ε β} {f : β → Except ε γ} {y : γ} :
    x >>= f = .ok y ↔ ∃ b, x = .ok b ∧ f b = .ok y := by
  cases x <;> simp [bind, Except.bind]

/-- A computation ends in the fault `f` exactly when it ends in a fault and that fault is `f`: the
check a closed computation is decided by. -/
theorem eq_error_iff {ε β : Type} [DecidableEq ε] {x : Except ε β} {f : ε} :
    x = .error f ↔ (match x with | .error g => decide (g = f) | .ok _ => false) = true := by
  cases x <;> simp

/-- A sum of sizes that stays below `2 ^ 64` does not wrap. -/
theorem wordAdd_of_lt {a b : Nat} (fits : a + b < 2 ^ 64) : wordAdd a b = a + b := Nat.mod_eq_of_lt fits

namespace Terms

variable {α : Type}

/-- No id outside the model: every id read is below `n`. -/
theorem firstOutside_eq_none_iff (t : Terms α) (n : Nat) :
    t.firstOutside n = none ↔ ∀ j ∈ t.ids, j < n := by
  simp [firstOutside]

/-- The id reported is outside the model, and every id read before it is inside. -/
theorem firstOutside_eq_some_iff (t : Terms α) (n j : Nat) :
    t.firstOutside n = some j ↔ n ≤ j ∧ ∃ pre post, t.ids = pre ++ j :: post ∧ ∀ i ∈ pre, i < n := by
  simp [firstOutside, List.find?_eq_some_iff_append]

end Terms

namespace Model

variable {α : Type}

/-- The entries appended before the first id outside the model: the longest prefix of the terms
whose ids are all inside. -/
def appended (n : Nat) (ts : List (Nat × α)) : List (Nat × α) := ts.takeWhile fun p => p.1 < n

theorem appended_of_all {n : Nat} {ts : List (Nat × α)} (all : ∀ p ∈ ts, p.1 < n) : appended n ts = ts := by
  induction ts with
  | nil => rfl
  | cons p rest ih =>
    have head : p.1 < n := all p (by simp)
    have tail := ih fun q member => all q (by simp [member])
    unfold appended at tail ⊢
    simp [head, tail]

/-- Appending stops at the first id outside the model, having appended exactly the terms before it. -/
theorem appendEntries_eq (n : Nat) (subj : Array Nat) (cof : Array α) (ts : List (Nat × α)) :
    appendEntries n subj cof ts =
      ((ts.map Prod.fst).find? (n ≤ ·), subj ++ ((appended n ts).map Prod.fst).toArray,
        cof ++ ((appended n ts).map Prod.snd).toArray) := by
  induction ts generalizing subj cof with
  | nil => simp [appendEntries, appended]
  | cons p rest ih =>
    obtain ⟨j, c⟩ := p
    by_cases outside : n ≤ j
    · simp [appendEntries, appended, outside]
    · have below : j < n := by omega
      rw [appendEntries, if_neg outside, ih]
      simp [appended, outside, below]

/-- A refused call: the refusal of `j`, one warning, and the model as it was. -/
@[simp] theorem reject_model {β : Type} (m : Model α) (op : String) (j : Nat) :
    (m.reject op j : Step α β).model = m := rfl

@[simp] theorem reject_result {β : Type} (m : Model α) (op : String) (j : Nat) :
    (m.reject op j : Step α β).result = .error (.invalidVariableId j m.nbVariables) := rfl

@[simp] theorem reject_log {β : Type} (m : Model α) (op : String) (j : Nat) :
    (m.reject op j : Step α β).log = [.rejectedVariable op j m.nbVariables] := rfl

/-! ### Adding to the objective -/

section
variable [Scalar α]

theorem tryAddObj_of_outside (m : Model α) (e : Expr α) {j : Nat}
    (outside : e.terms.firstOutside m.nbVariables = some j) : m.tryAddObj e = .ok (m.reject "add_obj" j) := by
  simp [tryAddObj, outside]

theorem tryAddObj_of_fault (m : Model α) (e : Expr α) {f : Fault}
    (inside : e.terms.firstOutside m.nbVariables = none) (broken : e.terms.fault = some f) :
    m.tryAddObj e = .error f := by
  simp [tryAddObj, inside, broken]

theorem tryAddObj_of_inside (m : Model α) (e : Expr α) (inside : e.terms.firstOutside m.nbVariables = none)
    (whole : e.terms.fault = none) :
    m.tryAddObj e = .ok ⟨.ok (), { m with varObj := accumulate m.varObj e.terms.items,
                                          objConstant := m.objConstant + e.constant },
      [.accumulatedObjective e.terms.items.length]⟩ := by
  simp [tryAddObj, inside, whole]

end

/-! ### Adding a constraint -/

/-- The model with one more row: its terms appended to the entry vectors, its pointer pair and its
sides. -/
def withRow (m : Model α) (ts : List (Nat × α)) (lower upper : α) : Model α :=
  { m with aSubj := m.aSubj ++ (ts.map Prod.fst).toArray, aCof := m.aCof ++ (ts.map Prod.snd).toArray,
           conPtr := m.conPtr.push (m.aSubj.size, m.aSubj.size + ts.length),
           conLb := m.conLb.push lower, conUb := m.conUb.push upper }

section
variable [MachineScalar α]

/-- A refused constraint: cutting both entry vectors back to the former length of the ids leaves
them as they were, as long as the two have one length. -/
theorem tryAddConstraint_of_outside (m : Model α) (c : Constraint α) {j : Nat}
    (entries : m.aCof.size = m.aSubj.size) (outside : c.terms.firstOutside m.nbVariables = some j) :
    m.tryAddConstraint c = .ok (m.reject "add_constraint" j) := by
  have found : (c.terms.items.map Prod.fst).find? (m.nbVariables ≤ ·) = some j := outside
  have cut : ∀ xs : Array α, (m.aCof ++ xs).take m.aSubj.size = m.aCof := by
    intro xs
    rw [← entries]
    simp
  simp [tryAddConstraint, appendEntries_eq, found, cut]

theorem tryAddConstraint_of_fault (m : Model α) (c : Constraint α) {f : Fault}
    (inside : c.terms.firstOutside m.nbVariables = none) (broken : c.terms.fault = some f) :
    m.tryAddConstraint c = .error f := by
  have none : (c.terms.items.map Prod.fst).find? (m.nbVariables ≤ ·) = none := inside
  simp [tryAddConstraint, appendEntries_eq, none, broken]

theorem tryAddConstraint_of_inside (m : Model α) (c : Constraint α)
    (inside : c.terms.firstOutside m.nbVariables = none) (whole : c.terms.fault = none) :
    m.tryAddConstraint c = .ok ⟨.ok m.nbConstraints, m.withRow c.terms.items c.lower c.upper,
      [.addedConstraint m.nbConstraints c.terms.items.length]⟩ := by
  have none : (c.terms.items.map Prod.fst).find? (m.nbVariables ≤ ·) = none := inside
  have all : ∀ p ∈ c.terms.items, p.1 < m.nbVariables := by
    intro p member
    exact (c.terms.firstOutside_eq_none_iff m.nbVariables).mp inside p.1 (List.mem_map_of_mem member)
  simp [tryAddConstraint, appendEntries_eq, none, appended_of_all all, whole, withRow, nbConstraints]

end

/-! ### Reading and writing attributes -/

/-- The four attribute vectors have one length, the number of variables. -/
structure Aligned (m : Model α) : Prop where
  lowerBounds : m.varLb.size = m.nbVariables
  upperBounds : m.varUb.size = m.nbVariables
  categories : m.varType.size = m.nbVariables

/-- The value of an attribute of variable `j`, if its vector reaches `j`. -/
def attr? (m : Model α) (j : Nat) : Attribute → Option (AttributeValue α)
  | .objCoef => .objCoef <$> m.varObj[j]?
  | .lowerBound => .lowerBound <$> m.varLb[j]?
  | .upperBound => .upperBound <$> m.varUb[j]?
  | .category => .category <$> m.varType[j]?

/-- The model with a value written at variable `j` of its attribute's vector. -/
def assign (m : Model α) (j : Nat) : AttributeValue α → Model α
  | .objCoef c => { m with varObj := m.varObj.setIfInBounds j c }
  | .lowerBound b => { m with varLb := m.varLb.setIfInBounds j b }
  | .upperBound b => { m with varUb := m.varUb.setIfInBounds j b }
  | .category c => { m with varType := m.varType.setIfInBounds j c }

theorem read_eq_ok_iff (m : Model α) (j : Nat) (a : Attribute) (x : AttributeValue α) :
    m.read j a = .ok x ↔ m.attr? j a = some x := by
  cases a <;> cases x <;> simp [read, attr?, Vec.map_get_eq_ok]

/-- Inside an aligned model every attribute of every variable can be read. -/
theorem attr?_isSome {m : Model α} (aligned : m.Aligned) {j : Nat} (inside : j < m.nbVariables)
    (a : Attribute) : (m.attr? j a).isSome := by
  have := aligned.lowerBounds
  have := aligned.upperBounds
  have := aligned.categories
  cases a <;> simp [attr?, nbVariables] at * <;> omega

theorem tryGet_of_lt {m : Model α} (aligned : m.Aligned) {v : Variable} (inside : v.id < m.nbVariables)
    (a : Attribute) : ∃ x, m.attr? v.id a = some x ∧ m.tryGet a v = .ok ⟨.ok x, []⟩ := by
  obtain ⟨x, found⟩ := Option.isSome_iff_exists.mp (attr?_isSome aligned inside a)
  have read : m.read v.id a = .ok x := (read_eq_ok_iff m v.id a x).mpr found
  exact ⟨x, found, by simp [tryGet, inside, read, Functor.map, Except.map]⟩

theorem tryGet_of_ge (m : Model α) {v : Variable} (outside : m.nbVariables ≤ v.id) (a : Attribute) :
    m.tryGet a v = .ok (m.reject a.reader v.id).reply := by
  simp [tryGet, Nat.not_lt.mpr outside]

theorem trySet_of_lt {m : Model α} (aligned : m.Aligned) {v : Variable} (inside : v.id < m.nbVariables)
    (a : AttributeValue α) : m.trySet a v = .ok ⟨.ok (), m.assign v.id a, []⟩ := by
  have := aligned.lowerBounds
  have := aligned.upperBounds
  have := aligned.categories
  cases a <;> simp_all [trySet, write, assign, Vec.set, nbVariables, Functor.map, Except.map]

/-- A write that succeeds is the assignment. -/
theorem write_eq_ok {m m' : Model α} {j : Nat} {a : AttributeValue α} (wrote : m.write j a = .ok m') :
    m' = m.assign j a := by
  cases a <;> simp only [write, Vec.set] at wrote <;> split at wrote <;>
    simp_all [Functor.map, Except.map, assign]

theorem trySet_of_ge (m : Model α) {v : Variable} (outside : m.nbVariables ≤ v.id) (a : AttributeValue α) :
    m.trySet a v = .ok (m.reject a.attribute.writer v.id) := by
  simp [trySet, Nat.not_lt.mpr outside]

/-- Adding coefficients changes no length. -/
@[simp] theorem size_accumulate [Add α] (obj : Array α) (ts : List (Nat × α)) :
    (accumulate obj ts).size = obj.size := by
  induction ts generalizing obj with
  | nil => rfl
  | cons p rest ih => simp [accumulate, ih]

/-! ### What one call of a run can do -/

section
variable [MachineScalar α] {m m' : Model α}

/-- An objective call that ends normally is refused and changes nothing, or reads every id inside
and adds the whole expression. -/
theorem exec_addObj {e : Expr α} (ran : m.exec (.addObj e) = .ok m') :
    (∃ j, e.terms.firstOutside m.nbVariables = some j ∧ m' = m) ∨
    (e.terms.firstOutside m.nbVariables = none ∧ e.terms.fault = none ∧
      m' = { m with varObj := accumulate m.varObj e.terms.items, objConstant := m.objConstant + e.constant }) := by
  cases outside : e.terms.firstOutside m.nbVariables with
  | some j =>
    simp only [exec, tryAddObj_of_outside m e outside] at ran
    cases ran
    exact .inl ⟨j, rfl, rfl⟩
  | none =>
    cases broken : e.terms.fault with
    | some f => simp [exec, tryAddObj_of_fault m e outside broken, Functor.map, Except.map] at ran
    | none =>
      simp only [exec, tryAddObj_of_inside m e outside broken] at ran
      cases ran
      exact .inr ⟨rfl, rfl, rfl⟩

/-- A constraint call that ends normally is refused and changes nothing, or reads every id inside
and adds the row. -/
theorem exec_addConstraint {c : Constraint α} (entries : m.aCof.size = m.aSubj.size)
    (ran : m.exec (.addConstraint c) = .ok m') :
    (∃ j, c.terms.firstOutside m.nbVariables = some j ∧ m' = m) ∨
    (c.terms.firstOutside m.nbVariables = none ∧ c.terms.fault = none ∧
      m' = m.withRow c.terms.items c.lower c.upper) := by
  cases outside : c.terms.firstOutside m.nbVariables with
  | some j =>
    simp only [exec, tryAddConstraint_of_outside m c entries outside] at ran
    cases ran
    exact .inl ⟨j, rfl, rfl⟩
  | none =>
    cases broken : c.terms.fault with
    | some f => simp [exec, tryAddConstraint_of_fault m c outside broken, Functor.map, Except.map] at ran
    | none =>
      simp only [exec, tryAddConstraint_of_inside m c outside broken] at ran
      cases ran
      exact .inr ⟨rfl, rfl, rfl⟩

theorem exec_addConstraint_of_inside {c : Constraint α} (inside : c.terms.firstOutside m.nbVariables = none)
    (whole : c.terms.fault = none) : m.exec (.addConstraint c) = .ok (m.withRow c.terms.items c.lower c.upper) := by
  simp [exec, tryAddConstraint_of_inside m c inside whole, Functor.map, Except.map]

/-- A block is added exactly when the vectors, if they grow, stay within `maxVariables`; it is
then the block `addVars` adds, which sets the number of variables to the wrapped sum. -/
theorem tryAddVars_eq_ok {count : Nat} {table : Array Nat} {r : Block × Model α × Event} :
    m.tryAddVars count table = .ok r ↔
      (m.nbVariables < wordAdd m.nbVariables count → wordAdd m.nbVariables count ≤ maxVariables) ∧
        r = m.addVars count table := by
  unfold tryAddVars
  by_cases beyond : m.varObj.size < wordAdd m.varObj.size count ∧ maxVariables < wordAdd m.varObj.size count
  · simp only [if_pos beyond, reduceCtorEq, false_iff]
    simp only [nbVariables]
    omega
  · simp only [if_neg beyond, Except.ok.injEq, nbVariables]
    constructor
    · rintro rfl
      exact ⟨fun grows => by omega, rfl⟩
    · rintro ⟨-, rfl⟩
      rfl

/-- A block call that ends normally added the block, within `maxVariables` where the vectors grow. -/
theorem exec_addVars {count : Nat} {table : Array Nat} (ran : m.exec (.addVars count table) = .ok m') :
    (m.nbVariables < wordAdd m.nbVariables count → wordAdd m.nbVariables count ≤ maxVariables) ∧
      m' = (m.addVars count table).2.1 := by
  simp only [exec, Functor.map, Except.map] at ran
  cases added : m.tryAddVars count table with
  | error f => simp [added] at ran
  | ok r =>
    simp only [added, Except.ok.injEq] at ran
    obtain ⟨limit, rfl⟩ := tryAddVars_eq_ok.mp added
    exact ⟨limit, ran.symm⟩

theorem exec_addVars_of_limit {count : Nat} {table : Array Nat}
    (limit : m.nbVariables < wordAdd m.nbVariables count → wordAdd m.nbVariables count ≤ maxVariables) :
    m.exec (.addVars count table) = .ok (m.addVars count table).2.1 := by
  have added : m.tryAddVars count table = .ok (m.addVars count table) := tryAddVars_eq_ok.mpr ⟨limit, rfl⟩
  simp [exec, added, Functor.map, Except.map]

/-- A setter is refused and changes nothing, or writes its value at an id inside. -/
theorem exec_set {a : AttributeValue α} {v : Variable} (ran : m.exec (.set a v) = .ok m') :
    (m.nbVariables ≤ v.id ∧ m' = m) ∨ (v.id < m.nbVariables ∧ m' = m.assign v.id a) := by
  by_cases inside : v.id < m.nbVariables
  · simp only [exec, trySet, if_pos inside] at ran
    cases wrote : m.write v.id a with
    | error f => simp [wrote, Functor.map, Except.map] at ran
    | ok m₁ =>
      simp only [wrote, Functor.map, Except.map, Except.ok.injEq] at ran
      exact .inr ⟨inside, ran ▸ write_eq_ok wrote⟩
  · have outside : m.nbVariables ≤ v.id := by omega
    simp only [exec, trySet_of_ge m outside a] at ran
    cases ran
    exact .inl ⟨outside, rfl⟩

end

end Model

/-! ### Runs -/

namespace Call

variable {α : Type}

/-- The number of variables after a call, from `n` before it: a block adds its size as a machine
word does, wrapping past `2 ^ 64`. -/
def grow : Call α → Nat → Nat
  | .addVar _, n => n + 1
  | .addVars count _, n => wordAdd n count
  | _, n => n

/-- Each call of a run with the number of variables before it, from `n` at the start. -/
def annotate : Nat → List (Call α) → List (Call α × Nat)
  | _, [] => []
  | n, c :: rest => (c, n) :: annotate (c.grow n) rest

/-- A call whose sum of sizes stays below `2 ^ 64`, from `n` variables before it: only a block
adds a size that can wrap. -/
def fits : Call α → Nat → Prop
  | .addVars count _, n => n + count < 2 ^ 64
  | _, _ => True

instance decidableFits : (c : Call α) → (n : Nat) → Decidable (c.fits n)
  | .addVars count _, n => Nat.decLt (n + count) (2 ^ 64)
  | .addVar _, _ | .addObj _, _ | .addConstraint _, _ | .set _ _, _ | .setSense _, _ => isTrue trivial

/-- A run from `n` variables in which no block wraps the number of variables. -/
def Fits (n : Nat) (calls : List (Call α)) : Prop := ∀ p ∈ annotate n calls, p.1.fits p.2

instance (n : Nat) (calls : List (Call α)) : Decidable (Fits n calls) :=
  inferInstanceAs (Decidable (∀ p ∈ annotate n calls, p.1.fits p.2))

theorem fits_nil (n : Nat) : Fits n ([] : List (Call α)) := by
  simp [Fits, annotate]

theorem fits_cons {n : Nat} {c : Call α} {rest : List (Call α)} :
    Fits n (c :: rest) ↔ c.fits n ∧ Fits (c.grow n) rest := by
  simp [Fits, annotate]

/-- A call that fits never takes variables away. -/
theorem le_grow {c : Call α} {n : Nat} (fits : c.fits n) : n ≤ c.grow n := by
  cases c with
  | addVars count table => simp [grow, wordAdd_of_lt fits]
  | _ => simp [grow]

end Call

namespace Model

variable {α : Type} [MachineScalar α]

theorem run_cons_eq_ok {m m'' : Model α} {c : Call α} {rest : List (Call α)} :
    m.run (c :: rest) = .ok m'' ↔ ∃ m', m.exec c = .ok m' ∧ m'.run rest = .ok m'' := by
  simp only [run]
  cases m.exec c <;> simp

/-- What every call keeps, every run keeps. -/
theorem run_preserves {P : Model α → Prop} (step : ∀ m m' c, P m → m.exec c = .ok m' → P m') :
    ∀ (calls : List (Call α)) (m m' : Model α), P m → m.run calls = .ok m' → P m' := by
  intro calls
  induction calls with
  | nil =>
    intro m m' holds ran
    cases ran
    exact holds
  | cons c rest ih =>
    intro m m'' holds ran
    obtain ⟨m', first, later⟩ := run_cons_eq_ok.mp ran
    exact ih m' m'' (step m m' c holds first) later

/-- Each call changes the number of variables as `grow` says. -/
theorem exec_nbVariables {m m' : Model α} {c : Call α} (entries : m.aCof.size = m.aSubj.size)
    (ran : m.exec c = .ok m') : m'.nbVariables = c.grow m.nbVariables := by
  cases c with
  | addVar o =>
    cases ran
    simp [addVar, nbVariables, Call.grow]
  | addVars count table =>
    obtain ⟨-, rfl⟩ := exec_addVars ran
    simp [addVars, nbVariables, Call.grow]
  | addObj e =>
    rcases exec_addObj ran with ⟨j, -, rfl⟩ | ⟨-, -, rfl⟩
    · rfl
    · simp [nbVariables, Call.grow]
  | addConstraint c =>
    rcases exec_addConstraint entries ran with ⟨j, -, rfl⟩ | ⟨-, -, rfl⟩
    · rfl
    · rfl
  | set a v =>
    rcases exec_set ran with ⟨-, rfl⟩ | ⟨-, rfl⟩
    · rfl
    · cases a <;> simp [assign, nbVariables, Call.grow]
  | setSense s =>
    cases ran
    rfl

end Model

end Milp
