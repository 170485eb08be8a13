import Mathlib.Data.List.Induction
import Milp.Proofs.WellFormed

/-!
# The attribute store along a run

What a run leaves in the attribute vectors, read as the history of each attribute of each variable.
A variable's creation writes all four of its attributes (the options of `addVar`, the defaults for a
block), an accepted setter writes one, and an accepted objective adds to the objective coefficient
the coefficients of the terms with that id, in traversal order. A block whose end wraps past
`2 ^ 64` erases the variables past the wrapped end. Refused calls change nothing.

Every call changes an attribute as its changes say (`exec_attr?`), so a run changes it as its
history says (`run_attr?`): the value of a variable that exists is the last write, with the later
additions folded onto it from the left in order. The objective constant is the left fold of the
accepted constants.
-/
namespace Milp

/-- One change a call makes to one attribute of one variable. -/
inductive Change (α : Type) where
  /-- A value written: at the variable's creation, or by an accepted setter. -/
  | write (x : AttributeValue α)
  /-- A coefficient an accepted objective adds to the objective coefficient. -/
  | add (c : α)
  /-- The variable cut off by a block whose end wrapped. -/
  | erase

namespace AttributeValue

variable {α : Type} [Add α]

/-- A value with a coefficient added: only an objective coefficient takes one. -/
def plus : AttributeValue α → α → AttributeValue α
  | .objCoef a, c => .objCoef (a + c)
  | x, _ => x

/-- Additions folded onto an objective coefficient are its left fold. -/
theorem foldl_plus_objCoef (cs : List α) (a : α) : cs.foldl plus (.objCoef a) = .objCoef (cs.foldl (· + ·) a) := by
  induction cs generalizing a with
  | nil => rfl
  | cons c rest ih => exact ih (a + c)

end AttributeValue

namespace Change

variable {α : Type} [Add α]

/-- The value an attribute has after a change: a write replaces it, an addition adds to it, and an
erasure removes it. -/
def apply : Option (AttributeValue α) → Change α → Option (AttributeValue α)
  | _, .write x => some x
  | v, .add c => v.map (·.plus c)
  | _, .erase => none

theorem foldl_apply_adds (cs : List α) (v : Option (AttributeValue α)) :
    (cs.map add).foldl apply v = v.map (cs.foldl AttributeValue.plus ·) := by
  induction cs generalizing v with
  | nil => cases v <;> rfl
  | cons c rest ih => cases v <;> simp [apply, ih]

/-- Changes that leave an unset attribute with a value end at their last write and then additions
only: the value is that write with the additions folded onto it from the left. -/
theorem eq_last_write {l : List (Change α)} {y : AttributeValue α} (set : l.foldl apply none = some y) :
    ∃ pre x, ∃ adds : List α, l = pre ++ write x :: adds.map add ∧ y = adds.foldl AttributeValue.plus x := by
  -- the last change decides: a write is the last write, an addition goes back one change
  induction l using List.reverseRecOn generalizing y with
  | nil => simp at set
  | append_singleton l ch ih =>
    rw [List.foldl_append, List.foldl_cons, List.foldl_nil] at set
    cases ch with
    | write x =>
      simp only [apply, Option.some.injEq] at set
      exact ⟨l, x, [], by simp, set.symm⟩
    | add c =>
      simp only [apply] at set
      obtain ⟨y', before, rfl⟩ := Option.map_eq_some_iff.mp set
      obtain ⟨pre, x, adds, rfl, rfl⟩ := ih before
      exact ⟨pre, x, adds ++ [c], by simp, by simp⟩
    | erase => simp [apply] at set

end Change

/-! ## The changes of a run -/

namespace Call

variable {α : Type} [MachineScalar α]

/-- The changes a call makes to attribute `att` of variable `j`, on a model with `n` variables. -/
def changes (j : Nat) (att : Attribute) : Call α → Nat → List (Change α)
  | .addVar o, n => if j = n then [.write (o.get att)] else []
  | .addVars count _, n =>
    if n ≤ j ∧ j < wordAdd n count then [.write ((VarOptions.default : VarOptions α).get att)]
    else if wordAdd n count ≤ j ∧ j < n then [.erase] else []
  | .addObj e, n =>
    if att = .objCoef ∧ e.terms.firstOutside n = none then
      (e.terms.items.filter fun p => p.1 = j).map fun p => .add p.2
    else []
  | .set x v, n => if v.id = j ∧ j < n ∧ x.attribute = att then [.write x] else []
  | _, _ => []

/-- The changes a run from a model with `n` variables makes to attribute `att` of variable `j`, in
call order. -/
def history (n j : Nat) (att : Attribute) (calls : List (Call α)) : List (Change α) :=
  (annotate n calls).flatMap fun p => p.1.changes j att p.2

/-- The constant an accepted objective adds to the objective constant. -/
def constantAt : Call α → Nat → List α
  | .addObj e, n => if e.terms.firstOutside n = none then [e.constant] else []
  | _, _ => []

/-- The constants of the accepted objectives of a run from a model with `n` variables, in order. -/
def constantsAdded (n : Nat) (calls : List (Call α)) : List α :=
  (annotate n calls).flatMap fun p => p.1.constantAt p.2

/-- A value written to an attribute is a value of that attribute. -/
theorem attribute_of_write_mem_changes {j : Nat} {att : Attribute} {c : Call α} {n : Nat} {x : AttributeValue α}
    (written : Change.write x ∈ c.changes j att n) : x.attribute = att := by
  cases c <;> simp only [changes] at written
  case addVar o =>
    split at written <;> simp at written
    rw [written]
    cases att <;> rfl
  case addVars count table =>
    split at written
    · simp only [List.mem_singleton, Change.write.injEq] at written
      rw [written]
      cases att <;> rfl
    · split at written <;> simp at written
  case addObj e =>
    split at written <;> simp at written
  case set y v =>
    split at written <;> simp_all
  all_goals simp at written

/-- Only the objective coefficient takes additions. -/
theorem objCoef_of_add_mem_changes {j : Nat} {att : Attribute} {c : Call α} {n : Nat} {a : α}
    (added : Change.add a ∈ c.changes j att n) : att = .objCoef := by
  cases c <;> simp only [changes] at added
  case addObj e =>
    split at added
    · exact (‹_ ∧ _›).1
    · simp at added
  case addVar o => split at added <;> simp at added
  case addVars count table => repeat (split at added <;> try simp at added)
  case set y v => split at added <;> simp at added
  all_goals simp at added

end Call

/-! ## What one call does to the attribute vectors -/

namespace Model

variable {α : Type} {m m' : Model α}

/-- Adding coefficients adds to entry `j` the coefficients of the terms with id `j`, in order. -/
theorem getElem?_accumulate [Add α] (obj : Array α) (ts : List (Nat × α)) (j : Nat) :
    (accumulate obj ts)[j]? = obj[j]?.map fun a => ((ts.filter fun p => p.1 = j).map Prod.snd).foldl (· + ·) a := by
  induction ts generalizing obj with
  | nil => simp [accumulate]
  | cons p rest ih =>
    obtain ⟨k, c⟩ := p
    rw [accumulate, ih, Array.getElem?_modify]
    by_cases same : k = j
    · subst same
      cases obj[k]? <;> simp
    · simp [same]

theorem attr?_addVar (aligned : m.Aligned) (o : VarOptions α) (j : Nat) (att : Attribute) :
    (m.addVar o).2.1.attr? j att = if j = m.nbVariables then some (o.get att) else m.attr? j att := by
  have lower := aligned.lowerBounds
  have upper := aligned.upperBounds
  have types := aligned.categories
  simp only [nbVariables] at lower upper types ⊢
  cases att <;> simp only [addVar, attr?, VarOptions.get, Array.getElem?_push, lower, upper, types] <;>
    split <;> simp [*]

/-- An attribute past the end of aligned vectors has no value. -/
theorem attr?_of_ge (aligned : m.Aligned) {j : Nat} (outside : m.nbVariables ≤ j) (att : Attribute) :
    m.attr? j att = none := by
  have lower := aligned.lowerBounds
  have upper := aligned.upperBounds
  have types := aligned.categories
  simp only [nbVariables] at lower upper types outside
  cases att <;> simp [attr?, lower, upper, types, outside]

theorem attr?_addVars [MachineScalar α] (aligned : m.Aligned) (count : Nat) (table : Array Nat) (j : Nat)
    (att : Attribute) :
    (m.addVars count table).2.1.attr? j att =
      if j < wordAdd m.nbVariables count then
        (if m.nbVariables ≤ j then some ((VarOptions.default : VarOptions α).get att) else m.attr? j att)
      else none := by
  have costs : m.varObj.size = m.nbVariables := rfl
  have lower := aligned.lowerBounds
  have upper := aligned.upperBounds
  have types := aligned.categories
  -- each attribute reads its own vector, resized from the number of variables to the wrapped sum
  have resized : ∀ {β : Type} (xs : Array β) (d : β), xs.size = m.nbVariables →
      (Vec.resize xs (wordAdd m.varObj.size count) d)[j]? =
        if j < wordAdd m.nbVariables count then (if m.nbVariables ≤ j then some d else xs[j]?) else none :=
    fun xs d size => Vec.getElem?_resize_of_size size _ d j
  cases att <;> simp only [addVars, attr?, VarOptions.get] <;> rw [resized _ _ (by assumption)] <;>
    split_ifs <;> rfl

theorem attr?_assign (aligned : m.Aligned) {k : Nat} (inside : k < m.nbVariables) (x : AttributeValue α)
    (j : Nat) (att : Attribute) :
    (m.assign k x).attr? j att = if j = k ∧ x.attribute = att then some x else m.attr? j att := by
  have lower := aligned.lowerBounds
  have upper := aligned.upperBounds
  have types := aligned.categories
  simp only [nbVariables] at lower upper types inside
  by_cases same : j = k
  · subst same
    cases x <;> cases att <;> simp [assign, attr?, AttributeValue.attribute, inside, lower, upper, types]
  · cases x <;> cases att <;> simp [assign, attr?, AttributeValue.attribute, same, Ne.symm same]

variable [MachineScalar α]

/-- Each call changes an attribute as its changes say. -/
theorem exec_attr? (aligned : m.Aligned) (entries : m.aCof.size = m.aSubj.size) {c : Call α}
    (ran : m.exec c = .ok m') (j : Nat) (att : Attribute) :
    m'.attr? j att = (c.changes j att m.nbVariables).foldl Change.apply (m.attr? j att) := by
  cases c with
  | addVar o =>
    cases ran
    rw [attr?_addVar aligned]
    by_cases fresh : j = m.nbVariables <;> simp [Call.changes, fresh, Change.apply]
  | addVars count table =>
    obtain ⟨-, rfl⟩ := exec_addVars ran
    rw [attr?_addVars aligned]
    -- below both ends the attribute stays; between them it is new or cut off; past both it is unset
    by_cases kept : j < wordAdd m.nbVariables count <;> by_cases old : j < m.nbVariables
    · simp [Call.changes, kept, old, Nat.not_le.mpr old, Nat.not_le.mpr kept]
    · simp [Call.changes, kept, Nat.not_lt.mp old, Change.apply]
    · simp [Call.changes, kept, old, Nat.not_lt.mp kept, Change.apply]
    · simp [Call.changes, kept, old, attr?_of_ge aligned (Nat.not_lt.mp old)]
  | addObj e =>
    rcases exec_addObj ran with ⟨k, outside, rfl⟩ | ⟨inside, -, rfl⟩
    · simp [Call.changes, outside]
    · cases att
      case objCoef =>
        -- the additions to `j` are the coefficients of its terms, folded in order
        have adds := Change.foldl_apply_adds ((e.terms.items.filter fun p => p.1 = j).map Prod.snd)
          (AttributeValue.objCoef <$> m.varObj[j]?)
        simp only [List.map_map] at adds
        simp only [Call.changes, inside, and_self, if_true, attr?, getElem?_accumulate]
        rw [show (fun p : Nat × α => Change.add p.2) = Change.add ∘ Prod.snd from rfl, adds]
        cases m.varObj[j]? <;> simp [AttributeValue.foldl_plus_objCoef]
      all_goals simp [Call.changes, attr?]
  | addConstraint c =>
    rcases exec_addConstraint entries ran with ⟨k, -, rfl⟩ | ⟨-, -, rfl⟩
    · simp [Call.changes]
    · simp only [Call.changes, List.foldl_nil]
      cases att <;> rfl
  | set x v =>
    rcases exec_set ran with ⟨outside, same⟩ | ⟨inside, rfl⟩
    · have refused : ¬(v.id = j ∧ j < m.nbVariables ∧ x.attribute = att) := by omega
      simp [Call.changes, refused, same]
    · rw [attr?_assign aligned inside]
      by_cases hit : j = v.id ∧ x.attribute = att
      · obtain ⟨rfl, same⟩ := hit
        simp [Call.changes, inside, same, Change.apply]
      · have missed : ¬(v.id = j ∧ j < m.nbVariables ∧ x.attribute = att) := by
          rintro ⟨rfl, -, same⟩
          exact hit ⟨rfl, same⟩
        simp [Call.changes, hit, missed]
  | setSense s =>
    cases ran
    simp only [Call.changes, List.foldl_nil]
    cases att <;> rfl

/-- Each call adds the constant of an accepted objective to the objective constant. -/
theorem exec_objConstant (entries : m.aCof.size = m.aSubj.size) {c : Call α} (ran : m.exec c = .ok m') :
    m'.objConstant = (c.constantAt m.nbVariables).foldl (· + ·) m.objConstant := by
  cases c with
  | addObj e =>
    rcases exec_addObj ran with ⟨k, outside, rfl⟩ | ⟨inside, -, rfl⟩
    · simp [Call.constantAt, outside]
    · simp [Call.constantAt, inside]
  | addConstraint c =>
    rcases exec_addConstraint entries ran with ⟨k, -, rfl⟩ | ⟨-, -, rfl⟩ <;> rfl
  | set x v =>
    rcases exec_set ran with ⟨-, rfl⟩ | ⟨-, rfl⟩
    · rfl
    · cases x <;> rfl
  | addVar o => cases ran; rfl
  | addVars count table =>
    obtain ⟨-, rfl⟩ := exec_addVars ran
    rfl
  | setSense s => cases ran; rfl

/-! ## What a run does to the attribute vectors -/

/-- What each call does to a reading of the model, as a fold of its effects, a run does as the
fold of the effects of all its calls, each on the number of variables before it. -/
theorem run_foldl {β γ : Type} (read : Model α → β) (effect : Call α → Nat → List γ) (apply : β → γ → β)
    (step : ∀ {R : List (Row α)} {m m' : Model α} {c : Call α}, m.Stored R → m.exec c = .ok m' →
      read m' = (effect c m.nbVariables).foldl apply (read m))
    {R : List (Row α)} (stored : m.Stored R) {calls : List (Call α)} (ran : m.run calls = .ok m') :
    read m' = ((Call.annotate m.nbVariables calls).flatMap fun p => effect p.1 p.2).foldl apply (read m) := by
  induction calls generalizing R m with
  | nil =>
    cases ran
    rfl
  | cons c rest ih =>
    obtain ⟨m₁, first, later⟩ := run_cons_eq_ok.mp ran
    have grown : m₁.nbVariables = c.grow m.nbVariables := exec_nbVariables stored.entries first
    rw [ih (stored.exec first) later, grown, step stored first]
    simp [Call.annotate, List.foldl_append]

/-- A run changes an attribute as its history says. -/
theorem run_attr? {R : List (Row α)} (stored : m.Stored R) {calls : List (Call α)} (ran : m.run calls = .ok m')
    (j : Nat) (att : Attribute) :
    m'.attr? j att = (Call.history m.nbVariables j att calls).foldl Change.apply (m.attr? j att) :=
  run_foldl (fun m => m.attr? j att) (fun c n => c.changes j att n) Change.apply
    (fun stored ran => exec_attr? stored.toAligned stored.entries ran j att) stored ran

/-- A run adds the constants of its accepted objectives to the objective constant, in order. -/
theorem run_objConstant {R : List (Row α)} (stored : m.Stored R) {calls : List (Call α)}
    (ran : m.run calls = .ok m') :
    m'.objConstant = (Call.constantsAdded m.nbVariables calls).foldl (· + ·) m.objConstant :=
  run_foldl Model.objConstant Call.constantAt (· + ·) (fun stored ran => exec_objConstant stored.entries ran)
    stored ran

end Model

namespace Call

variable {α : Type} [MachineScalar α]

theorem attribute_of_write_mem_history {n j : Nat} {att : Attribute} {calls : List (Call α)} {x : AttributeValue α}
    (written : Change.write x ∈ history n j att calls) : x.attribute = att := by
  obtain ⟨p, -, found⟩ := List.mem_flatMap.mp written
  exact attribute_of_write_mem_changes found

theorem objCoef_of_add_mem_history {n j : Nat} {att : Attribute} {calls : List (Call α)} {a : α}
    (added : Change.add a ∈ history n j att calls) : att = .objCoef := by
  obtain ⟨p, -, found⟩ := List.mem_flatMap.mp added
  exact objCoef_of_add_mem_changes found

end Call

namespace Model

variable {α : Type} [MachineScalar α]

/-- After a run from the empty model, every attribute of every variable is the last value its
history writes, with the later additions folded onto it from the left; the getter returns it. -/
theorem tryGet_of_run {calls : List (Call α)} {m : Model α} (ran : Model.new.run calls = .ok m) {v : Variable}
    (inside : v.id < m.nbVariables) (att : Attribute) :
    ∃ pre x, ∃ adds : List α, Call.history 0 v.id att calls = pre ++ .write x :: adds.map .add ∧
      m.tryGet att v = .ok ⟨.ok (adds.foldl AttributeValue.plus x), []⟩ := by
  obtain ⟨R, stored⟩ := Reachable.stored ⟨calls, ran⟩
  obtain ⟨y, found, got⟩ := tryGet_of_lt stored.toAligned inside att
  have folded := run_attr? stored_new ran v.id att
  have unset : (Model.new : Model α).attr? v.id att = none := by
    cases att <;> rfl
  have start : (Model.new : Model α).nbVariables = 0 := rfl
  rw [found, unset, start] at folded
  -- the variable exists, so its history ends at a write and then additions
  obtain ⟨pre, x, adds, split, rfl⟩ := Change.eq_last_write folded.symm
  exact ⟨pre, x, adds, split, got⟩

/-- After a run from the empty model, a bound or the type of a variable is the last value its
history writes, and its objective coefficient is the last value written with the later additions
folded onto it by `+` from the left. -/
theorem tryGet_of_run_by_attribute {calls : List (Call α)} {m : Model α} (ran : Model.new.run calls = .ok m)
    {v : Variable} (inside : v.id < m.nbVariables) :
    (∀ att, att ≠ .objCoef → ∃ pre x, Call.history 0 v.id att calls = pre ++ [.write x] ∧
      m.tryGet att v = .ok ⟨.ok x, []⟩) ∧
    ∃ pre c, ∃ adds : List α, Call.history 0 v.id .objCoef calls = pre ++ .write (.objCoef c) :: adds.map .add ∧
      m.tryGet .objCoef v = .ok ⟨.ok (.objCoef (adds.foldl (· + ·) c)), []⟩ := by
  constructor
  · -- only the objective coefficient takes additions, so the last write ends the history
    intro att other
    obtain ⟨pre, x, adds, split, got⟩ := tryGet_of_run ran inside att
    cases adds with
    | nil => exact ⟨pre, x, by simpa using split, by simpa using got⟩
    | cons a rest =>
      have added : Change.add a ∈ Call.history 0 v.id att calls := by simp [split]
      exact absurd (Call.objCoef_of_add_mem_history added) other
  · -- the last write is a write of the objective coefficient
    obtain ⟨pre, x, adds, split, got⟩ := tryGet_of_run ran inside .objCoef
    have written : Change.write x ∈ Call.history 0 v.id .objCoef calls := by simp [split]
    have kind := Call.attribute_of_write_mem_history written
    cases x with
    | objCoef c => exact ⟨pre, c, adds, split, by rw [got, AttributeValue.foldl_plus_objCoef]⟩
    | _ => cases kind

/-- After a run from the empty model, the objective constant is the left fold of `+` from zero
over the constants of the accepted objectives. -/
theorem objConstant_of_run {calls : List (Call α)} {m : Model α} (ran : Model.new.run calls = .ok m) :
    m.objConstant = (Call.constantsAdded 0 calls).foldl (· + ·) Scalar.zero :=
  run_objConstant stored_new ran

end Model

end Milp
