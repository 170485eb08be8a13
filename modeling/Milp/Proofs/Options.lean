import Milp.Proofs.Handoff
import Milp.Script.Run

/-!
# Options are checked before they are kept

An option call names an option and gives a value. The name is refused when it holds a NUL, is
empty or is not an option of the solver library. Otherwise the value is widened when it is an
integer for a double option, then kept when it has the option's kind, can be handed over and the
library accepts it, and refused as a value otherwise. A session goes on with the backend as it was
after a refused call, and with the value appended to the buffer after a kept one.

So every option a backend buffers passes the check again as it stands (`Backend.Checked`), along
every session and for every library: the solve sets the two output switches and then each buffered
option in the order it was kept, each with the setter of the option's own kind, and none of them
is refused.
-/
namespace Milp

/-! ## Widening -/

namespace OptionValue

/-- The value an option of kind `k` receives for `v`: an integer for a double option as the same
number in double precision, any other value as given. -/
def Widened (k : OptionKind) (v w : OptionValue) : Prop :=
  (∃ i, v = .int i ∧ k = .double ∧ w = .float (Float.ofInt i)) ∨ (¬(v.kind = .int ∧ k = .double) ∧ w = v)

theorem widened_widen (k : OptionKind) (v : OptionValue) : Widened k v (v.widen k) := by
  cases v with
  | int i =>
    by_cases double : k = .double
    · exact Or.inl ⟨i, rfl, double, by simp [widen, double]⟩
    · exact Or.inr ⟨by simp [kind, double], by simp [widen, double]⟩
  | bool b => exact Or.inr ⟨by simp [kind], rfl⟩
  | float x => exact Or.inr ⟨by simp [kind], rfl⟩
  | str s => exact Or.inr ⟨by simp [kind], rfl⟩

/-- The widened value has the option's kind exactly when the value had it, or was an integer for a
double option. -/
theorem kind_widen_eq_iff (k : OptionKind) (v : OptionValue) :
    (v.widen k).kind = k ↔ v.kind = k ∨ (v.kind = .int ∧ k = .double) := by
  cases v with
  | int i => by_cases double : k = .double <;> simp [widen, kind, double, eq_comm]
  | bool b => simp [widen, kind]
  | float x => simp [widen, kind]
  | str s => simp [widen, kind]

theorem widen_of_kind {k : OptionKind} {v : OptionValue} (same : v.kind = k) : v.widen k = v := by
  cases v with
  | int i =>
    have notDouble : k ≠ .double := by simp [← same, kind]
    simp [widen, notDouble]
  | bool b => rfl
  | float x => rfl
  | str s => rfl

end OptionValue

/-! ## One check -/

section Check

variable {h : Highs} {name : String} {v w : OptionValue} {k : OptionKind}

/-- A name that holds a NUL, is empty or names no option is refused as a name. -/
theorem checkOption_of_name (bad : name.contains '\x00' = true ∨ name = "" ∨ h.optionKind name = none) :
    h.checkOption name v = .error .name := by
  unfold Highs.checkOption
  rcases bad with nul | empty | unknown
  · simp [nul]
  · simp [empty]
  · split
    · rfl
    · rw [unknown]

/-- Past the name, the widened value is kept when it has the option's kind, can be handed over and
the library accepts it, and refused as a value of the option's kind otherwise. -/
theorem checkOption_of_kind (nul : name.contains '\x00' = false) (nonempty : name ≠ "")
    (found : h.optionKind name = some k) :
    h.checkOption name v =
      if (v.widen k).kind = k ∧ (v.widen k).passable = true ∧ h.accepts name (v.widen k) = true then
        .ok (v.widen k)
      else .error (.value k (v.widen k)) := by
  have named : ¬(name.contains '\x00' = true ∨ name.isEmpty = true) := by
    simp [nul, String.isEmpty_iff, nonempty]
  simp only [Highs.checkOption, named, found, if_false]

theorem named_of_not_refused (named : ¬(name.contains '\x00' = true ∨ name = "" ∨ h.optionKind name = none)) :
    name.contains '\x00' = false ∧ name ≠ "" ∧ ∃ k, h.optionKind name = some k := by
  refine ⟨by simpa using fun nul => named (Or.inl nul), fun empty => named (Or.inr (Or.inl empty)), ?_⟩
  exact Option.ne_none_iff_exists'.mp fun unknown => named (Or.inr (Or.inr unknown))

/-- A kept value is the widened value, of a named option's kind, one that can be handed over and
that the library accepts. -/
theorem checkOption_eq_ok (kept : h.checkOption name v = .ok w) :
    ∃ k, name.contains '\x00' = false ∧ name ≠ "" ∧ h.optionKind name = some k ∧
      w = v.widen k ∧ w.kind = k ∧ w.passable = true ∧ h.accepts name w = true := by
  by_cases bad : name.contains '\x00' = true ∨ name = "" ∨ h.optionKind name = none
  · rw [checkOption_of_name bad] at kept
    cases kept
  · obtain ⟨nul, nonempty, k, found⟩ := named_of_not_refused bad
    rw [checkOption_of_kind nul nonempty found] at kept
    split at kept
    · rename_i accepted
      cases kept
      exact ⟨k, nul, nonempty, found, rfl, accepted⟩
    · cases kept

/-- A kept value passes the check again as it stands. -/
theorem checkOption_kept (kept : h.checkOption name v = .ok w) : h.checkOption name w = .ok w := by
  obtain ⟨k, nul, nonempty, found, -, accepted⟩ := checkOption_eq_ok kept
  rw [checkOption_of_kind nul nonempty found, OptionValue.widen_of_kind accepted.1, if_pos accepted]

end Check

/-! ## One call -/

/-- What an option call answers, stated against the library: a refusal of the name when it holds a
NUL, is empty or names no option; otherwise the widened value, kept and appended to the buffer when
it has the option's kind, can be handed over and the library accepts it, refused as a value of the
option's kind otherwise. -/
def OptionAnswer (h : Highs) (b : Backend) (name : String) (v : OptionValue) :
    Except SolverError Backend × Event → Prop
  | (.error (.invalidOptionName n), ev) =>
    n = name ∧ ev = .rejectedOption name "HIGHS_INVALID_OPTION_NAME" ∧
      (name.contains '\x00' = true ∨ name = "" ∨ h.optionKind name = none)
  | (.error (.invalidOptionValue n k w), ev) =>
    n = name ∧ ev = .rejectedOption name "HIGHS_INVALID_OPTION_VALUE" ∧
      name.contains '\x00' = false ∧ name ≠ "" ∧ h.optionKind name = some k ∧
        OptionValue.Widened k v w ∧ ¬(w.kind = k ∧ w.passable = true ∧ h.accepts name w = true)
  | (.ok b', ev) =>
    ∃ k w, name.contains '\x00' = false ∧ name ≠ "" ∧ h.optionKind name = some k ∧
      OptionValue.Widened k v w ∧ w.kind = k ∧ w.passable = true ∧ h.accepts name w = true ∧
      b' = { b with options := b.options.push (name, w) } ∧ ev = .bufferedOption name w
  | _ => False

namespace Backend

variable {h : Highs} {b b' : Backend} {name : String} {v w : OptionValue}

/-- Every option call answers as the library says. -/
theorem trySetParameter_answer (h : Highs) (b : Backend) (name : String) (v : OptionValue) :
    OptionAnswer h b name v (b.trySetParameter h name v) := by
  by_cases bad : name.contains '\x00' = true ∨ name = "" ∨ h.optionKind name = none
  · simp only [trySetParameter, checkOption_of_name bad]
    exact ⟨rfl, rfl, bad⟩
  · obtain ⟨nul, nonempty, k, found⟩ := named_of_not_refused bad
    have widened := OptionValue.widened_widen k v
    by_cases accepted : (v.widen k).kind = k ∧ (v.widen k).passable = true ∧ h.accepts name (v.widen k) = true
    · simp only [trySetParameter, checkOption_of_kind nul nonempty found, if_pos accepted]
      exact ⟨k, _, nul, nonempty, found, widened, accepted.1, accepted.2.1, accepted.2.2, rfl, rfl⟩
    · simp only [trySetParameter, checkOption_of_kind nul nonempty found, if_neg accepted]
      exact ⟨rfl, rfl, nul, nonempty, found, widened, accepted⟩

theorem trySetParameter_eq_ok (kept : (b.trySetParameter h name v).1 = .ok b') :
    ∃ w, h.checkOption name v = .ok w ∧ b' = { b with options := b.options.push (name, w) } := by
  unfold trySetParameter at kept
  split at kept
  · rename_i w checked
    cases kept
    exact ⟨w, checked, rfl⟩
  · cases kept
  · cases kept

/-! ## Along a session -/

/-- Every buffered option passes the check again as it stands. -/
def Checked (h : Highs) (b : Backend) : Prop := ∀ p ∈ b.options, h.checkOption p.1 p.2 = .ok p.2

/-- The output switches pass the check of a lawful library, whichever way they are set. -/
theorem outputSwitches_checked (lawful : h.Lawful) (console : Bool) :
    ∀ p ∈ outputSwitches console, h.checkOption p.1 p.2 = .ok p.2 := by
  intro p member
  obtain ⟨kind, accepted⟩ := lawful.switches console p member
  simp only [outputSwitches, List.mem_cons, List.not_mem_nil, or_false] at member
  -- both switches have plain names and a bool value
  have named : p.1.contains '\x00' = false ∧ p.1 ≠ "" ∧ p.2 = .bool console := by
    rcases member with rfl | rfl <;> exact ⟨by simp, by simp, rfl⟩
  obtain ⟨nul, nonempty, value⟩ := named
  have same : p.2.kind = .bool := by rw [value]; rfl
  have passable : p.2.passable = true := by rw [value]; rfl
  rw [checkOption_of_kind nul nonempty kind, OptionValue.widen_of_kind same, if_pos ⟨same, passable, accepted⟩]

/-- Every option the solve sets passes the check when every buffered one does. -/
theorem Checked.appliedOptions (lawful : h.Lawful) (checked : b.Checked h) :
    ∀ p ∈ b.appliedOptions, h.checkOption p.1 p.2 = .ok p.2 := by
  intro p member
  rcases List.mem_append.mp member with switch | buffered
  · exact outputSwitches_checked lawful b.console p switch
  · exact checked p (Array.mem_toList_iff.mp buffered)

theorem checked_of_ofModel {m : Model Float} {ev : Event} (built : Backend.ofModel m = .ok (.ok (b, ev))) :
    b.Checked h := by
  obtain ⟨p, merged, -, rfl, -⟩ := Backend.ofModel_eq_ok built
  intro q member
  simp at member

/-- An `optimize` that returns a code either found it as the status and changed nothing, or set it
as the status, with what its solve left to read. -/
theorem optimize_eq_ok {code : ReturnCode} (returned : (b.optimize h).result = .ok (code, b')) :
    (b.status = some code ∧ b' = b) ∨ ∃ res, b' = { b with status := some code, solved := res } := by
  unfold optimize at returned
  split at returned
  · rename_i held
    cases returned
    exact Or.inl ⟨held, rfl⟩
  · simp only at returned
    split at returned
    · cases returned
    · split at returned
      · cases returned
        exact Or.inr ⟨b.solved, rfl⟩
      · split at returned
        · cases returned
        · cases returned
          exact Or.inr ⟨_, rfl⟩

theorem optimize_options {code : ReturnCode} (solved : (b.optimize h).result = .ok (code, b')) :
    b'.options = b.options := by
  rcases optimize_eq_ok solved with ⟨-, rfl⟩ | ⟨res, rfl⟩ <;> rfl

end Backend

section Session

variable {h : Highs} {s s' : Session} {b b' : Backend} {j : Json}

/-- A session's option call goes on with the backend the call gives, or with the backend as it was
when the call refuses the option; a refused plain call ends the session. -/
theorem Session.backendOp_setParameter {name : String} {v : OptionValue} {plain : Bool}
    (step : s.backendOp h b (.setParameter name v plain) = (s', .ok (b', j))) :
    b' = match (b.trySetParameter h name v).1 with
      | .ok kept => kept
      | .error _ => b := by
  simp only [backendOp] at step
  generalize called : b.trySetParameter h name v = answer at step
  obtain ⟨r, ev⟩ := answer
  cases r with
  | ok kept =>
    simp only [Prod.mk.injEq, Except.ok.injEq] at step
    obtain ⟨-, rfl, -⟩ := step
    rfl
  | error e =>
    cases plain
    · simp at step
      obtain ⟨-, rfl, -⟩ := step
      rfl
    · simp at step

theorem Session.backendOp_setParameter_of_kept (s : Session) (b : Backend) {name : String}
    {v w : OptionValue} (plain : Bool) (kept : h.checkOption name v = .ok w) :
    s.backendOp h b (.setParameter name v plain) =
      (s.note [.bufferedOption name w], .ok ({ b with options := b.options.push (name, w) }, .obj [("ok", .bool true)])) := by
  simp only [backendOp, Backend.trySetParameter, kept]

/-- Every operation of a session keeps the buffer, or appends one option with its checked value. -/
theorem Session.backendOp_options {op : BackendOp} (step : s.backendOp h b op = (s', .ok (b', j))) :
    b'.options = b.options ∨ ∃ name v w, h.checkOption name v = .ok w ∧ b'.options = b.options.push (name, w) := by
  cases op with
  | setParameter name v plain =>
    have same := Session.backendOp_setParameter step
    cases called : (b.trySetParameter h name v).1 with
    | ok kept =>
      obtain ⟨w, checked, rfl⟩ := Backend.trySetParameter_eq_ok called
      simp only [called] at same
      subst same
      exact Or.inr ⟨name, v, w, checked, rfl⟩
    | error e =>
      simp only [called] at same
      subst same
      exact Or.inl rfl
  | setLogToConsole on =>
    simp only [backendOp, Prod.mk.injEq, Except.ok.injEq] at step
    obtain ⟨-, rfl, -⟩ := step
    exact Or.inl rfl
  | optimize =>
    simp only [backendOp] at step
    split at step
    · cases step
    · rename_i code b'' solved
      simp only [Prod.mk.injEq, Except.ok.injEq] at step
      obtain ⟨-, rfl, -⟩ := step
      exact Or.inl (Backend.optimize_options solved)
  | status | numCols | numRows | trySolution | tryObjectiveValue | solution | objectiveValue | debug =>
    simp only [backendOp, Prod.mk.injEq, Except.ok.injEq] at step
    obtain ⟨-, rfl, -⟩ := step
    exact Or.inl rfl

/-- Every operation of a session keeps every buffered option checked. -/
theorem Backend.Checked.backendOp {op : BackendOp} (checked : b.Checked h)
    (step : s.backendOp h b op = (s', .ok (b', j))) : b'.Checked h := by
  intro p member
  rcases Session.backendOp_options step with same | ⟨name, v, w, kept, pushed⟩
  · exact checked p (same ▸ member)
  · rw [pushed] at member
    rcases Array.mem_push.mp member with old | rfl
    · exact checked p old
    · exact checkOption_kept kept

end Session

/-- The backends a session solving with `h` reaches: one built from a model, then the backend each
operation goes on with. -/
inductive Backend.Reached (h : Highs) : Backend → Prop
  | built {m : Model Float} {b : Backend} {ev : Event} :
      Backend.ofModel m = .ok (.ok (b, ev)) → Backend.Reached h b
  | step {s s' : Session} {b b' : Backend} {op : BackendOp} {j : Json} :
      Backend.Reached h b → s.backendOp h b op = (s', .ok (b', j)) → Backend.Reached h b'

/-- Every backend a session reaches buffers only checked options. -/
theorem Backend.Reached.checked {h : Highs} {b : Backend} (reached : b.Reached h) : b.Checked h := by
  induction reached with
  | built built => exact Backend.checked_of_ofModel built
  | step _ step ih => exact ih.backendOp step

/-- The library the program runs with names both output switches as bool options. -/
theorem Highs.lp_lawful : Highs.lp.Lawful where
  switches console p member := by
    simp only [outputSwitches, List.mem_cons, List.not_mem_nil, or_false] at member
    rcases member with rfl | rfl <;> exact ⟨rfl, rfl⟩

/-! ## Every session -/

/-- Option calls keep only checked values, for every library: each call answers as the library says,
and with a library whose output switches are bool options, every option the solve sets names an
option of the library, has its kind, can be handed over and is accepted. -/
theorem option_calls_keep_checked_values (h : Highs) (lawful : h.Lawful) :
    (∀ (b : Backend) name v, OptionAnswer h b name v (b.trySetParameter h name v)) ∧
    (∀ (s s' : Session) (b b' : Backend) name v plain j,
      s.backendOp h b (.setParameter name v plain) = (s', .ok (b', j)) →
        b' = match (b.trySetParameter h name v).1 with
          | .ok kept => kept
          | .error _ => b) ∧
    (∀ b : Backend, b.Reached h → ∀ p ∈ b.appliedOptions,
      ∃ k, h.optionKind p.1 = some k ∧ p.2.kind = k ∧ p.2.passable = true ∧ h.accepts p.1 p.2 = true) := by
  refine ⟨Backend.trySetParameter_answer h, fun s s' b b' name v plain j step => Session.backendOp_setParameter step, ?_⟩
  intro b reached p applied
  obtain ⟨k, -, -, found, -, accepted⟩ := checkOption_eq_ok (reached.checked.appliedOptions lawful p applied)
  exact ⟨k, found, accepted⟩

/-- The empty model's backend, told to skip presolve by the library the program runs with: the
choice is kept, and the solve would set the output switches off and then presolve to "off". -/
theorem option_calls_keep_checked_values_example :
    Highs.lp.Lawful ∧ ∃ b : Backend, b.Reached Highs.lp ∧
      b.appliedOptions = [("output_flag", .bool false), ("log_to_console", .bool false), ("presolve", .str "off")] ∧
      ∀ p ∈ b.appliedOptions, ∃ k, Highs.lp.optionKind p.1 = some k ∧ p.2.kind = k ∧
        p.2.passable = true ∧ Highs.lp.accepts p.1 p.2 = true := by
  let empty : Backend := ⟨⟨.minimize, #[], #[]⟩, 0, 0, 0, #[], false, none, none⟩
  have built : Backend.ofModel (Model.new : Model Float) = .ok (.ok (empty, .builtProblem 0 0 0 0)) := rfl
  have kept : Highs.lp.checkOption "presolve" (.str "off") = .ok (.str "off") := by
    rw [checkOption_of_kind (by simp) (by decide) (rfl : Highs.lp.optionKind "presolve" = some .string),
      if_pos ⟨rfl, by simp [OptionValue.passable, OptionValue.widen], rfl⟩]
    rfl
  have reached : Backend.Reached Highs.lp { empty with options := #[("presolve", .str "off")] } :=
    .step (.built built) (Session.backendOp_setParameter_of_kept {} empty false kept)
  obtain ⟨-, -, applied⟩ := option_calls_keep_checked_values Highs.lp Highs.lp_lawful
  exact ⟨Highs.lp_lawful, _, reached, rfl, applied _ reached⟩

end Milp
