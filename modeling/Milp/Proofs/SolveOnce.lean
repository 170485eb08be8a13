import Milp.Proofs.Options
import Milp.Proofs.Calls

/-!
# The backend solves once

A session makes calls on a backend one after another: option calls, the console switch,
`optimize`, and the readers of the status and of the results. Only `optimize` changes what the
readers see, and only the first one: it hands the problem to the solver library, solves it under the
options set so far and keeps the code and the results; every later `optimize` returns the kept code
without solving again. A problem the library refuses ends the first `optimize` in a fault.

`Backend.call` is what a call does to the backend, apart from the session's log. `Backend.Keeps`
names what every other call, and every call once there is a status, leaves as it was, and
`keeps_of_run` carries it along a run. `Backend.Reads` says what the readers answer for the results
a solve left. A solve is announced in the log by the event that starts it, and
`Session.runBackend_solve_starts` counts those events along a run.
-/
namespace Milp

namespace Backend

/-- The backend a call goes on with, or the fault that ends the run. -/
def call (h : Highs) (b : Backend) (op : BackendOp) : Except Fault Backend :=
  Prod.fst <$> (({} : Session).backendOp h b op).2

end Backend

/-- What a call does to the backend does not depend on the session's log. -/
theorem Session.backendOp_backend (s : Session) (h : Highs) (b : Backend) (op : BackendOp) :
    Prod.fst <$> (s.backendOp h b op).2 = b.call h op := by
  cases op with
  | setParameter name v plain =>
    simp only [Backend.call, Session.backendOp]
    obtain ⟨r, ev⟩ := b.trySetParameter h name v
    cases r with
    | ok b' => rfl
    | error e => cases plain <;> rfl
  | optimize =>
    simp only [Backend.call, Session.backendOp]
    cases (b.optimize h).result with
    | error f => rfl
    | ok r => rfl
  | _ => rfl

/-! ## The first solve -/

/-- Whether an event announces a solve: the backend logs it right before it hands the problem to
the solver. -/
def Event.startsSolve : Event → Bool
  | .solving .. => true
  | _ => false

/-- The return code the library's solve of a problem under `opts` gives the backend: failure when
the solve cannot run, otherwise the code of the status it ends with, none for a status without one. -/
def Highs.solveCode? (h : Highs) (p : Problem) (opts : List (String × OptionValue)) : Option ReturnCode :=
  match h.solve p opts with
  | none => some .failure
  | some r => r.status.returnCode?

/-- The results the library's solve of a problem under `opts` leaves to be read: none when it cannot
run. -/
def Highs.solveResults (h : Highs) (p : Problem) (opts : List (String × OptionValue)) : Option Solved :=
  (h.solve p opts).map fun r => ⟨r.solution, r.objective⟩

namespace Backend

variable {h : Highs} {b b' b'' : Backend} {op : BackendOp} {c : ReturnCode}

/-- `b'` holds what `b` holds of everything a solve or a reader reads but the options: the
problem, the objective's constant, the column count, the status and the results. -/
structure Keeps (b b' : Backend) : Prop where
  problem : b'.problem = b.problem
  offset : b'.offset = b.offset
  numCols : b'.numCols = b.numCols
  status : b'.status = b.status
  solved : b'.solved = b.solved

theorem Keeps.refl (b : Backend) : Keeps b b := ⟨rfl, rfl, rfl, rfl, rfl⟩

theorem Keeps.trans (first : Keeps b b') (second : Keeps b' b'') : Keeps b b'' :=
  ⟨second.problem.trans first.problem, second.offset.trans first.offset, second.numCols.trans first.numCols,
    second.status.trans first.status, second.solved.trans first.solved⟩

/-- A call other than `optimize` changes at most the buffered options and the console switch. -/
theorem call_eq_ok_of_ne_optimize (other : op ≠ .optimize) (step : b.call h op = .ok b') :
    ∃ options console, b' = { b with options, console } := by
  cases op with
  | setParameter name v plain =>
    simp only [call, Session.backendOp] at step
    generalize called : b.trySetParameter h name v = answer at step
    obtain ⟨r, ev⟩ := answer
    cases r with
    | ok kept =>
      obtain ⟨w, -, rfl⟩ := trySetParameter_eq_ok (congrArg Prod.fst called)
      cases step
      exact ⟨_, b.console, rfl⟩
    | error e =>
      -- a refused plain call is a fault, a refused checked call keeps the backend
      cases plain
      · cases step
        exact ⟨b.options, b.console, rfl⟩
      · cases step
  | setLogToConsole on =>
    cases step
    exact ⟨b.options, on, rfl⟩
  | optimize => exact absurd rfl other
  | _ =>
    cases step
    exact ⟨b.options, b.console, rfl⟩

theorem call_optimize_eq_ok : b.call h .optimize = .ok b' ↔ ∃ c, (b.optimize h).result = .ok (c, b') := by
  simp only [call, Session.backendOp]
  cases (b.optimize h).result with
  | error f => simp [Functor.map, Except.map]
  | ok r => simp [Functor.map, Except.map, Prod.ext_iff, eq_comm]

/-- Once there is a status, `optimize` returns it, logs that the problem was already solved, and
changes nothing. -/
theorem optimize_of_status (solved : b.status = some c) : b.optimize h = ⟨[.alreadySolved c], .ok (c, b)⟩ := by
  simp [optimize, solved]

theorem optimize_status (returned : (b.optimize h).result = .ok (c, b')) : b'.status = some c := by
  rcases optimize_eq_ok returned with ⟨held, rfl⟩ | ⟨res, rfl⟩
  · exact held
  · rfl

/-- The `optimize` of a backend without a status announces one solve, whichever way it ends; a later
one announces none. -/
theorem optimize_solve_starts : (b.optimize h).log.countP Event.startsSolve = if b.status = none then 1 else 0 := by
  cases held : b.status with
  | some c => simp [optimize_of_status held, Event.startsSolve]
  | none =>
    simp only [optimize, held]
    split
    · simp [Event.startsSolve]
    · split
      · simp [List.countP_cons, Event.startsSolve]
      · split <;> simp [List.countP_cons, Event.startsSolve]

/-- The first `optimize` of a problem the library refuses ends in a fault. -/
theorem optimize_of_refused (unsolved : b.status = none) (refused : h.refuses b.problem = true) :
    (b.optimize h).result = .error ⟨"invalid problem: Error"⟩ := by
  simp [optimize, unsolved, refused]

/-- The first `optimize` returns exactly when the library takes the problem and its solve has a
return code; it keeps that code and the results of the solve. -/
theorem optimize_eq_ok_iff (unsolved : b.status = none) (empty : b.solved = none) :
    (b.optimize h).result = .ok (c, b') ↔ h.refuses b.problem = false ∧
      h.solveCode? b.problem b.appliedOptions = some c ∧
      b' = { b with status := some c, solved := h.solveResults b.problem b.appliedOptions } := by
  cases accepted : h.refuses b.problem with
  | true => simp [optimize_of_refused unsolved accepted]
  | false =>
    cases ran : h.solve b.problem b.appliedOptions with
    | none =>
      -- the failed solve leaves the results as they were, that is none
      have same : { b with status := some c, solved := none } = { b with status := some c } := by
        cases b
        simp_all
      simp only [optimize, unsolved, accepted, ran, Highs.solveCode?, Highs.solveResults, Option.map_none, same]
      grind
    | some r =>
      cases code : r.status.returnCode? with
      | none => simp [optimize, unsolved, accepted, ran, code, Highs.solveCode?]
      | some code' =>
        simp only [optimize, unsolved, accepted, ran, code, Highs.solveCode?, Highs.solveResults, Option.map_some]
        grind

/-! ## Along a run -/

/-- A call keeps what the solve and the readers read, unless it is the `optimize` of a backend
without a status. -/
theorem keeps_of_call (guard : op ≠ .optimize ∨ b.status ≠ none) (step : b.call h op = .ok b') : Keeps b b' := by
  by_cases other : op = .optimize
  · subst other
    obtain ⟨c, solved⟩ := Option.ne_none_iff_exists'.mp (guard.resolve_left (not_not.mpr rfl))
    obtain ⟨c', returned⟩ := call_optimize_eq_ok.mp step
    rw [optimize_of_status solved] at returned
    cases returned
    exact Keeps.refl b
  · obtain ⟨options, console, rfl⟩ := call_eq_ok_of_ne_optimize other step
    exact ⟨rfl, rfl, rfl, rfl, rfl⟩

/-- A run keeps what the solve and the readers read, when it makes no `optimize` call or starts
from a backend with a status. -/
theorem keeps_of_run {ops : List BackendOp} (guard : .optimize ∉ ops ∨ b.status ≠ none)
    (run : ops.foldlM (call h) b = .ok b') : Keeps b b' := by
  induction ops generalizing b with
  | nil =>
    cases run
    exact Keeps.refl _
  | cons op rest ih =>
    obtain ⟨b₁, step, later⟩ := bind_eq_ok.mp run
    have first : Keeps b b₁ :=
      keeps_of_call (guard.imp (fun absent same => absent (same ▸ List.mem_cons_self)) id) step
    -- the status is kept, so the guard holds from `b₁` on
    have guard' : .optimize ∉ rest ∨ b₁.status ≠ none :=
      guard.imp (fun absent => absent ∘ List.mem_cons_of_mem op) (first.status ▸ ·)
    exact first.trans (ih guard' later)

/-! ## What the readers answer -/

/-- What the result readers answer when a solve has left `res`, with `constant` as the objective's
constant: refusals, and NaN for every column, while there are no results; the values of the results,
the objective shifted by the constant, once there are. -/
def Reads (b : Backend) (constant : Float) : Option Solved → Prop
  | none => b.trySolution = .error (.solveRequired "solution") ∧
      b.tryObjectiveValue = .error (.solveRequired "objective_value") ∧
      b.solution = Array.replicate b.problem.columns.size (0 / 0) ∧ b.objectiveValue = 0 / 0
  | some r => b.trySolution = .ok r.solution ∧ b.tryObjectiveValue = .ok (r.objective + constant) ∧
      b.solution = r.solution ∧ b.objectiveValue = r.objective + constant

theorem reads_solved (columns : b.numCols = b.problem.columns.size) : b.Reads b.offset b.solved := by
  cases held : b.solved with
  | none => simp [Reads, trySolution, tryObjectiveValue, solution, objectiveValue, held, columns]
  | some r => simp [Reads, trySolution, tryObjectiveValue, solution, objectiveValue, held]

theorem Keeps.reads (kept : Keeps b b') (columns : b.numCols = b.problem.columns.size) :
    b'.Reads b.offset b.solved := by
  have reads := reads_solved (b := b') (by rw [kept.numCols, kept.problem, columns])
  rwa [kept.offset, kept.solved] at reads

end Backend

/-! ## Announced solves -/

@[simp] theorem Session.note_log (s : Session) (evs : List Event) : (s.note evs).log = s.log ++ evs.toArray := rfl

/-- A call announces at most one solve, when it is the `optimize` of a backend without a status. -/
theorem Session.backendOp_solve_starts (s : Session) (h : Highs) (b : Backend) (op : BackendOp) :
    ∃ evs, (s.backendOp h b op).1 = s.note evs ∧ evs.countP Event.startsSolve ≤ (if b.status = none then 1 else 0) ∧
      (op ≠ .optimize → evs.countP Event.startsSolve = 0) := by
  cases op with
  | setParameter name v plain =>
    -- the call logs only whether it kept or refused the option
    have quiet : (b.trySetParameter h name v).2.startsSolve = false := by
      unfold Backend.trySetParameter
      split <;> rfl
    refine ⟨[(b.trySetParameter h name v).2], ?_, by simp [quiet], by simp [quiet]⟩
    simp only [Session.backendOp]
    obtain ⟨r, ev⟩ := b.trySetParameter h name v
    cases r with
    | ok b' => rfl
    | error e => cases plain <;> rfl
  | optimize =>
    refine ⟨(b.optimize h).log, ?_, Backend.optimize_solve_starts.le, fun other => absurd rfl other⟩
    simp only [Session.backendOp]
    cases (b.optimize h).result <;> rfl
  | _ => exact ⟨[], rfl, by simp, fun _ => rfl⟩

/-- A run of calls announces at most one solve, and none from a backend that has a status. -/
theorem Session.runBackend_solve_starts (s : Session) (h : Highs) (b : Backend) (ops : List BackendOp) :
    (s.runBackend h b ops).1.log.toList.countP Event.startsSolve ≤
      s.log.toList.countP Event.startsSolve + (if b.status = none then 1 else 0) := by
  induction ops generalizing s b with
  | nil => simp [runBackend]
  | cons op rest ih =>
    obtain ⟨evs, logged, few⟩ := s.backendOp_solve_starts h b op
    simp only [runBackend]
    generalize called : s.backendOp h b op = answer at logged
    obtain ⟨s₁, result⟩ := answer
    dsimp only at logged
    subst logged
    have counted : (s.note evs).log.toList.countP Event.startsSolve =
        s.log.toList.countP Event.startsSolve + evs.countP Event.startsSolve := by
      simp [Session.note_log, List.countP_append]
    cases result with
    | error f =>
      simp only [counted]
      omega
    | ok next =>
      obtain ⟨b₁, j⟩ := next
      have step : b.call h op = .ok b₁ := by rw [← Session.backendOp_backend s, called]; rfl
      have later := ih (s.note evs) b₁
      rw [counted] at later
      -- the `optimize` that solves leaves a status; any other call leaves the status as it was
      have settled : evs.countP Event.startsSolve + (if b₁.status = none then 1 else 0) ≤
          (if b.status = none then 1 else 0) := by
        by_cases other : op = .optimize
        · subst other
          obtain ⟨c, returned⟩ := Backend.call_optimize_eq_ok.mp step
          simp only [Backend.optimize_status returned, reduceCtorEq, if_false]
          exact few.1
        · rw [few.2 other, (Backend.keeps_of_call (.inl other) step).status]
          omega
      simp only
      generalize (s.note evs).runBackend h b₁ rest = tail at later
      obtain ⟨s₂, answers⟩ := tail
      cases answers <;> (simp only at later ⊢; omega)

/-! ## Every run -/

/-- For every library, the backend built from a model solves at most once, on the first `optimize`,
which returns exactly when the library takes the problem and the solve has a code, and faults when
the library refuses the problem. Until then the readers refuse; afterwards the status is that code,
the readers answer that solve, and a further `optimize` returns the code and only logs. -/
theorem backend_solves_once (h : Highs) {m : Model Float} {b₀ : Backend} {ev : Event}
    (built : Backend.ofModel m = .ok (.ok (b₀, ev))) {pre : List BackendOp} {b₁ : Backend}
    (first : BackendOp.optimize ∉ pre) (before : pre.foldlM (Backend.call h) b₀ = .ok b₁) :
    (∀ (s : Session) ops, (s.runBackend h b₀ ops).1.log.toList.countP Event.startsSolve ≤
      s.log.toList.countP Event.startsSolve + 1) ∧
    (b₁.status = none ∧ b₁.Reads m.objConstant none) ∧
    ((∃ c b₂, (b₁.optimize h).result = .ok (c, b₂)) ↔
      h.refuses b₀.problem = false ∧ (h.solveCode? b₀.problem b₁.appliedOptions).isSome) ∧
    (h.refuses b₀.problem = true → (b₁.optimize h).result = .error ⟨"invalid problem: Error"⟩) ∧
    ∀ post b', (pre ++ BackendOp.optimize :: post).foldlM (Backend.call h) b₀ = .ok b' →
      ∃ c, h.solveCode? b₀.problem b₁.appliedOptions = some c ∧ (∃ b₂, (b₁.optimize h).result = .ok (c, b₂)) ∧
        b'.status = some c ∧ b'.Reads m.objConstant (h.solveResults b₀.problem b₁.appliedOptions) ∧
        b'.optimize h = ⟨[.alreadySolved c], .ok (c, b')⟩ := by
  obtain ⟨p, merged, -, rfl, -⟩ := Backend.ofModel_eq_ok built
  have kept : Backend.Keeps _ b₁ := Backend.keeps_of_run (.inl first) before
  have unsolved : b₁.status = none := kept.status
  have empty : b₁.solved = none := kept.solved
  refine ⟨fun s ops => Session.runBackend_solve_starts s h _ ops, ⟨unsolved, kept.reads rfl⟩, ⟨?_, ?_⟩, ?_, ?_⟩
  · rintro ⟨c, b₂, returned⟩
    obtain ⟨accepted, code, -⟩ := (Backend.optimize_eq_ok_iff unsolved empty).mp returned
    rw [kept.problem] at accepted code
    exact ⟨accepted, by simp [code]⟩
  · rintro ⟨accepted, hasCode⟩
    obtain ⟨c, code⟩ := Option.isSome_iff_exists.mp hasCode
    exact ⟨c, _, (Backend.optimize_eq_ok_iff unsolved empty).mpr ⟨kept.problem ▸ accepted, kept.problem ▸ code, rfl⟩⟩
  · intro refused
    exact Backend.optimize_of_refused unsolved (kept.problem ▸ refused)
  · intro post b' run
    -- the run reaches `b₁`, makes the first `optimize`, and then keeps what it left
    rw [List.foldlM_append] at run
    obtain ⟨b₁', reached, run⟩ := bind_eq_ok.mp run
    rw [before] at reached
    cases reached
    rw [List.foldlM_cons] at run
    obtain ⟨b₂, step, later⟩ := bind_eq_ok.mp run
    obtain ⟨c, returned⟩ := Backend.call_optimize_eq_ok.mp step
    obtain ⟨-, code, rfl⟩ := (Backend.optimize_eq_ok_iff unsolved empty).mp returned
    have after : Backend.Keeps _ b' := Backend.keeps_of_run (.inr (by simp)) later
    have reads := after.reads (by rw [kept.numCols, kept.problem])
    rw [kept.offset, kept.problem] at reads
    rw [kept.problem] at code
    exact ⟨c, code, ⟨_, returned⟩, after.status, reads, Backend.optimize_of_status after.status⟩

/-- A model with one default variable, solved by the library the program runs with, and a session
that turns the console log on and reads the status and the solution before it solves. -/
theorem backend_solves_once_example :
    let pre : List BackendOp := [.setLogToConsole true, .status, .trySolution]
    let h := Highs.lp
    ∃ (m : Model Float) (b₀ : Backend) (ev : Event) (b₁ : Backend),
      Model.new.run [.addVar .default] = .ok m ∧ Backend.ofModel m = .ok (.ok (b₀, ev)) ∧
      BackendOp.optimize ∉ pre ∧ pre.foldlM (Backend.call h) b₀ = .ok b₁ ∧
      (∀ (s : Session) ops, (s.runBackend h b₀ ops).1.log.toList.countP Event.startsSolve ≤
        s.log.toList.countP Event.startsSolve + 1) ∧
      (b₁.status = none ∧ b₁.Reads m.objConstant none) ∧
      ((∃ c b₂, (b₁.optimize h).result = .ok (c, b₂)) ↔
        h.refuses b₀.problem = false ∧ (h.solveCode? b₀.problem b₁.appliedOptions).isSome) ∧
      (h.refuses b₀.problem = true → (b₁.optimize h).result = .error ⟨"invalid problem: Error"⟩) ∧
      ∀ post b', (pre ++ BackendOp.optimize :: post).foldlM (Backend.call h) b₀ = .ok b' →
        ∃ c, h.solveCode? b₀.problem b₁.appliedOptions = some c ∧ (∃ b₂, (b₁.optimize h).result = .ok (c, b₂)) ∧
          b'.status = some c ∧ b'.Reads m.objConstant (h.solveResults b₀.problem b₁.appliedOptions) ∧
          b'.optimize h = ⟨[.alreadySolved c], .ok (c, b')⟩ := by
  intro pre h
  have first : BackendOp.optimize ∉ pre := by simp [pre]
  exact ⟨_, _, _, _, rfl, rfl, first, rfl, backend_solves_once h rfl first rfl⟩

/-- A model with one variable whose lower side is `+∞`. The library the program runs with refuses
its problem, as HiGHS refuses such a column, and with any library that does the first `optimize`
ends in a fault and returns no code, not the failure code. -/
theorem first_optimize_faults_on_refused_sides :
    ∃ m : Model Float, Model.new.run [.addVar ⟨0, 1 / 0, 1 / 0, .continuous⟩] = .ok m ∧
      ∃ b ev, Backend.ofModel m = .ok (.ok (b, ev)) ∧ Highs.lp.refuses b.problem = true ∧
        ∀ h : Highs, h.refuses b.problem = true → (b.optimize h).result = .error ⟨"invalid problem: Error"⟩ := by
  refine ⟨_, rfl, _, _, rfl, by decide +kernel, fun h refused => ?_⟩
  exact Backend.optimize_of_refused rfl refused

end Milp
