import Milp.Solver.Highs

/-!
The solving backend. It is built from a model, keeps the options the solver library accepted, and
solves at most once: the first `optimize` hands the problem to the library and runs its solve, and
every later one returns the same code. Until
a solve has produced results, the solution and objective value are refused (or NaN in their
lenient forms); afterwards they are the solver's, the objective value plus the model's constant.
-/
namespace Milp

/-- The results of a solve. -/
structure Solved where
  solution : Array Float
  objective : Float

/-- A backend built from a model. -/
structure Backend where
  problem : Problem
  offset : Float
  numCols : Nat
  numRows : Nat
  options : Array (String × OptionValue) := #[]
  console : Bool := false
  solved : Option Solved := none
  status : Option ReturnCode := none

/-- What a backend operation gives: its log, and its result or the fault that ended it. -/
structure Effect (β : Type) where
  log : List Event
  result : Except Fault β

namespace Backend

/-- Builds a backend from a model, or refuses a non-finite coefficient with a warning. -/
def ofModel (m : Model Float) : Except Fault (Except (SolverError × Event) (Backend × Event)) :=
  match Problem.ofModel m with
  | .error f => .error f
  | .ok (.error e) =>
    match e with
    | .invalidCoefficient row col v => .ok (.error (e, .nonFiniteCoefficient row col v))
    | _ => .ok (.error (e, .nonFiniteCoefficient none 0 0))
  | .ok (.ok (p, merged)) =>
    .ok (.ok (⟨p, m.objConstant, p.columns.size, m.nbConstraints, #[], false, none, none⟩,
      .builtProblem p.columns.size m.nbConstraints m.nbEntries merged))

/-- Checks an option against the library and keeps it, or refuses it with a warning. -/
def trySetParameter (b : Backend) (h : Highs) (name : String) (v : OptionValue) :
    Except SolverError Backend × Event :=
  match h.checkOption name v with
  | .ok w => (.ok { b with options := b.options.push (name, w) }, .bufferedOption name w)
  | .error .name =>
    let e := SolverError.invalidOptionName name
    (.error e, .rejectedOption name e.code)
  | .error (.value k w) =>
    let e := SolverError.invalidOptionValue name k w
    (.error e, .rejectedOption name e.code)

/-- The panic text of a status the return codes do not cover. -/
def unknownStatus (s : ModelStatus) : Fault :=
  let n := s.number
  ⟨"called " ++ "\x60" ++ "Result::unwrap()" ++ "\x60" ++ " on an " ++ "\x60" ++ "Err" ++ "\x60" ++
    s!" value: {n} is not a valid HiGHS model status. This error comes from a bug in highs rust bindings. Please report it."⟩

/-- The options a solve runs under, in the order they are set: the output switches, then the
buffered options in the order they were kept. -/
def appliedOptions (b : Backend) : List (String × OptionValue) := outputSwitches b.console ++ b.options.toList

/-- Solves once; later calls return the first code. A problem the library refuses when it is
handed over ends in a fault. -/
def optimize (b : Backend) (h : Highs) : Effect (ReturnCode × Backend) :=
  match b.status with
  | some s => ⟨[.alreadySolved s], .ok (s, b)⟩
  | none =>
    let start := Event.solving b.numCols b.numRows b.problem.sense
    if h.refuses b.problem then ⟨[start], .error ⟨"invalid problem: Error"⟩⟩
    else
      match h.solve b.problem b.appliedOptions with
      | none =>
        ⟨[start, .solveFailed, .statusReceived .failure],
          .ok (.failure, { b with status := some .failure })⟩
      | some r =>
        match r.status.returnCode? with
        | none => ⟨[start], .error (unknownStatus r.status)⟩
        | some code =>
          ⟨[start, .statusReceived code],
            .ok (code, { b with status := some code, solved := some ⟨r.solution, r.objective⟩ })⟩

/-- The solution, or a refusal before a solve. -/
def trySolution (b : Backend) : Except SolverError (Array Float) :=
  match b.solved with
  | some s => .ok s.solution
  | none => .error (.solveRequired "solution")

/-- The objective value plus the model's constant, or a refusal before a solve. -/
def tryObjectiveValue (b : Backend) : Except SolverError Float :=
  match b.solved with
  | some s => .ok (s.objective + b.offset)
  | none => .error (.solveRequired "objective_value")

/-- The solution, or NaN per column before a solve. -/
def solution (b : Backend) : Array Float :=
  match b.trySolution with
  | .ok xs => xs
  | .error _ => Array.replicate b.numCols (0 / 0)

/-- The objective value, or NaN before a solve. -/
def objectiveValue (b : Backend) : Float :=
  match b.tryObjectiveValue with
  | .ok v => v
  | .error _ => 0 / 0

/-- The diagnostic text of a backend. -/
def debugText (b : Backend) : String :=
  let status := match b.status with
    | none => "None"
    | some c => "Some(" ++ c.name ++ ")"
  let cols := b.numCols
  let rows := b.numRows
  s!"HighsSolver \x7b num_cols: {cols}, num_rows: {rows}, sense: " ++ b.problem.sense.name ++
    ", status: " ++ status ++ ", .. \x7d"

end Backend

end Milp
