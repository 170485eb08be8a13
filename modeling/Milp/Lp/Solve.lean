import Milp.Solver.Problem
import Milp.Solver.Outcome
import Milp.Lp.Branch
import Milp.Lp.Dual
import Milp.Lp.Reduce

/-!
Solving a problem under options, and what the solver reports.

The solver reads a side of magnitude `1e20` or more as infinite. A cost of that magnitude fixes
its column at the side the cost prefers and is left out of the solve, to be added back to the
objective; when that side is infinite the solve cannot run, nor can it when asked to read a
solution file. Before solving it checks the sides: an integer column's sides are first rounded inwards,
and a column or row whose lower side exceeds its upper one by more than the primal feasibility
tolerance makes the problem infeasible at once, reported with zero values and objective.

Unless presolve is off, the program is first reduced (`Lp.reduce`), which decides between
equally good points as the solver does and may find the program infeasible at once. A problem
without integer columns is solved by the simplex method; one with them by branch and
bound. A solved problem reports the exact optimum, each value rounded to the nearest double, and
the objective summed column by column in doubles. When no integer point is found the values are
zero and the objective infinite. An objective target ends the search at the first integer point
whose objective, as the solver minimizes it, lies below the target. A program found infeasible reports zero values when presolve
is on (presolve finds it before any point is computed) and the end of phase one when it is off;
an unbounded program reports the point where the unbounded ray was found. Under a simplex step
budget the dual method runs when it can start, the primal method otherwise, and a run that
spends the budget reports where it stopped.
-/
namespace Milp

/-- The last value given to an option. -/
def optionValue (opts : List (String × OptionValue)) (name : String) : Option OptionValue :=
  (opts.reverse.find? fun p => p.1 == name).map (·.2)

/-- Whether an option was given the text `s`. -/
def optionIs (opts : List (String × OptionValue)) (name s : String) : Bool :=
  match optionValue opts name with
  | some (.str t) => t == s
  | _ => false

/-- The double value of an option, or a default. -/
def optionFloat (opts : List (String × OptionValue)) (name : String) (d : Float) : Float :=
  match optionValue opts name with
  | some (.float x) => x
  | some (.int i) => Float.ofInt i
  | _ => d

/-- The integer value of an option, if it was given one. -/
def optionNat? (opts : List (String × OptionValue)) (name : String) : Option Nat :=
  match optionValue opts name with
  | some (.int i) => some i.toNat
  | _ => none

/-- The magnitude from which sides are infinite and costs refused. -/
def infiniteBound : Float := 1e20

/-- The magnitude from which coefficients are refused. -/
def largeCoefficient : Float := 1e15

/-- The magnitude up to which coefficients are dropped. -/
def smallCoefficient : Float := 1e-9

/-- A lower side as a rational, `none` when it is minus infinity. -/
def lowerSide (v : Float) : Option Rat := if v ≤ -infiniteBound then none else Num.ratOf? v

/-- An upper side as a rational, `none` when it is plus infinity. -/
def upperSide (v : Float) : Option Rat := if infiniteBound ≤ v then none else Num.ratOf? v

/-- The sides the solver works with: an integer column's rounded inwards. -/
def Column.sides (c : Column) : Float × Float :=
  if c.integer then (c.lower.ceil, c.upper.floor) else (c.lower, c.upper)

/-- Whether sides are consistent up to a tolerance. -/
def consistent (tol lower upper : Float) : Bool := !(upper - lower < 0) || -tol < upper - lower

/-- Whether every column and row has consistent sides. -/
def Problem.sidesAgree (p : Problem) (tol : Float) : Bool :=
  p.columns.all (fun c => consistent tol c.sides.1 c.sides.2) &&
    p.rows.all fun r => consistent tol r.lower r.upper

/-- The column a huge cost fixes: at the side the cost prefers (the upper one when it pulls the
objective down while minimizing or up while maximizing, else the lower one), with no cost left;
`none` when that side is infinite. -/
def Column.settle (sense : Sense) (c : Column) : Option Column :=
  let (lower, upper) := c.sides
  let wantsUpper : Bool := match sense with
    | .minimize => c.cost < 0
    | .maximize => 0 < c.cost
  if wantsUpper then
    if upper < infiniteBound then some ⟨0, upper, upper, c.integer⟩ else none
  else
    if -infiniteBound < lower then some ⟨0, lower, lower, c.integer⟩ else none

/-- The problem with every column of huge cost fixed by `Column.settle`, and those columns with
their costs; `none` when one cannot be fixed. -/
def Problem.settleHugeCosts (p : Problem) : Option (Problem × List (Nat × Float)) :=
  let huge := (List.range p.columns.size).filter fun j =>
    infiniteBound ≤ (p.columns.getD j ⟨0, 0, 0, false⟩).cost.abs
  let fixed := huge.foldlM (fun (cs : Array Column) j =>
    (Column.settle p.sense (cs.getD j ⟨0, 0, 0, false⟩)).map (cs.setIfInBounds j ·)) p.columns
  fixed.map fun cs => ({ p with columns := cs },
    huge.map fun j => (j, (p.columns.getD j ⟨0, 0, 0, false⟩).cost))

/-- Whether the problem has an integer column. -/
def Problem.isInteger (p : Problem) : Bool := p.columns.any (·.integer)

/-- Sides consistent within the tolerance but crossed meet in the middle. -/
def meet (lower upper : Float) : Float × Float :=
  if upper < lower then ((lower + upper) / 2, (lower + upper) / 2) else (lower, upper)

/-- The program of a problem, as a minimization over the rationals. -/
def Problem.program (p : Problem) : Lp.Program :=
  let n := p.columns.size
  let sign : Rat := match p.sense with | .minimize => 1 | .maximize => -1
  let row (r : MergedRow) : Array Rat :=
    r.factors.foldl (fun a f =>
      if f.2.abs ≤ smallCoefficient then a
      else a.modify f.1 (· + (Num.ratOf? f.2).getD 0)) (Array.replicate n 0)
  let colSides := p.columns.map fun c => meet c.sides.1 c.sides.2
  let rowSides := p.rows.map fun r => meet r.lower r.upper
  { cols := n, matrix := p.rows.map row,
    cost := p.columns.map fun c => sign * (Num.ratOf? c.cost).getD 0,
    lower := (colSides ++ rowSides).map fun s => lowerSide s.1,
    upper := (colSides ++ rowSides).map fun s => upperSide s.2 }

/-- The objective of column values, summed column by column in doubles. -/
def Problem.objectiveAt (p : Problem) (x : Array Float) : Float :=
  (List.range p.columns.size).foldl
    (fun acc j => acc + (p.columns.getD j ⟨0, 0, 0, false⟩).cost * x.getD j 0) 0

/-- A report of exact column values. -/
def Problem.reportAt (p : Problem) (s : ModelStatus) (x : Array Rat) : Report :=
  let v := (x.extract 0 p.columns.size).map Num.nearest
  ⟨s, v, p.objectiveAt v⟩

/-- A report of zero values with the given objective. -/
def Problem.reportZero (p : Problem) (s : ModelStatus) (objective : Float) : Report :=
  ⟨s, p.columns.map fun _ => 0, objective⟩

/-- The program the solver works on: reduced first unless presolve is off. A program the
reductions find unbounded is solved as it is. -/
def Problem.presolved (p : Problem) (opts : List (String × OptionValue)) : Option Lp.Program :=
  if optionIs opts "presolve" "off" then some p.program
  else
    match Lp.reduce p.program (p.columns.map (·.integer)) with
    | .infeasible => none
    | .unbounded => some p.program
    | .reduced q => some q

/-- Solves a problem without integer columns. -/
def Problem.solveContinuous (p : Problem) (opts : List (String × OptionValue)) : Report :=
  match p.presolved opts with
  | none => p.reportZero .infeasible 0
  | some prog =>
    let (e, x) := match optionNat? opts "simplex_iteration_limit" with
      | some k => (Lp.solveDual prog k).getD (Lp.solveWithin prog (min k (Lp.budget prog)))
      | none => Lp.solve prog
    match e with
    | .optimal => p.reportAt .optimal x
    | .unbounded => p.reportAt .unbounded x
    | .infeasible =>
      if optionIs opts "presolve" "off" then p.reportAt .infeasible x
      else p.reportZero .infeasible 0
    | .stalled => p.reportAt .iterationLimit x

/-- Solves a problem with integer columns. -/
def Problem.solveMixed (p : Problem) (opts : List (String × OptionValue)) : Report :=
  match p.presolved opts with
  | none => p.reportZero .infeasible (1 / 0)
  | some prog =>
    let integer := p.columns.map (·.integer)
    let target := match optionValue opts "objective_target" with
      | some (.float x) => Num.ratOf? x
      | _ => none
    let stops : Lp.Stops := ⟨optionNat? opts "mip_max_improving_sols", target⟩
    match Lp.solveInteger prog integer stops with
    | .optimal _ x => p.reportAt .optimal x
    | .limited _ x => p.reportAt .solutionLimit x
    | .reached _ x => p.reportAt .objectiveTarget x
    | .infeasible => p.reportZero .infeasible (1 / 0)
    | .unbounded => p.reportZero .unboundedOrInfeasible (1 / 0)

/-- Solves a problem whose costs are all below the infinite magnitude. -/
def Problem.solveSettled (p : Problem) (opts : List (String × OptionValue)) : Report :=
  if !p.sidesAgree (optionFloat opts "primal_feasibility_tolerance" 1e-7) then
    p.reportZero .infeasible 0
  else if optionFloat opts "time_limit" 1 == 0 then
    p.reportZero .timeLimit (if p.isInteger then 1 / 0 else 0)
  else if p.isInteger then p.solveMixed opts
  else p.solveContinuous opts

/-- A report with the huge costs of fixed columns restored: each nonzero value adds its cost
times the value to the objective, and a problem infeasible with those columns fixed has no
verdict and no values. -/
def Report.restoreCosts (r : Report) (huge : List (Nat × Float)) : Report :=
  if huge.isEmpty then r
  else if r.status = .infeasible then ⟨.unknown, r.solution.map fun _ => 0, 0⟩
  else
    { r with objective := huge.foldl (fun acc h =>
        let v := r.solution.getD h.1 0
        if v == 0 then acc else acc + v * h.2) r.objective }

/-- Solves a problem under the given options; `none` when the solve cannot run: a solution file
to read, or a column of huge cost whose preferred side is infinite. -/
def Problem.solve (p : Problem) (opts : List (String × OptionValue)) : Option Report :=
  let solutionFile := match optionValue opts "read_solution_file" with
    | some (.str s) => s != ""
    | _ => false
  if solutionFile then none
  else if p.columns.isEmpty then some ⟨.modelEmpty, #[], 0⟩
  else
    (p.settleHugeCosts).map fun (q, huge) => (q.solveSettled opts).restoreCosts huge

end Milp
