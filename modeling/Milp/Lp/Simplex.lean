import Milp.Num.Exact

/-!
Linear programs over the rationals and the bounded-variable primal simplex method.

A program minimizes `cost · x` over columns `x` and row activities `r = A x`, every variable
between its two sides (`none` is an infinite side). Variables are numbered columns first, then
rows. The tableau keeps one equation per row, `Σₖ coef[i][k] · zₖ = 0`, in which the basic
variable of the row has coefficient one and the other basic variables none.

Phase one lowers the sum of the bound violations of the basic variables, stepping at most to
the first point where a basic variable meets a bound; phase two lowers the cost. Both choose the
entering variable with the smallest index and, among the rows that limit the step equally, the
leaving variable with the smallest index, which rules out cycling. All arithmetic is exact.
-/
namespace Milp.Lp

/-- A linear program over the rationals. -/
structure Program where
  cols : Nat
  /-- One array of `cols` coefficients per row. -/
  matrix : Array (Array Rat)
  /-- Column costs. -/
  cost : Array Rat
  /-- Lower sides of columns, then rows. -/
  lower : Array (Option Rat)
  /-- Upper sides of columns, then rows. -/
  upper : Array (Option Rat)

namespace Program

/-- The number of rows. -/
def rows (p : Program) : Nat := p.matrix.size

/-- The number of variables: columns and rows. -/
def size (p : Program) : Nat := p.cols + p.rows

/-- The lower side of a variable. -/
def lo (p : Program) (k : Nat) : Option Rat := p.lower.getD k none

/-- The upper side of a variable. -/
def hi (p : Program) (k : Nat) : Option Rat := p.upper.getD k none

/-- The cost of a variable; rows cost nothing. -/
def costOf (p : Program) (k : Nat) : Rat := p.cost.getD k 0

/-- The objective at a point. -/
def objective (p : Program) (x : Array Rat) : Rat :=
  (List.range p.cols).foldl (fun acc j => acc + p.costOf j * x.getD j 0) 0

/-- The start value of a column: its side nearest zero (the lower one on a tie), or zero when
it has none. -/
def startValue (lo hi : Option Rat) : Rat :=
  match lo, hi with
  | some l, some u => if u.abs < l.abs then u else l
  | some l, none => l
  | none, some u => u
  | none, none => 0

/-- The activity of row `i` at column values `x`. -/
def activity (p : Program) (x : Array Rat) (i : Nat) : Rat :=
  let a := p.matrix.getD i #[]
  (List.range p.cols).foldl (fun acc j => acc + a.getD j 0 * x.getD j 0) 0

end Program

/-- A simplex tableau: the row equations, the basic variable of each row, which variables are
basic, and the value of every variable. -/
structure Tableau where
  coef : Array (Array Rat)
  basis : Array Nat
  isBasic : Array Bool
  value : Array Rat

namespace Tableau

/-- The coefficient of variable `k` in row `i`. -/
def entry (t : Tableau) (i k : Nat) : Rat := (t.coef.getD i #[]).getD k 0

/-- The slack basis: every row activity basic, every column at its start value. -/
def slack (p : Program) : Tableau :=
  let n := p.cols
  let m := p.rows
  let coef := (List.range m).toArray.map fun i =>
    let a := p.matrix.getD i #[]
    (List.range (n + m)).toArray.map fun k =>
      if k < n then -(a.getD k 0) else if k = n + i then 1 else 0
  let x := (List.range n).toArray.map fun j => Program.startValue (p.lo j) (p.hi j)
  let value := x ++ (List.range m).toArray.map (p.activity x)
  ⟨coef, (List.range m).toArray.map (n + ·), (List.range (n + m)).toArray.map (n ≤ ·), value⟩

/-- The value of variable `k`. -/
def val (t : Tableau) (k : Nat) : Rat := t.value.getD k 0

end Tableau

/-- Whether a value lies below a lower side. -/
def below (lo : Option Rat) (v : Rat) : Bool := match lo with | some l => decide (v < l) | none => false

/-- Whether a value lies above an upper side. -/
def above (hi : Option Rat) (v : Rat) : Bool := match hi with | some u => decide (u < v) | none => false

/-- The slope of the bound violation of variable `k` as its value grows: `-1` below its lower
side, `1` above its upper side, `0` within. -/
def violationSlope (p : Program) (t : Tableau) (k : Nat) : Rat :=
  if below (p.lo k) (t.val k) then -1 else if above (p.hi k) (t.val k) then 1 else 0

/-- The reduced cost of nonbasic variable `j` for the cost `c` of every variable. -/
def reducedCost (t : Tableau) (c : Nat → Rat) (j : Nat) : Rat :=
  (List.range t.basis.size).foldl (fun acc i => acc - c (t.basis.getD i 0) * t.entry i j) (c j)

/-- Whether variable `k` may grow. -/
def canGrow (p : Program) (t : Tableau) (k : Nat) : Bool :=
  match p.hi k with | some u => decide (t.val k < u) | none => true

/-- Whether variable `k` may shrink. -/
def canShrink (p : Program) (t : Tableau) (k : Nat) : Bool :=
  match p.lo k with | some l => decide (l < t.val k) | none => true

/-- The entering variable with the smallest index and its direction, `1` to grow and `-1` to
shrink, for the cost `c`. -/
def entering (p : Program) (t : Tableau) (c : Nat → Rat) : Option (Nat × Rat) :=
  (List.range p.size).findSome? fun j =>
    if t.isBasic.getD j true then none
    else
      let d := reducedCost t c j
      if d < 0 ∧ canGrow p t j then some (j, 1)
      else if 0 < d ∧ canShrink p t j then some (j, -1)
      else none

/-- How far a move may go before something changes: along the entering variable's own range,
or until the basic variable of a row meets a side, which it then keeps. -/
inductive Limit where
  | flip (step : Rat)
  | pivot (row : Nat) (step : Rat) (leaveAt : Rat)

/-- The step of a limit. -/
def Limit.step : Limit → Rat
  | .flip s => s
  | .pivot _ s _ => s

/-- The smaller of two limits; on a tie a flip wins, then the row whose basic variable has the
smaller index. -/
def Limit.min (t : Tableau) : Option Limit → Limit → Option Limit
  | none, l => some l
  | some a, b =>
    if b.step < a.step then some b
    else if a.step < b.step then some a
    else match a, b with
      | .flip _, _ => some a
      | _, .flip _ => some b
      | .pivot i _ _, .pivot k _ _ =>
        if t.basis.getD k 0 < t.basis.getD i 0 then some b else some a

/-- The limit that row `i` puts on a move of rate `ρ` per unit step. In phase one a basic
variable outside its range may move towards it and stops where it enters it. -/
def rowLimit (p : Program) (t : Tableau) (i : Nat) (ρ : Rat) : Option Limit :=
  let k := t.basis.getD i 0
  let b := t.val k
  if ρ = 0 then none
  else if below (p.lo k) b then
    match p.lo k with
    | some l => if 0 < ρ then some (.pivot i ((l - b) / ρ) l) else none
    | none => none
  else if above (p.hi k) b then
    match p.hi k with
    | some u => if ρ < 0 then some (.pivot i ((b - u) / (-ρ)) u) else none
    | none => none
  else if 0 < ρ then
    match p.hi k with
    | some u => some (.pivot i ((u - b) / ρ) u)
    | none => none
  else
    match p.lo k with
    | some l => some (.pivot i ((b - l) / (-ρ)) l)
    | none => none

/-- The limit of moving variable `j` in direction `s`, if anything limits it. -/
def ratio (p : Program) (t : Tableau) (j : Nat) (s : Rat) : Option Limit :=
  let own : Option Limit :=
    if s = 1 then (p.hi j).map fun u => .flip (u - t.val j)
    else (p.lo j).map fun l => .flip (t.val j - l)
  (List.range t.basis.size).foldl (fun acc i =>
    match rowLimit p t i (-(t.entry i j) * s) with
    | some l => Limit.min t acc l
    | none => acc) own

/-- Moves variable `j` by `s · θ` and every basic variable along with it. -/
def Tableau.move (t : Tableau) (j : Nat) (s θ : Rat) : Tableau :=
  let value := (List.range t.basis.size).foldl (fun v i =>
    let k := t.basis.getD i 0
    v.modify k (· + -(t.entry i j) * s * θ)) (t.value.modify j (· + s * θ))
  { t with value := value }

/-- Makes `j` the basic variable of row `r`; the variable that leaves keeps the value `keep`. -/
def Tableau.pivot (t : Tableau) (r j : Nat) (keep : Rat) : Tableau :=
  let row := t.coef.getD r #[]
  let piv := row.getD j 1
  let row := row.map (· / piv)
  let coef := (List.range t.coef.size).toArray.map fun i =>
    if i = r then row
    else
      let ri := t.coef.getD i #[]
      let f := ri.getD j 0
      if f = 0 then ri else (List.range ri.size).toArray.map fun k => ri.getD k 0 - f * row.getD k 0
  let leaving := t.basis.getD r 0
  { coef := coef, basis := t.basis.setIfInBounds r j,
    isBasic := (t.isBasic.setIfInBounds leaving false).setIfInBounds j true,
    value := t.value.setIfInBounds leaving keep }

/-- How a run of the simplex method ends. -/
inductive Ending where
  | optimal
  | infeasible
  | unbounded
  /-- The step budget ran out. -/
  | stalled
deriving DecidableEq, Repr

/-- Whether every basic variable lies within its sides. -/
def feasible (p : Program) (t : Tableau) : Bool :=
  t.basis.all fun k => !(below (p.lo k) (t.val k)) && !(above (p.hi k) (t.val k))

/-- One step for the cost `c`: `none` when no variable improves it, otherwise the moved tableau
or, when nothing limits the move, the tableau as it was. -/
def improve (p : Program) (t : Tableau) (c : Nat → Rat) : Option (Except Tableau Tableau) :=
  match entering p t c with
  | none => none
  | some (j, s) =>
    match ratio p t j s with
    | none => some (.error t)
    | some (.flip θ) => some (.ok (t.move j s θ))
    | some (.pivot r θ keep) => some (.ok ((t.move j s θ).pivot r j keep))

/-- Phase one: lowers the bound violation until the basis is feasible; also returns the steps
left of the budget. -/
def phaseOne (p : Program) : Nat → Tableau → Ending × Tableau × Nat
  | 0, t => (.stalled, t, 0)
  | fuel + 1, t =>
    if feasible p t then (.optimal, t, fuel + 1)
    else
      match improve p t (violationSlope p t) with
      | none => (.infeasible, t, fuel)
      | some (.error t) => (.infeasible, t, fuel)
      | some (.ok t) => phaseOne p fuel t

/-- Phase two: lowers the cost from a feasible basis. -/
def phaseTwo (p : Program) : Nat → Tableau → Ending × Tableau
  | 0, t => (.stalled, t)
  | fuel + 1, t =>
    match improve p t p.costOf with
    | none => (.optimal, t)
    | some (.error t) => (.unbounded, t)
    | some (.ok t) => phaseTwo p fuel t

/-- A step budget far above what the method needs on the programs it is given. -/
def budget (p : Program) : Nat := 200 * (p.size + 1) * (p.size + 1)

/-- Solves a program from the slack basis within a budget of steps shared by both phases: how
the run ended and the last values. -/
def solveWithin (p : Program) (steps : Nat) : Ending × Array Rat :=
  let (e, t, left) := phaseOne p steps (Tableau.slack p)
  match e with
  | .optimal =>
    let (e, t) := phaseTwo p left t
    (e, t.value)
  | _ => (e, t.value)

/-- Solves a program from the slack basis: how the run ended and the last values. -/
def solve (p : Program) : Ending × Array Rat := solveWithin p (budget p)

end Milp.Lp
