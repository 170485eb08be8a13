import Milp.Lp.Simplex

/-!
The dual simplex method with a bound-flipping ratio test, for runs with a step budget.

It starts from the slack basis with every column at the side its cost pulls it to, so that no
reduced cost has the wrong sign. Each step takes the row whose basic variable lies furthest
outside its sides and moves it to the side it crossed. The columns that can bring it there are
ordered by the ratio of reduced cost to row coefficient (the larger coefficient first on a tie);
columns with both sides finite are flipped to their other side as long as the row stays short
of its side, and the first one that would carry it past enters the basis.
-/
namespace Milp.Lp

/-- The start value of a column for the dual method: the side its cost pulls it to, or `none`
when that side is infinite. A column without cost sits at its lower side, its upper side, or
zero, the first one that is finite. -/
def dualValue (p : Program) (j : Nat) : Option Rat :=
  let c := p.costOf j
  if 0 < c then p.lo j
  else if c < 0 then p.hi j
  else some (match p.lo j, p.hi j with
    | some l, _ => l
    | none, some u => u
    | none, none => 0)

/-- The slack basis with every column at its dual start value, if all are finite. -/
def dualStart (p : Program) : Option Tableau :=
  match (List.range p.cols).mapM (dualValue p) with
  | none => none
  | some xs =>
    let x := xs.toArray
    some { Tableau.slack p with value := x ++ (List.range p.rows).toArray.map (p.activity x) }

/-- How far the basic variable of row `i` lies outside its sides, and the direction it must
move: `1` up, `-1` down. -/
def shortfall (p : Program) (t : Tableau) (i : Nat) : Option (Rat × Rat) :=
  let k := t.basis.getD i 0
  let v := t.val k
  match p.lo k, p.hi k with
  | some l, _ => if v < l then some (l - v, 1) else
      match p.hi k with
      | some u => if u < v then some (v - u, -1) else none
      | none => none
  | none, some u => if u < v then some (v - u, -1) else none
  | none, none => none

/-- The row furthest outside its sides, with its gap and direction; the first on a tie. -/
def leavingRow (p : Program) (t : Tableau) : Option (Nat × Rat × Rat) :=
  (List.range t.basis.size).foldl (fun best i =>
    match shortfall p t i, best with
    | none, _ => best
    | some (g, d), none => some (i, g, d)
    | some (g, d), some (_, h, _) => if h < g then some (i, g, d) else best) none

/-- A column that can move the leaving row towards its side: index, direction, the rate at
which it moves the row, and its dual ratio. -/
structure Candidate where
  col : Nat
  dir : Rat
  rate : Rat
  ratio : Rat

/-- The columns that can move the basic variable of row `r` in direction `d`. -/
def candidates (p : Program) (t : Tableau) (r : Nat) (d : Rat) : List Candidate :=
  (List.range p.size).filterMap fun k =>
    if t.isBasic.getD k true then none
    else
      let α := -(t.entry r k)
      if α = 0 then none
      else
        let s : Rat := if 0 < α * d then 1 else -1
        let free := if s = 1 then canGrow p t k else canShrink p t k
        if free then some ⟨k, s, α.abs, (reducedCost t p.costOf k).abs / α.abs⟩ else none

/-- Whether candidate `a` comes before candidate `b`: the smaller ratio, then the larger rate,
then the smaller index. -/
def Candidate.before (a b : Candidate) : Bool :=
  a.ratio < b.ratio || (a.ratio == b.ratio && (b.rate < a.rate || (a.rate == b.rate && a.col < b.col)))

/-- The range of a column with both sides finite. -/
def range (p : Program) (k : Nat) : Option Rat :=
  match p.lo k, p.hi k with
  | some l, some u => some (u - l)
  | _, _ => none

/-- Walks the ordered candidates with the gap still to close: the columns to flip, with their
ranges, and the column that enters, if any. -/
def flips (p : Program) : List Candidate → Rat → List (Candidate × Rat) × Option Candidate
  | [], _ => ([], none)
  | c :: rest, gap =>
    match range p c.col with
    | some w =>
      if c.rate * w < gap then
        let (fs, e) := flips p rest (gap - c.rate * w)
        ((c, w) :: fs, e)
      else ([], some c)
    | none => ([], some c)

/-- One dual step on row `r`, whose basic variable must move by `gap` in direction `d`;
`none` when no column can move it. -/
def dualStep (p : Program) (t : Tableau) (r : Nat) (gap d : Rat) : Option Tableau :=
  let order := (candidates p t r d).mergeSort fun a b => a.before b
  match flips p order gap with
  | (_, none) => none
  | (fs, some e) =>
    let t := fs.foldl (fun t f => t.move f.1.col f.1.dir f.2) t
    let k := t.basis.getD r 0
    let v := t.val k
    let target := if d = 1 then (p.lo k).getD v else (p.hi k).getD v
    let θ := (target - v).abs / e.rate
    some ((t.move e.col e.dir θ).pivot r e.col target)

/-- Runs at most `fuel` dual steps; the budget is checked before each step looks for a row,
so a run that spends it ends stalled. -/
def dualRun (p : Program) : Nat → Tableau → Ending × Tableau
  | 0, t => (.stalled, t)
  | fuel + 1, t =>
    match leavingRow p t with
    | none => (.optimal, t)
    | some (r, gap, d) =>
      match dualStep p t r gap d with
      | none => (.infeasible, t)
      | some t => dualRun p fuel t

/-- Solves a program by at most `steps` dual steps, if its dual start exists. -/
def solveDual (p : Program) (steps : Nat) : Option (Ending × Array Rat) :=
  (dualStart p).map fun t =>
    let (e, t) := dualRun p (min steps (budget p)) t
    (e, t.value)

end Milp.Lp
