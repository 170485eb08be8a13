import Milp.Lp.Simplex

/-!
Mixed-integer programs by branch and bound. Each node is the program with tightened column
sides; its relaxation is solved exactly. A node whose relaxation is no better than the best
integer point found is dropped; otherwise the first integer column with a fractional value
splits it into the part below its floor and the part above its ceiling. The search dives towards
the relaxation of the whole program: the upper part goes first when the column's value has risen
above its value there, the lower part otherwise. A relaxation without a bound ends the search.
-/
namespace Milp.Lp

/-- How a branch-and-bound search ends. -/
inductive Search where
  /-- The best integer point and its objective. -/
  | optimal (objective : Rat) (point : Array Rat)
  /-- The search stopped at the last of the allowed number of improving points. -/
  | limited (objective : Rat) (point : Array Rat)
  /-- The search stopped at an integer point below the objective target. -/
  | reached (objective : Rat) (point : Array Rat)
  | infeasible
  | unbounded
deriving Repr

/-- Whether a rational is an integer. -/
def isInteger (r : Rat) : Bool := r.den == 1

/-- The first integer column whose value is fractional. -/
def fractional (p : Program) (integer : Array Bool) (x : Array Rat) : Option Nat :=
  (List.range p.cols).find? fun j => integer.getD j false && !isInteger (x.getD j 0)

/-- The program with column `j` limited to at most `v`. -/
def Program.capAt (p : Program) (j : Nat) (v : Rat) : Program :=
  { p with upper := p.upper.setIfInBounds j (some v) }

/-- The program with column `j` limited to at least `v`. -/
def Program.floorAt (p : Program) (j : Nat) (v : Rat) : Program :=
  { p with lower := p.lower.setIfInBounds j (some v) }

/-- When a search stops early: after a number of improving points, or at the first improving
point whose objective lies below a target. -/
structure Stops where
  improving : Option Nat := none
  target : Option Rat := none

/-- The two parts of a node split at the fractional value `v` of column `j`, in the order they
are searched: the upper part first when `v` lies above `rootValue`, the column's value in the
relaxation of the whole program. -/
def Program.split (p : Program) (j : Nat) (v rootValue : Rat) : List Program :=
  let down := p.capAt j (v.floor : Rat)
  let up := p.floorAt j ((v.floor : Rat) + 1)
  if rootValue < v then [up, down] else [down, up]

/-- Depth-first search over a stack of nodes, keeping the best integer point; `root` holds the
values of the relaxation of the whole program, and `left` counts the improving points still
allowed. -/
def explore (integer : Array Bool) (target : Option Rat) (root : Array Rat) :
    Nat → Option Nat → List Program → Option (Rat × Array Rat) → Search
  | 0, _, _, best | _, _, [], best =>
    match best with | some (o, x) => .optimal o x | none => .infeasible
  | fuel + 1, left, node :: rest, best =>
    let (e, value) := Lp.solve node
    match e with
    | .unbounded => .unbounded
    | .optimal =>
      let obj := node.objective value
      let worse := match best with | some (o, _) => decide (o ≤ obj) | none => false
      if worse then explore integer target root fuel left rest best
      else
        match fractional node integer value with
        | none =>
          if target.any (obj < ·) then .reached obj value
          else
            match left with
            | some 0 | some 1 => .limited obj value
            | some (k + 1) => explore integer target root fuel (some k) rest (some (obj, value))
            | none => explore integer target root fuel none rest (some (obj, value))
        | some j =>
          let parts := node.split j (value.getD j 0) (root.getD j 0)
          explore integer target root fuel left (parts ++ rest) best
    | _ => explore integer target root fuel left rest best

/-- Solves a mixed-integer program whose integer columns are marked, stopping early as `stops`
says. -/
def solveInteger (p : Program) (integer : Array Bool) (stops : Stops) : Search :=
  explore integer stops.target (Lp.solve p).2 100000 stops.improving [p] none

end Milp.Lp
