import Milp.Lp.Simplex

/-!
Reductions made before solving, which decide between equally good points the way the solver's
presolve does. They keep the dimensions of a program: a column is fixed by giving it equal
sides, and a row is dropped by making both its sides infinite.

Rows are visited first, in order. A row without free columns is checked and dropped; a row
with one free column becomes a pair of sides of that column; a side that the activity of the
row can never cross is dropped; a row whose activity can only meet one side at its extreme
forces its columns to the sides that give that extreme. Columns are visited next, in order. A
column in no row is fixed at the side its cost prefers, and a column without cost at its lower
side when that is finite and no further from zero than the upper one. A column in rows is fixed
when its reduced cost has one sign for every choice of row multipliers allowed by the kinds of
its rows (a `≤` row has a multiplier of at most zero, a `≥` row one of at least zero): at its
lower side when the reduced cost is never negative, at its upper side when it is never
positive, the upper side taking precedence when both hold. The passes repeat until nothing
changes.

Every reduction keeps some optimal point of the program, so a reduced program has the same
optimal objective; what changes is which of several optimal points is found.
-/
namespace Milp.Lp

/-- The tolerance within which sides are met. -/
def sideTolerance : Rat := 1 / 10000000

/-- What the reductions conclude. -/
inductive Reduction where
  /-- A row or column whose sides cannot be met. -/
  | infeasible
  /-- A column that improves the objective without limit. -/
  | unbounded
  | reduced (p : Program)

namespace Program

/-- The coefficient of column `j` in row `i`. -/
def coef (p : Program) (i j : Nat) : Rat := (p.matrix.getD i #[]).getD j 0

/-- Whether column `j` is fixed. -/
def isFixed (p : Program) (j : Nat) : Bool :=
  match p.lo j, p.hi j with
  | some l, some u => l == u
  | _, _ => false

/-- Whether row `i` still constrains anything. -/
def isLive (p : Program) (i : Nat) : Bool :=
  (p.lo (p.cols + i)).isSome || (p.hi (p.cols + i)).isSome

/-- Sets both sides of variable `k`. -/
def setSides (p : Program) (k : Nat) (l u : Option Rat) : Program :=
  { p with lower := p.lower.setIfInBounds k l, upper := p.upper.setIfInBounds k u }

/-- Fixes column `j` at `v`. -/
def fix (p : Program) (j : Nat) (v : Rat) : Program := p.setSides j (some v) (some v)

/-- Drops row `i`. -/
def drop (p : Program) (i : Nat) : Program := p.setSides (p.cols + i) none none

/-- The columns of row `i` that are not fixed and have a coefficient in it. -/
def freeCols (p : Program) (i : Nat) : List Nat :=
  (List.range p.cols).filter fun j => !p.isFixed j && p.coef i j != 0

/-- The part of row `i`'s activity that comes from fixed columns. -/
def fixedPart (p : Program) (i : Nat) : Rat :=
  (List.range p.cols).foldl (fun acc j =>
    if p.isFixed j then acc + p.coef i j * (p.lo j).getD 0 else acc) 0

/-- The least activity row `i` can have, if it is finite. -/
def leastActivity (p : Program) (i : Nat) : Option Rat :=
  (p.freeCols i).foldl (fun acc j =>
    let a := p.coef i j
    acc.bind fun s => (if 0 < a then p.lo j else p.hi j).map fun b => s + a * b)
    (some (p.fixedPart i))

/-- The greatest activity row `i` can have, if it is finite. -/
def greatestActivity (p : Program) (i : Nat) : Option Rat :=
  (p.freeCols i).foldl (fun acc j =>
    let a := p.coef i j
    acc.bind fun s => (if 0 < a then p.hi j else p.lo j).map fun b => s + a * b)
    (some (p.fixedPart i))

end Program

/-- Whether `x` lies above the upper side `u` by more than the tolerance. -/
def overUpper (x : Rat) : Option Rat → Bool
  | some u => decide (u + sideTolerance < x)
  | none => false

/-- Whether `x` lies below the lower side `l` by more than the tolerance. -/
def underLower (x : Rat) : Option Rat → Bool
  | some l => decide (x < l - sideTolerance)
  | none => false

/-- The larger of two lower sides. -/
def tighterLower : Option Rat → Option Rat → Option Rat
  | some a, some b => some (if a ≤ b then b else a)
  | some a, none | none, some a => some a
  | none, none => none

/-- The smaller of two upper sides. -/
def tighterUpper : Option Rat → Option Rat → Option Rat
  | some a, some b => some (if a ≤ b then a else b)
  | some a, none | none, some a => some a
  | none, none => none

/-- Sides of an integer column rounded inwards. -/
def roundIn (integer : Bool) (l u : Option Rat) : Option Rat × Option Rat :=
  if integer then
    (l.map fun v => ((v - sideTolerance).ceil : Rat), u.map fun v => ((v + sideTolerance).floor : Rat))
  else (l, u)

/-- Turns row `i`, whose only free column is `j`, into sides of `j`. -/
def singletonRow (p : Program) (integer : Array Bool) (i j : Nat) : Except Unit Program :=
  let a := p.coef i j
  let s := p.fixedPart i
  let k := p.cols + i
  let fromLower := (p.lo k).map fun l => (l - s) / a
  let fromUpper := (p.hi k).map fun u => (u - s) / a
  let (l, u) := if 0 < a then (fromLower, fromUpper) else (fromUpper, fromLower)
  let (l, u) := roundIn (integer.getD j false) l u
  let l := tighterLower (p.lo j) l
  let u := tighterUpper (p.hi j) u
  match l, u with
  | some lv, some uv =>
    if uv + sideTolerance < lv then .error ()
    else .ok ((p.setSides j (some (if lv ≤ uv then lv else uv)) (some uv)).drop i)
  | _, _ => .ok ((p.setSides j l u).drop i)

/-- Fixes every free column of row `i` at the side that gives the row its greatest activity
(`up`) or its least. -/
def forceRow (p : Program) (i : Nat) (up : Bool) : Program :=
  ((p.freeCols i).foldl (fun q j =>
    let a := p.coef i j
    let side := if (0 < a) == up then p.hi j else p.lo j
    match side with
    | some v => q.fix j v
    | none => q) p).drop i

/-- One row reduction; `none` when the row shows the program infeasible. -/
def reduceRow (p : Program) (integer : Array Bool) (i : Nat) : Option Program :=
  if !p.isLive i then some p
  else
    let k := p.cols + i
    let lo := p.lo k
    let hi := p.hi k
    match p.freeCols i with
    | [] =>
      let s := p.fixedPart i
      if overUpper s hi || underLower s lo then none else some (p.drop i)
    | [j] => match singletonRow p integer i j with
      | .ok q => some q
      | .error _ => none
    | _ =>
      let least := p.leastActivity i
      let most := p.greatestActivity i
      let lowOut := match least with | some v => overUpper v hi | none => false
      let highOut := match most with | some v => underLower v lo | none => false
      if lowOut || highOut then none
      else
        let lowerIdle := lo.isNone || (match least with
          | some v => !underLower v lo
          | none => false)
        let upperIdle := hi.isNone || (match most with
          | some v => !overUpper v hi
          | none => false)
        if lowerIdle && upperIdle then some (p.drop i)
        else
          let forcedUp := match most, lo with
            | some v, some l => decide (v ≤ l + sideTolerance)
            | _, _ => false
          let forcedDown := match least, hi with
            | some v, some u => decide (u - sideTolerance ≤ v)
            | _, _ => false
          if forcedUp then some (forceRow p i true)
          else if forcedDown then some (forceRow p i false)
          else
            some (p.setSides k (if lowerIdle then none else lo) (if upperIdle then none else hi))

/-- How the multiplier of a live row may vary: whether it may be negative and whether it may
be positive. A `≤` row's is at most zero, a `≥` row's at least zero, a two-sided row's free. -/
def multiplierSigns (p : Program) (i : Nat) : Bool × Bool :=
  let k := p.cols + i
  ((p.hi k).isSome, (p.lo k).isSome)

/-- Whether `Σᵢ aᵢⱼ yᵢ` over the live rows of column `j` can be negative, and whether it can be
positive. -/
def spread (p : Program) (j : Nat) : Bool × Bool :=
  (List.range p.rows).foldl (fun acc i =>
    let a := p.coef i j
    if a == 0 || !p.isLive i then acc
    else
      let (neg, pos) := multiplierSigns p i
      let (neg, pos) := if 0 < a then (neg, pos) else (pos, neg)
      (acc.1 || neg, acc.2 || pos)) (false, false)

/-- Whether column `j` has a coefficient in a live row. -/
def inRows (p : Program) (j : Nat) : Bool :=
  (List.range p.rows).any fun i => p.isLive i && p.coef i j != 0

/-- The magnitude of a side, infinite sides being larger than any finite one. -/
def sideBelow (a b : Option Rat) : Bool :=
  match a, b with
  | some x, some y => decide (x.abs < y.abs)
  | some _, none => true
  | none, _ => false

/-- Fixes a column in no row: at the side its cost prefers, and without cost at its upper
side when that is nearer zero than the lower one, else at its lower side when that is finite,
else at zero. A cost within the tolerance of zero counts as none when its side is infinite;
otherwise an infinite preferred side means the objective has no bound. -/
def emptyCol (p : Program) (j : Nat) : Option Program :=
  let c := p.costOf j
  let unboundedSide := (0 < c && (p.lo j).isNone) || (c < 0 && (p.hi j).isNone)
  if unboundedSide && sideTolerance < c.abs then none
  else
    let c := if unboundedSide then 0 else c
    if 0 < c then (p.lo j).map (p.fix j)
    else if c < 0 || sideBelow (p.hi j) (p.lo j) then (p.hi j).map (p.fix j)
    else some (p.fix j ((p.lo j).getD 0))

/-- One column reduction: `none` when the column improves the objective without limit. -/
def reduceCol (p : Program) (j : Nat) : Option Program :=
  if p.isFixed j then some p
  else if !inRows p j then emptyCol p j
  else
    let c := p.costOf j
    -- the reduced cost `c - Σ aᵢⱼ yᵢ` is at least `c` when the sum cannot be positive and at
    -- most `c` when it cannot be negative
    let (canNeg, canPos) := spread p j
    let neverBelow := !canPos
    let neverAbove := !canNeg
    if neverBelow && sideTolerance < c then (p.lo j).map (p.fix j)
    else if neverAbove && c < -sideTolerance then (p.hi j).map (p.fix j)
    else if neverAbove && c ≤ sideTolerance && (p.hi j).isSome then (p.hi j).map (p.fix j)
    else if neverBelow && -sideTolerance ≤ c && (p.lo j).isSome then (p.lo j).map (p.fix j)
    else some p

/-- One pass over the rows, then the columns. -/
def reducePass (p : Program) (integer : Array Bool) : Reduction :=
  match (List.range p.rows).foldlM (fun q i => reduceRow q integer i) p with
  | none => .infeasible
  | some q =>
    match (List.range q.cols).foldlM reduceCol q with
    | none => .unbounded
    | some q => .reduced q

/-- Repeats the passes until nothing changes. -/
def reduceFrom (integer : Array Bool) : Nat → Program → Reduction
  | 0, p => .reduced p
  | fuel + 1, p =>
    match reducePass p integer with
    | .reduced q =>
      if q.lower == p.lower && q.upper == p.upper then .reduced q else reduceFrom integer fuel q
    | r => r

/-- Reduces a program whose integer columns are marked. -/
def reduce (p : Program) (integer : Array Bool) : Reduction :=
  reduceFrom integer (2 * p.size + 2) p

end Milp.Lp
