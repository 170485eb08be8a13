import Milp.Scalar

/-!
Linear expressions. An expression is kept as the tree that built it, and its terms are produced
in written order each time it is read: the terms of `l + r` are those of `l` and then those of
`r`, nothing is merged, reordered or dropped. A sum over a block of variables looks up each
variable while it is read, and a look-up outside the block stops the reading with a fault.

An expression is read as two sequences, its ids and its coefficients, each walking the whole tree
on its own; its terms pair the two by position, and a pairing in which one side ends first is a
fault.

Two rules differ from textbook algebra and are kept on purpose: the constant of `l - r` is
`l.c + r.c`, and the constant of `c - e` is `e.c + c`.
-/
namespace Milp

/-- A failed run-time check: it ends the computation with this text. -/
structure Fault where
  message : String
deriving DecidableEq, Repr

/-- A block of `count` consecutive variables from id `first`. Logical index `i` addresses the
offset `table[i]` when `i` lies inside the table and the offset `i` otherwise. -/
structure Block where
  first : Nat
  count : Nat
  table : Array Nat := #[]
deriving Repr

/-- The offset a logical index addresses. -/
def Block.offset (b : Block) (i : Nat) : Nat := b.table[i]?.getD i

/-- The sum of two sizes as the program computes it: `usize` addition, which wraps at `2 ^ 64`. -/
def wordAdd (a b : Nat) : Nat := (a + b) % Nat.pow 2 64

/-- The variable id at a logical index, or a fault when the offset leaves the block; the id is the
`usize` sum of the block's first id and the offset. -/
def Block.access (b : Block) (i : Nat) : Except Fault Nat :=
  let k := b.offset i
  let size := b.count
  if k < size then .ok (wordAdd b.first k)
  else .error ⟨s!"Variable block index maps to offset {k} outside block of size {size}"⟩

/-- A stored expression: terms in order and a constant. -/
structure Linear (α : Type) where
  terms : List (Nat × α)
  constant : α

/-- Linear expressions over variable ids with coefficients in `α`. -/
inductive Expr (α : Type) where
  /-- A bare scalar: no terms. -/
  | const (c : α)
  /-- A variable with coefficient one. -/
  | var (id : Nat)
  /-- A stored expression. -/
  | linear (l : Linear α)
  | add (l r : Expr α)
  /-- `l - r`: the terms of `r` negated, the constants added. -/
  | sub (l r : Expr α)
  | neg (e : Expr α)
  /-- `e + c`. -/
  | shift (e : Expr α) (c : α)
  /-- `c - e`: the terms of `e` negated, the constant `e.c + c`. -/
  | rsub (c : α) (e : Expr α)
  /-- `c * e`. -/
  | scale (c : α) (e : Expr α)
  /-- `Σ cᵢ · x[b(i)]` over the listed pairs of logical index and coefficient. -/
  | blockSum (b : Block) (items : List (Nat × α))

/-- A sequence read lazily: the items read, in order, and the fault that stopped the reading early,
if one did. -/
structure Reading (β : Type) where
  items : List β
  fault : Option Fault := none

namespace Reading

variable {β γ : Type}

/-- Reading `t` and then `u`; a fault in `t` means `u` is never read. -/
def append (t u : Reading β) : Reading β :=
  match t.fault with
  | some _ => t
  | none => ⟨t.items ++ u.items, u.fault⟩

/-- The fault of pairing two sequences of which one ends before the other. -/
def unevenFault : Fault := ⟨"itertools: .zip_eq() reached end of one iterator before the other"⟩

/-- Pairs `bs` with `cs` by position, taking from `bs` before `cs` at each step; after the last of
`bs` the fault `stop` is met, if there is one, and one side ending before the other is a fault. -/
def pairUp (stop : Option Fault) : List β → List γ → Reading (β × γ)
  | [], [] => ⟨[], stop⟩
  | [], _ :: _ => ⟨[], some (stop.getD unevenFault)⟩
  | _ :: _, [] => ⟨[], some unevenFault⟩
  | b :: bs, c :: cs => let r := pairUp stop bs cs; ⟨(b, c) :: r.items, r.fault⟩

/-- A reading paired with a list by position, the reading taken first at each step. -/
def zipEq (t : Reading β) (cs : List γ) : Reading (β × γ) := pairUp t.fault t.items cs

end Reading

/-- The terms read from an expression, in order, and the fault that stopped the reading early,
if one did. -/
abbrev Terms (α : Type) := Reading (Nat × α)

namespace Terms

variable {α : Type}

/-- The same reading with every coefficient changed by `f`. -/
def mapCoef (f : α → α) (t : Terms α) : Terms α :=
  ⟨t.items.map (fun p => (p.1, f p.2)), t.fault⟩

/-- The ids, in order. -/
def ids (t : Terms α) : List Nat := t.items.map Prod.fst

/-- The coefficients, in order. -/
def coefs (t : Terms α) : List α := t.items.map Prod.snd

/-- All terms, or the fault that stopped the reading. -/
def toExcept (t : Terms α) : Except Fault (List (Nat × α)) :=
  match t.fault with
  | some f => .error f
  | none => .ok t.items

/-- The first id at least `n`, if it comes before any fault. -/
def firstOutside (t : Terms α) (n : Nat) : Option Nat := t.ids.find? (n ≤ ·)

/-- The stored expression of all terms with constant `c`, or the fault that stopped the reading. -/
def toLinear (t : Terms α) (c : α) : Except Fault (Linear α) :=
  match t.toExcept with
  | .ok ts => .ok ⟨ts, c⟩
  | .error f => .error f

end Terms

/-- The ids a block gives the logical indices, in order, until the first look-up that fails. -/
def Block.lookup (b : Block) : List Nat → Reading Nat
  | [] => ⟨[], none⟩
  | i :: rest =>
    match b.access i with
    | .error f => ⟨[], some f⟩
    | .ok j => let t := b.lookup rest; ⟨j :: t.items, t.fault⟩

namespace Expr

variable {α : Type} [Scalar α]

/-- The variable ids of an expression, read in written order; a block sum looks each one up as it
is read. -/
def varIds : Expr α → Reading Nat
  | const _ => ⟨[], none⟩
  | var j => ⟨[j], none⟩
  | linear l => ⟨l.terms.map Prod.fst, none⟩
  | add l r => l.varIds.append r.varIds
  | sub l r => l.varIds.append r.varIds
  | neg e => e.varIds
  | shift e _ => e.varIds
  | rsub _ e => e.varIds
  | scale _ e => e.varIds
  | blockSum b items => b.lookup (items.map Prod.fst)

/-- The coefficients of an expression, read in written order, apart from its ids. -/
def coefficients : Expr α → List α
  | const _ => []
  | var _ => [Scalar.one]
  | linear l => l.terms.map Prod.snd
  | add l r => l.coefficients ++ r.coefficients
  | sub l r => l.coefficients ++ r.coefficients.map (- ·)
  | neg e => e.coefficients.map (- ·)
  | shift e _ => e.coefficients
  | rsub _ e => e.coefficients.map (- ·)
  | scale c e => e.coefficients.map (c * ·)
  | blockSum _ items => items.map Prod.snd

/-- The terms of an expression: its ids and its coefficients, read separately and paired by
position. -/
def terms (e : Expr α) : Terms α := e.varIds.zipEq e.coefficients

/-- The constant of an expression. -/
def constant : Expr α → α
  | const c => c
  | var _ => Scalar.zero
  | linear l => l.constant
  | add l r => l.constant + r.constant
  | sub l r => l.constant + r.constant
  | neg e => -e.constant
  | shift e c => e.constant + c
  | rsub c e => e.constant + c
  | scale c e => c * e.constant
  | blockSum _ _ => Scalar.zero

/-- `e / c`, which scales by the reciprocal of `c`. -/
def divide (e : Expr α) (c : α) : Expr α := scale (Scalar.recip c) e

/-- The stored copy of an expression: its terms and its constant, or the fault met reading it. -/
def materialize (e : Expr α) : Except Fault (Linear α) := e.terms.toLinear e.constant

/-- Adds `c * x[j]` over the terms to `acc`, in order. An id outside the values is a fault. -/
def foldValues (xs : Array α) : α → List (Nat × α) → Except Fault α
  | acc, [] => .ok acc
  | acc, (j, c) :: rest =>
    if h : j < xs.size then foldValues xs (acc + c * xs[j]) rest
    else
      let len := xs.size
      .error ⟨s!"index out of bounds: the len is {len} but the index is {j}"⟩

/-- The value at a point: a left fold from the constant adding `c * x[j]` term by term. -/
def evaluate (e : Expr α) (xs : Array α) : Except Fault α :=
  let t := e.terms
  match foldValues xs e.constant t.items, t.fault with
  | .error f, _ => .error f
  | .ok _, some f => .error f
  | .ok v, none => .ok v

end Expr

namespace Linear

variable {α : Type} [Scalar α]

/-- The empty stored expression with constant zero. -/
def zero : Linear α := ⟨[], Scalar.zero⟩

/-- A stored expression from ids and coefficients paired by position; lists of different
lengths are a fault. -/
def ofLists (ids : List Nat) (coefs : List α) (c : α) : Except Fault (Linear α) :=
  if ids.length = coefs.length then .ok ⟨ids.zip coefs, c⟩
  else .error ⟨"Mismatching lengths of variables and coefficients"⟩

/-- Appends one term. -/
def push (l : Linear α) (j : Nat) (c : α) : Linear α := ⟨l.terms ++ [(j, c)], l.constant⟩

/-- Appends the terms of an expression and adds its constant. -/
def extend (l : Linear α) (e : Expr α) : Except Fault (Linear α) :=
  match e.terms.toExcept with
  | .ok ts => .ok ⟨l.terms ++ ts, l.constant + e.constant⟩
  | .error f => .error f

/-- The number of terms. -/
def len (l : Linear α) : Nat := l.terms.length

end Linear

end Milp
