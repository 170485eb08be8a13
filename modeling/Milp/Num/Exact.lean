import Milp.Num.Shortest
import Milp.Scalar

/-!
Exact values of doubles and the double nearest to a rational. A finite double is the rational
`±m · 2^q`; a rational is rounded to the nearest double, a tie going to the even significand,
with subnormal results on the grid `2^-1074` and magnitudes past the largest double rounding to
infinity.

`Exact` is the scalar of the model read in exact arithmetic: a finite value is a rational and
every operation on finite values is exact; the infinities and NaN are one value that is not
finite, and an operation with it gives it again.
-/
namespace Milp.Num

/-- The rational value of a finite double; `none` for infinities and NaN. -/
def Kind.toRat? : Kind → Option Rat
  | .finite b => some (if b.negative then -b.magnitude else b.magnitude)
  | _ => none

/-- The rational value of a double, if it is finite. -/
def ratOf? (x : Float) : Option Rat := (Kind.ofFloat x).toRat?

/-- `⌊log₂ (num / den)⌋` for positive `num` and `den`. -/
def floorLog2 (num den : Nat) : Int :=
  let k : Int := (Nat.log2 num : Int) - (Nat.log2 den : Int)
  -- `k` or `k - 1`: compare `num` with `den · 2^k`
  if 0 ≤ k then (if num < den * Nat.pow 2 k.toNat then k - 1 else k)
  else (if num * Nat.pow 2 (-k).toNat < den then k - 1 else k)

/-- `num / den` rounded to the nearest natural number, a tie going to the even one. -/
def roundHalfEven (num den : Nat) : Nat :=
  let q := num / den
  let r := num % den
  if 2 * r > den ∨ (2 * r = den ∧ q % 2 = 1) then q + 1 else q

/-- The double nearest to a positive rational `num / den`. -/
def nearestPositive (num den : Nat) : Float :=
  -- the exponent that gives 53 significant bits, but no finer than the subnormal grid
  let e : Int := max (floorLog2 num den - 52) (-1074)
  let m := if 0 ≤ e then roundHalfEven num (den * Nat.pow 2 e.toNat)
    else roundHalfEven (num * Nat.pow 2 (-e).toNat) den
  if e + (Nat.log2 m : Int) ≥ 1024 then 1 / 0
  else Float.scaleB (Float.ofNat m) e

/-- The double nearest to a rational. -/
def nearest (r : Rat) : Float :=
  if r = 0 then 0
  else if 0 < r then nearestPositive r.num.toNat r.den
  else -nearestPositive (-r).num.toNat r.den

/-- A scalar read exactly: its rational value when it is finite, nothing for an infinity or NaN. -/
structure Exact where
  rat? : Option Rat
deriving DecidableEq

namespace Exact

/-- A finite value. -/
def finite (q : Rat) : Exact := ⟨some q⟩

/-- The value that is not finite. -/
def notFinite : Exact := ⟨none⟩

/-- An operation on two values, done exactly when both are finite. -/
def lift₂ (f : Rat → Rat → Rat) (a b : Exact) : Exact :=
  match a.rat?, b.rat? with
  | some p, some q => finite (f p q)
  | _, _ => notFinite

instance : MachineScalar Exact where
  add := lift₂ (· + ·)
  sub := lift₂ (· - ·)
  mul := lift₂ (· * ·)
  neg a := ⟨a.rat?.map (- ·)⟩
  zero := finite 0
  one := finite 1
  recip a :=
    match a.rat? with
    | some q => if q = 0 then notFinite else finite q⁻¹
    | none => notFinite
  infinity := notFinite
  ofFloat x := ⟨ratOf? x⟩
  toFloat a :=
    match a.rat? with
    | some q => nearest q
    | none => 0 / 0

end Exact

end Milp.Num
