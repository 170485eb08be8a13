import Milp.Num.Shortest

/-!
The text of a double: its shortest decimal, written positionally when the leading digit's
exponent lies in a range and with an exponent otherwise.
-/
namespace Milp.Num

/-- How doubles are written. -/
structure Layout where
  /-- Leading-digit exponents from `lowest` to `highest` are written positionally. -/
  lowest : Int
  highest : Int
  /-- The text of a NaN, whatever its sign. -/
  nan : String
  /-- The text of a positive infinity; a negative one gets a minus sign. -/
  infinity : String

/-- Doubles in answers and messages: positional from `1e-4` up to below `1e16`, with at least
one digit after the point, an exponent without sign or padding otherwise (`1e-7`, `1.5e16`),
and `NaN` and `inf` for the special values. -/
def Layout.standard : Layout := ⟨-4, 15, "NaN", "inf"⟩

/-- `n` zeros. -/
def zeros (n : Nat) : String := String.ofList (List.replicate n '0')

/-- Digits `ds` with the leading digit at decimal exponent `e`, written positionally. -/
def positional (ds : String) (e : Int) : String :=
  if 0 ≤ e then
    let whole := e.toNat + 1
    if ds.length ≤ whole then ds ++ zeros (whole - ds.length) ++ ".0"
    else String.ofList (ds.toList.take whole) ++ "." ++ String.ofList (ds.toList.drop whole)
  else "0." ++ zeros ((-e).toNat - 1) ++ ds

/-- Digits `ds` with the leading digit at decimal exponent `e`, written with an exponent. -/
def scientific (ds : String) (e : Int) : String :=
  let cs := ds.toList
  let head := String.ofList (cs.take 1)
  let tail := String.ofList (cs.drop 1)
  (if tail.isEmpty then head else head ++ "." ++ tail) ++ "e" ++ toString e

/-- The text of a finite magnitude, without its sign. -/
def Layout.magnitude (l : Layout) (b : Binary) : String :=
  if b.significand = 0 then "0.0"
  else
    let d := b.shortest
    let ds := toString d.digits
    let e := d.exponent + ds.length - 1
    if l.lowest ≤ e ∧ e ≤ l.highest then positional ds e else scientific ds e

/-- The text of a double. -/
def Layout.render (l : Layout) (x : Float) : String :=
  match Kind.ofFloat x with
  | .nan => l.nan
  | .infinite negative => (if negative then "-" else "") ++ l.infinity
  | .finite b => (if b.negative then "-" else "") ++ l.magnitude b

end Milp.Num
