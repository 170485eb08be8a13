/-!
Shortest decimal significands of doubles. A finite double is `±m · 2^q`; the reals that round
to it form an interval around it whose two ends belong to it exactly when `m` is even. The
significand chosen here has the fewest digits among the decimals in that interval, and of the
two neighbours of the value on that decimal grid the nearer one, an exact tie going to the
even one. The decimal therefore reads back to the same double.
-/
namespace Milp.Num

/-- Sign, significand and binary exponent of a finite double: its value is `±m · 2^q`. -/
structure Binary where
  negative : Bool
  significand : Nat
  exponent : Int
deriving Repr, DecidableEq

/-- What the bit pattern of a double stands for. -/
inductive Kind where
  | nan
  | infinite (negative : Bool)
  | finite (b : Binary)
deriving Repr, DecidableEq

/-- Reads the IEEE binary64 fields of a double: 1 sign bit, 11 exponent bits, 52 fraction bits. -/
def Kind.ofFloat (x : Float) : Kind :=
  let bits : Nat := x.toBits.toNat
  let negative := decide (Nat.pow 2 63 ≤ bits)
  let biased : Nat := bits / Nat.pow 2 52 % Nat.pow 2 11
  let fraction : Nat := bits % Nat.pow 2 52
  if biased = 2047 then
    if fraction = 0 then .infinite negative else .nan
  else if biased = 0 then
    .finite ⟨negative, fraction, -1074⟩
  else
    .finite ⟨negative, fraction + Nat.pow 2 52, (biased : Int) - 1075⟩

/-- `2^k` as a rational, for any integer `k`. -/
def twoPow (k : Int) : Rat :=
  if 0 ≤ k then (2 : Rat) ^ k.toNat else 1 / (2 : Rat) ^ (-k).toNat

/-- `10^k` as a rational, for any integer `k`. -/
def tenPow (k : Int) : Rat :=
  if 0 ≤ k then (10 : Rat) ^ k.toNat else 1 / (10 : Rat) ^ (-k).toNat

namespace Binary

/-- The magnitude `m · 2^q`. -/
def magnitude (b : Binary) : Rat := b.significand * twoPow b.exponent

/-- The midpoint towards the next double below. Just above a power of two the gap below is half
the gap above, so the midpoint lies a quarter gap below. -/
def lowerEnd (b : Binary) : Rat :=
  if b.significand = Nat.pow 2 52 ∧ -1074 < b.exponent then
    (4 * (b.significand : Rat) - 1) * twoPow (b.exponent - 2)
  else
    (2 * (b.significand : Rat) - 1) * twoPow (b.exponent - 1)

/-- The midpoint towards the next double above. -/
def upperEnd (b : Binary) : Rat := (2 * (b.significand : Rat) + 1) * twoPow (b.exponent - 1)

/-- Whether a real rounds to this double under round-to-nearest, ties to even. -/
def roundsHere (b : Binary) (y : Rat) : Bool :=
  if b.significand % 2 = 0 then decide (b.lowerEnd ≤ y) && decide (y ≤ b.upperEnd)
  else decide (b.lowerEnd < y) && decide (y < b.upperEnd)

end Binary

/-- The number of decimal digits of `n`; zero has none. -/
def digitCount (n : Nat) : Nat :=
  if n = 0 then 0 else digitCount (n / 10) + 1
termination_by n
decreasing_by omega

/-- `⌊log₁₀ (num / den)⌋` for positive `num` and `den`. -/
def floorLog10 (num den : Nat) : Int :=
  if den ≤ num then (digitCount (num / den) : Int) - 1
  else -((digitCount ((den + num - 1) / num - 1) : Nat) : Int)

/-- A decimal `digits · 10^exponent`. -/
structure Decimal where
  digits : Nat
  exponent : Int
deriving Repr, DecidableEq

/-- The value of a decimal. -/
def Decimal.value (d : Decimal) : Rat := d.digits * tenPow d.exponent

/-- The same value with no trailing zero in the digits (the grid above a run of nines is one
digit longer than its value needs). -/
def Decimal.trim (d : Decimal) : Decimal :=
  if d.digits ≠ 0 ∧ d.digits % 10 = 0 then Decimal.trim ⟨d.digits / 10, d.exponent + 1⟩ else d
termination_by d.digits
decreasing_by omega

/-- The decimal exponent of the leading digit of a positive magnitude. -/
def Binary.leadingExponent (b : Binary) : Int :=
  if 0 ≤ b.exponent then floorLog10 (b.significand * Nat.pow 2 b.exponent.toNat) 1
  else floorLog10 b.significand (Nat.pow 2 (-b.exponent).toNat)

/-- The decimal with `n` significant digits that this double prints as, if the grid of such
decimals meets its rounding interval: the nearer of the two grid neighbours that round to it. -/
def Binary.onGrid (b : Binary) (n : Nat) : Option Decimal :=
  let k := b.leadingExponent - n + 1
  let v := b.magnitude
  let below := (v / tenPow k).floor.toNat
  let lo : Decimal := ⟨below, k⟩
  let hi : Decimal := ⟨below + 1, k⟩
  match b.roundsHere lo.value, b.roundsHere hi.value with
  | true, true =>
    if v - lo.value < hi.value - v then some lo
    else if hi.value - v < v - lo.value then some hi
    else if below % 2 = 0 then some lo else some hi
  | true, false => some lo
  | false, true => some hi
  | false, false => none

/-- The shortest decimal of a finite nonzero magnitude; seventeen digits always suffice. -/
def Binary.shortest (b : Binary) : Decimal :=
  if b.significand = 0 then ⟨0, 0⟩
  else
    match (List.range' 1 17).findSome? b.onGrid with
    | some d => d.trim
    | none => ⟨(b.magnitude / tenPow (b.leadingExponent - 16)).floor.toNat, b.leadingExponent - 16⟩

end Milp.Num
