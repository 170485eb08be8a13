/-!
Scalars of linear expressions. `Scalar` is the arithmetic that building and evaluating
expressions uses; `MachineScalar` adds what a binary floating-point format brings: the
infinities that stand for missing bounds, rounding from a double and exact widening to one.
-/
namespace Milp

/-- The arithmetic of expression coefficients and constants. -/
class Scalar (α : Type) extends Add α, Sub α, Mul α, Neg α where
  zero : α
  one : α
  /-- The multiplicative inverse `1 / x`, used for division by a scalar. -/
  recip : α → α

/-- A binary floating-point scalar. -/
class MachineScalar (α : Type) extends Scalar α where
  /-- Positive infinity. -/
  infinity : α
  /-- Rounds a double to the nearest value of the format. -/
  ofFloat : Float → α
  /-- Widens to a double; exact for every value of the format. -/
  toFloat : α → Float

instance : MachineScalar Float where
  zero := 0
  one := 1
  recip x := 1 / x
  infinity := 1 / 0
  ofFloat x := x
  toFloat x := x

instance : MachineScalar Float32 where
  zero := 0
  one := 1
  recip x := 1 / x
  infinity := 1 / 0
  ofFloat x := x.toFloat32
  toFloat x := x.toFloat

end Milp
