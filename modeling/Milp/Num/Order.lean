import Mathlib
/-!
The order of doubles, read off their unpacked form. A comparison with NaN has no outcome, any two
other numbers compare one way or the other, and comparing the other way round swaps the outcome.
So between numbers that are not NaN, one that is not above another is at most it, and each is at
most itself: the facts that make clipping a bound with `max` and `min` land on the near side of the
clip.
-/
namespace Milp.Num

open Float.Model

/-- Comparing the other way round swaps the outcome. -/
theorem unpacked_compare_swap (u v : UnpackedFloat) : v.compare u = (u.compare v).map Ordering.swap := by
  cases u with
  | infinity s =>
    cases v with
    | infinity t => cases s <;> cases t <;> rfl
    | notANumber => cases s <;> rfl
    | zero t => cases s <;> cases t <;> rfl
    | finite t m e h => cases s <;> cases t <;> rfl
  | notANumber => cases v <;> rfl
  | zero s =>
    cases v with
    | infinity t => cases s <;> cases t <;> rfl
    | notANumber => cases s <;> rfl
    | zero t => cases s <;> cases t <;> rfl
    | finite t m e h => cases s <;> cases t <;> rfl
  | finite s m e h =>
    cases v with
    | infinity t => cases s <;> cases t <;> rfl
    | notANumber => cases s <;> rfl
    | zero t => cases s <;> cases t <;> rfl
    | finite t m' e' h' =>
      -- same signs compare exponents then mantissas, swapped for negative numbers
      cases s <;> cases t <;>
        simp [UnpackedFloat.compare, Ordering.swap_then, Int.compare_swap, Nat.compare_swap]

/-- Two numbers that are not NaN always compare. -/
theorem unpacked_compare_isSome {u v : UnpackedFloat} (hu : u.isNaN = false) (hv : v.isNaN = false) :
    (u.compare v).isSome := by
  cases u with
  | notANumber => simp [UnpackedFloat.isNaN] at hu
  | infinity s =>
    cases v with
    | notANumber => simp [UnpackedFloat.isNaN] at hv
    | infinity t => cases s <;> cases t <;> rfl
    | zero t => cases s <;> cases t <;> rfl
    | finite t m e h => cases s <;> cases t <;> rfl
  | zero s =>
    cases v with
    | notANumber => simp [UnpackedFloat.isNaN] at hv
    | infinity t => cases s <;> cases t <;> rfl
    | zero t => cases s <;> cases t <;> rfl
    | finite t m e h => cases s <;> cases t <;> rfl
  | finite s m e h =>
    cases v with
    | notANumber => simp [UnpackedFloat.isNaN] at hv
    | infinity t => cases s <;> cases t <;> rfl
    | zero t => cases s <;> cases t <;> rfl
    | finite t m' e' h' => cases s <;> cases t <;> rfl

/-- Between doubles that are not NaN, one that is not above another is at most it. -/
theorem le_of_not_lt {a b : Float} (ha : a.isNaN = false) (hb : b.isNaN = false) (above : ¬b < a) :
    a ≤ b := by
  have hu : a.toModel.unpack.isNaN = false := ha
  have hv : b.toModel.unpack.isNaN = false := hb
  obtain ⟨o, compared⟩ := Option.isSome_iff_exists.mp (unpacked_compare_isSome hu hv)
  have swapped := unpacked_compare_swap a.toModel.unpack b.toModel.unpack
  rw [compared] at swapped
  have notAbove : b.toModel.unpack.compare a.toModel.unpack ≠ some .lt := by
    intro below
    exact above (by simp [LT.lt, Float.lt, Float.Model.lt, UnpackedFloat.lt, below])
  show Float.le a b = true
  simp [Float.le, LE.le, Float.Model.le, UnpackedFloat.le, compared]
  -- the outcome is not `gt`, since swapped it would put `b` below `a`
  cases o <;> simp_all [Ordering.swap]

theorem lt_irrefl (a : Float) : ¬a < a := by
  intro below
  have lower : a.toModel.unpack.compare a.toModel.unpack = some .lt := by
    simpa [LT.lt, Float.lt, Float.Model.lt, UnpackedFloat.lt] using below
  -- swapped, the outcome of comparing `a` with itself would be `gt`
  have swapped := unpacked_compare_swap a.toModel.unpack a.toModel.unpack
  rw [lower] at swapped
  simp [Ordering.swap] at swapped

theorem le_refl {a : Float} (num : a.isNaN = false) : a ≤ a := le_of_not_lt num num (lt_irrefl a)

end Milp.Num
