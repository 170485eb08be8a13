import Mathlib
import Milp.Scalar

/-!
# Signed zeros and doubling in binary floating point

The program's scalars are IEEE binary floats, read through the language's own model of them: a
float is a bit pattern, unpacked into an infinity, NaN, a signed zero or a finite sign, mantissa
and exponent, operated on in that form, and packed again. Two facts about that arithmetic carry
the objective's round trips and the agreement of the program's two ways of summing coefficients.

* Zeros: IEEE equality with `0` holds exactly of `+0` and `-0` (`beq_zero_iff`), a zero added to
  a value that is not a zero gives that value back (`add_of_beq_zero`), and two zeros add to a
  zero. Both rest on a valid bit pattern being its own unpacked form packed again
  (`UnpackedFloat.pack_unpack_of_valid`).
  `SignedZeros` names these facts for both scalar types, and `SameUpToZeroSign` is what they
  give two sums that start from different zeros: they agree, or are both zeros.
* Doubling: `x + x = 2 * x` for every double (`add_self`). Both sides round `2m · 2^e`, written
  with different numbers of low zero bits, and rounding shifts those bits out again without a
  trace (`roundWithAccuracy_shiftLeft`).
-/
namespace Milp.Num

open Float.Model UnpackedFloat

/-! ## Packing what was unpacked -/

theorem model_pack_unpack (x : Float.Model) : Float.Model.pack x.unpack = x := by
  obtain ⟨bits, valid⟩ := x
  simp only [Float.Model.pack, Float.Model.unpack, pack_unpack_of_valid valid, UInt64.ofBitVec_toBitVec]

theorem model32_pack_unpack (x : Float32.Model) : Float32.Model.pack x.unpack = x := by
  obtain ⟨bits, valid⟩ := x
  simp only [Float32.Model.pack, Float32.Model.unpack, pack_unpack_of_valid valid, UInt32.ofBitVec_toBitVec]

/-- A double is its unpacked value packed again. -/
theorem ofModel_pack_unpack (x : Float) : Float.ofModel (Float.Model.pack x.toModel.unpack) = x := by
  rw [model_pack_unpack]

theorem ofModel_pack_unpack32 (x : Float32) : Float32.ofModel (Float32.Model.pack x.toModel.unpack) = x := by
  rw [model32_pack_unpack]

/-! ## Zeros -/

@[simp] theorem scalar_zero_float : (Scalar.zero : Float) = 0 := rfl

@[simp] theorem scalar_zero_float32 : (Scalar.zero : Float32) = 0 := rfl

theorem beq_eq_false_of_bne {β : Type} [BEq β] {a b : β} (different : (a != b) = true) : (a == b) = false := by
  rw [bne, Bool.not_eq_true'] at different
  exact different

/-- IEEE equality with `+0` holds exactly of the zeros. -/
theorem beq_zero_iff_unpacked (u : UnpackedFloat) : u.beq (.zero .positive) = true ↔ ∃ s, u = .zero s := by
  cases u with
  | notANumber => simp [UnpackedFloat.beq, UnpackedFloat.compare]
  | infinity s => cases s <;> simp [UnpackedFloat.beq, UnpackedFloat.compare]
  | zero s => simp [UnpackedFloat.beq, UnpackedFloat.compare]
  | finite s m e pos => cases s <;> simp [UnpackedFloat.beq, UnpackedFloat.compare]

/-- A zero added to a value that is not a zero gives that value, NaN and infinities included. -/
theorem add_zero_left (spec : Format) (s : Sign) {u : UnpackedFloat} (nonzero : ∀ t, u ≠ .zero t) :
    UnpackedFloat.add spec (.zero s) u = u := by
  cases u with
  | zero t => exact absurd rfl (nonzero t)
  | notANumber => rfl
  | infinity t => rfl
  | finite t m e pos => rfl

theorem unpack_zero : (0 : Float).toModel.unpack = .zero .positive := rfl

theorem unpack_zero32 : (0 : Float32).toModel.unpack = .zero .positive := rfl

theorem beq_zero_iff_unpack (c : Float) : (c == 0) = true ↔ ∃ s, c.toModel.unpack = .zero s := by
  show c.toModel.unpack.beq (0 : Float).toModel.unpack = true ↔ _
  rw [unpack_zero, beq_zero_iff_unpacked]

theorem beq_zero_iff_unpack32 (c : Float32) : (c == 0) = true ↔ ∃ s, c.toModel.unpack = .zero s := by
  show c.toModel.unpack.beq (0 : Float32).toModel.unpack = true ↔ _
  rw [unpack_zero32, beq_zero_iff_unpacked]

/-- IEEE equality with `0` holds exactly of `+0` and `-0`: a NaN is not equal to it. -/
theorem beq_zero_iff (c : Float) : (c == 0) = true ↔ c = 0 ∨ c = -0 := by
  rw [beq_zero_iff_unpack]
  constructor
  · rintro ⟨s, zero⟩
    have back := ofModel_pack_unpack c
    rw [zero] at back
    cases s
    · exact .inr (back.symm.trans rfl)
    · exact .inl (back.symm.trans rfl)
  · rintro (rfl | rfl)
    · exact ⟨.positive, rfl⟩
    · exact ⟨.negative, rfl⟩

theorem beq_zero_iff32 (c : Float32) : (c == 0) = true ↔ c = 0 ∨ c = -0 := by
  rw [beq_zero_iff_unpack32]
  constructor
  · rintro ⟨s, zero⟩
    have back := ofModel_pack_unpack32 c
    rw [zero] at back
    cases s
    · exact .inr (back.symm.trans rfl)
    · exact .inl (back.symm.trans rfl)
  · rintro (rfl | rfl)
    · exact ⟨.positive, rfl⟩
    · exact ⟨.negative, rfl⟩

/-- A zero added to a value that is not a zero gives that value. -/
theorem add_of_beq_zero {a c : Float} (zero : (a == 0) = true) (nonzero : (c == 0) = false) : a + c = c := by
  obtain ⟨s, signed⟩ := (beq_zero_iff_unpack a).mp zero
  have other : ∀ t, c.toModel.unpack ≠ .zero t := fun t found => by
    rw [(beq_zero_iff_unpack c).mpr ⟨t, found⟩] at nonzero
    cases nonzero
  show Float.ofModel (Float.Model.pack (UnpackedFloat.add _ a.toModel.unpack c.toModel.unpack)) = c
  rw [signed, add_zero_left _ _ other, ofModel_pack_unpack]

theorem add_of_beq_zero32 {a c : Float32} (zero : (a == 0) = true) (nonzero : (c == 0) = false) :
    a + c = c := by
  obtain ⟨s, signed⟩ := (beq_zero_iff_unpack32 a).mp zero
  have other : ∀ t, c.toModel.unpack ≠ .zero t := fun t found => by
    rw [(beq_zero_iff_unpack32 c).mpr ⟨t, found⟩] at nonzero
    cases nonzero
  show Float32.ofModel (Float32.Model.pack (UnpackedFloat.add _ a.toModel.unpack c.toModel.unpack)) = c
  rw [signed, add_zero_left _ _ other, ofModel_pack_unpack32]

/-- Two zeros add to a zero. -/
theorem beq_zero_add {a c : Float} (za : (a == 0) = true) (zc : (c == 0) = true) : (a + c == 0) = true := by
  rcases (beq_zero_iff a).mp za with rfl | rfl <;> rcases (beq_zero_iff c).mp zc with rfl | rfl <;> decide

theorem beq_zero_add32 {a c : Float32} (za : (a == 0) = true) (zc : (c == 0) = true) :
    (a + c == 0) = true := by
  rcases (beq_zero_iff32 a).mp za with rfl | rfl <;> rcases (beq_zero_iff32 c).mp zc with rfl | rfl <;> decide

/-- Scalars whose zeros behave as IEEE signed zeros do under addition: `0 == 0`, a zero added to a
value that is not a zero gives that value, and two zeros add to a zero. -/
class SignedZeros (α : Type) [Scalar α] [BEq α] : Prop where
  zero_beq_zero : (Scalar.zero == (Scalar.zero : α)) = true
  add_of_beq_zero {a c : α} : (a == Scalar.zero) = true → (c == Scalar.zero) = false → a + c = c
  beq_zero_add {a c : α} : (a == Scalar.zero) = true → (c == Scalar.zero) = true → (a + c == Scalar.zero) = true

instance : SignedZeros Float where
  zero_beq_zero := by decide
  add_of_beq_zero := add_of_beq_zero
  beq_zero_add := beq_zero_add

instance : SignedZeros Float32 where
  zero_beq_zero := by decide
  add_of_beq_zero := add_of_beq_zero32
  beq_zero_add := beq_zero_add32

/-! ## Sums that start from different zeros -/

section SameUpToZeroSign

variable {α : Type} [Scalar α] [BEq α]

/-- Two scalars that are equal, or both zeros, of either sign. -/
def SameUpToZeroSign (a b : α) : Prop := a = b ∨ ((a == Scalar.zero) = true ∧ (b == Scalar.zero) = true)

/-- Values the same up to the sign of a zero are zeros together. -/
theorem SameUpToZeroSign.beq_zero_eq {a b : α} (same : SameUpToZeroSign a b) :
    (a == Scalar.zero) = (b == Scalar.zero) := by
  rcases same with rfl | ⟨za, zb⟩
  · rfl
  · rw [za, zb]

/-- Values the same up to the sign of a zero, one of them not a zero, are equal. -/
theorem SameUpToZeroSign.eq_of_beq_zero_false {a b : α} (same : SameUpToZeroSign a b)
    (nonzero : (a == Scalar.zero) = false) : a = b := by
  rcases same with equal | ⟨za, -⟩
  · exact equal
  · rw [za] at nonzero
    cases nonzero

variable [SignedZeros α]

/-- Adding one value to both keeps them the same up to the sign of a zero. -/
theorem SameUpToZeroSign.add_right {a b : α} (same : SameUpToZeroSign a b) (c : α) :
    SameUpToZeroSign (a + c) (b + c) := by
  rcases same with rfl | ⟨za, zb⟩
  · exact .inl rfl
  · cases zc : c == Scalar.zero
    · -- a value that is not a zero passes through either zero
      exact .inl ((SignedZeros.add_of_beq_zero za zc).trans (SignedZeros.add_of_beq_zero zb zc).symm)
    · exact .inr ⟨SignedZeros.beq_zero_add za zc, SignedZeros.beq_zero_add zb zc⟩

/-- Left sums over one list from two starts that are the same up to the sign of a zero stay so. -/
theorem SameUpToZeroSign.foldl {a b : α} (same : SameUpToZeroSign a b) (cs : List α) :
    SameUpToZeroSign (cs.foldl (· + ·) a) (cs.foldl (· + ·) b) := by
  induction cs generalizing a b with
  | nil => exact same
  | cons c rest ih => exact ih (same.add_right c)

/-- Starting a sum from `0` changes at most the sign of a zero first value. -/
theorem sameUpToZeroSign_zero_add (c : α) : SameUpToZeroSign (Scalar.zero + c) c := by
  cases zc : c == Scalar.zero
  · exact .inl (SignedZeros.add_of_beq_zero SignedZeros.zero_beq_zero zc)
  · exact .inr ⟨SignedZeros.beq_zero_add SignedZeros.zero_beq_zero zc, zc⟩

end SameUpToZeroSign

/-! ## Doubling -/

theorem repeat_add {β : Type} (f : β → β) (d k : Nat) (x : β) :
    Nat.repeat f (d + k) x = Nat.repeat f d (Nat.repeat f k x) := by
  induction d with
  | zero => simp [Nat.repeat]
  | succ d ih => rw [Nat.succ_add, Nat.repeat, ih, Nat.repeat]

theorem shiftRight_add (em : ExtendedMantissa) (d k : Nat) : em >>> (d + k) = (em >>> k) >>> d :=
  repeat_add _ d k em

/-- Shifting a mantissa right past the zero bits shifted in at its bottom gives it back, with
nothing rounded off. -/
theorem shiftRight_shiftLeft (N k : Nat) :
    ExtendedMantissa.mk (N <<< k) false false >>> k = ⟨N, false, false⟩ := by
  induction k generalizing N with
  | zero => rfl
  | succ k ih =>
    have shifted : N <<< (k + 1) = (2 * N) <<< k := by
      simp only [Nat.shiftLeft_eq, Nat.pow_succ]
      rw [Nat.mul_comm 2 N, Nat.mul_assoc, Nat.mul_comm 2]
    show ExtendedMantissa.shiftRightOne (ExtendedMantissa.mk (N <<< (k + 1)) false false >>> k) = _
    rw [shifted, ih]
    simp [ExtendedMantissa.shiftRightOne]

theorem log2_shiftLeft {N : Nat} (k : Nat) (h : N ≠ 0) : (N <<< k).log2 = N.log2 + k := by
  have low := Nat.log2_self_le h
  have high := Nat.lt_log2_self (n := N)
  rw [Nat.shiftLeft_eq, Nat.log2_eq_iff (Nat.mul_ne_zero h (Nat.pos_iff_ne_zero.mp (Nat.two_pow_pos k)))]
  constructor
  · rw [Nat.pow_add]
    exact Nat.mul_le_mul_right _ low
  · rw [Nat.add_right_comm, Nat.pow_add]
    exact Nat.mul_lt_mul_of_pos_right high (Nat.two_pow_pos k)

/-- Low zero bits move the mantissa and the exponent but not the value's leading digit. -/
theorem totalExponent_shiftLeft {N : Nat} (k : Nat) (E : Int) (h : N ≠ 0) :
    totalExponent (N <<< k) (E - k) = totalExponent N E := by
  simp only [totalExponent, log2_shiftLeft k h]
  omega

theorem shiftToTargetExponent_shiftLeft {spec : Format} {N : Nat} (k : Nat) {E : Int} (h : N ≠ 0)
    (above : E ≤ spec.targetExponent (totalExponent N E)) :
    shiftToTargetExponent spec (N <<< k) (E - k) .exact = shiftToTargetExponent spec N E .exact := by
  simp only [shiftToTargetExponent, shiftToExponent, totalExponent_shiftLeft k E h,
    ExtendedMantissa.ofMantissaAndAccuracy]
  generalize spec.targetExponent (totalExponent N E) = T at above
  have split : (T - (E - k)).toNat = (T - E).toNat + k := by omega
  rw [split, shiftRight_add, shiftRight_shiftLeft]
  congr 1
  omega

/-- Rounding a mantissa with zero bits shifted in at its bottom gives the same float, as long as
rounding shifts them out again. -/
theorem roundWithAccuracy_shiftLeft {spec : Format} (s : Sign) {N : Nat} (k : Nat) {E : Int} (h : N ≠ 0)
    (above : E ≤ spec.targetExponent (totalExponent N E)) :
    roundWithAccuracy spec s (N <<< k) (E - k) .exact = roundWithAccuracy spec s N E .exact := by
  unfold roundWithAccuracy
  rw [shiftToTargetExponent_shiftLeft k h above]

/-- Rounding is exact rounding of the mantissa shifted far enough left. -/
theorem round_eq_shiftLeft {spec : Format} (s : Sign) {N : Nat} {E : Int} (k : Nat) (h : N ≠ 0)
    (deep : E - k ≤ spec.targetExponent (totalExponent N E)) :
    UnpackedFloat.round spec s N E = roundWithAccuracy spec s (N <<< k) (E - k) .exact := by
  have start : (E - spec.targetExponent (totalExponent N E)).toNat ≤ k := by omega
  obtain ⟨d, rfl⟩ := Nat.exists_eq_add_of_le start
  -- `round` shifts left by the first part; the rest are zero bits that rounding drops again
  have shifted : N <<< ((E - spec.targetExponent (totalExponent N E)).toNat) ≠ 0 := by
    rw [Nat.shiftLeft_eq]
    exact Nat.mul_ne_zero h (Nat.pos_iff_ne_zero.mp (Nat.two_pow_pos _))
  have above := totalExponent_shiftLeft (E - spec.targetExponent (totalExponent N E)).toNat E h
  unfold UnpackedFloat.round decreaseExponent
  simp only
  rw [Nat.shiftLeft_add, show E - (((E - spec.targetExponent (totalExponent N E)).toNat + d : Nat) : Int) =
    E - ((E - spec.targetExponent (totalExponent N E)).toNat : Nat) - d by omega,
    roundWithAccuracy_shiftLeft s d shifted (by rw [above]; omega)]

/-- A finite float added to itself rounds twice its mantissa. -/
theorem add_finite_self (spec : Format) (s : Sign) (M : Nat) (E : Int) (pos : 0 < M) :
    UnpackedFloat.add spec (.finite s M E pos) (.finite s M E pos) = UnpackedFloat.round spec s (2 * M) E := by
  cases s
  · have below : compare (-(M : Int) + -M) 0 = .lt := Int.compare_eq_lt.mpr (by omega)
    simp only [UnpackedFloat.add, decreaseExponent, UnpackedFloat.normalize, Sign.apply, Int.min_self, Int.sub_self,
      Int.toNat_zero, Nat.shiftLeft_zero, below]
    congr 1
    omega
  · have above : compare ((M : Int) + M) 0 = .gt := Int.compare_eq_gt.mpr (by omega)
    simp only [UnpackedFloat.add, decreaseExponent, UnpackedFloat.normalize, Sign.apply, Int.min_self, Int.sub_self,
      Int.toNat_zero, Nat.shiftLeft_zero, above]
    congr 1
    omega

/-- Two in a format: the mantissa `2^m` at the exponent `1 - m`. -/
def two (spec : Format) : UnpackedFloat :=
  .finite .positive (2 ^ spec.mantissaBitsWithoutImplicit) (1 - spec.mantissaBitsWithoutImplicit)
    (Nat.two_pow_pos _)

/-- Adding a float to itself is multiplying it by two, in every format and for every value. -/
theorem add_self_eq_mul_two (spec : Format) (u : UnpackedFloat) :
    UnpackedFloat.add spec u u = UnpackedFloat.mul spec (two spec) u := by
  cases u with
  | notANumber => rfl
  | infinity s => cases s <;> rfl
  | zero s => cases s <;> rfl
  | finite s M E pos =>
    -- both sides round `2M · 2^E`: the sum as `2M` at `E`, the product as `2^m · M` at `E + 1 - m`
    have mbits := spec.hm
    have doubled : M <<< 1 = 2 * M := by rw [Nat.shiftLeft_eq, Nat.pow_one, Nat.mul_comm]
    have log : (2 * M).log2 = M.log2 + 1 := by rw [← doubled, log2_shiftLeft 1 (by omega)]
    have deep : E - ((spec.mantissaBitsWithoutImplicit - 1 : Nat) : Int) ≤
        spec.targetExponent (totalExponent (2 * M) E) := by
      simp only [Format.targetExponent, totalExponent, Format.mantissaBits, log]
      omega
    rw [add_finite_self, round_eq_shiftLeft s _ (by omega) deep]
    have sign : Sign.positive * s = s := by cases s <;> rfl
    have mantissa : (2 * M) <<< (spec.mantissaBitsWithoutImplicit - 1) = 2 ^ spec.mantissaBitsWithoutImplicit * M := by
      rw [Nat.shiftLeft_eq, ← doubled, Nat.shiftLeft_eq, Nat.mul_assoc, ← Nat.pow_add, Nat.mul_comm]
      congr 2
      omega
    have exponent : E - ((spec.mantissaBitsWithoutImplicit - 1 : Nat) : Int) = 1 - spec.mantissaBitsWithoutImplicit + E := by
      omega
    simp only [UnpackedFloat.mul, two, sign, mantissa, exponent]

theorem unpack_two : (2 : Float).toModel.unpack = two Format.binary64 := rfl

/-- Adding a double to itself is multiplying it by two, exactly: for every double, NaN, infinities,
zeros and the largest finite values (whose double overflows) included. -/
theorem add_self (x : Float) : x + x = 2 * x := by
  show Float.ofModel (Float.Model.pack (UnpackedFloat.add _ x.toModel.unpack x.toModel.unpack)) =
    Float.ofModel (Float.Model.pack (UnpackedFloat.mul _ (2 : Float).toModel.unpack x.toModel.unpack))
  rw [unpack_two, add_self_eq_mul_two]

end Milp.Num
