import HealthWatch.Proofs.Backoff.Doubling
import Mathlib

/-!
# Signs of real numbers

What is needed of the arithmetic of real numbers to know on which side of zero a spread lies:
neither rounding nor packing turns the sign of a number, so a product of two numbers is not below
zero if neither of them is. The word of such a number is not below zero either
(`toInt_spread_nonneg`).
-/

set_option autoImplicit false

namespace HealthWatch.Backoff

open Float.Model Float.Model.UnpackedFloat

/-- Is a number below zero? Neither zero is, whatever its sign, nor what is no number. -/
def belowZero : UnpackedFloat → Bool
  | .infinity .negative | .finite .negative _ _ _ => true
  | _ => false

/-- To compare a number with zero is to look at its sign, once it is unpacked. -/
theorem lt_zero_iff (x : Float) : x < 0.0 ↔ belowZero x.toModel.unpack = true := by
  have hzero : (0.0 : Float).toModel.unpack = .zero .positive := rfl
  show decide ((x.toModel.unpack.compare (0.0 : Float).toModel.unpack == some .lt) = true) = true ↔
    _
  rw [hzero, decide_eq_true_iff]
  cases x.toModel.unpack with
  | notANumber => simp [UnpackedFloat.compare, belowZero]
  | infinity sign => cases sign <;> simp [UnpackedFloat.compare, belowZero]
  | zero sign => simp [UnpackedFloat.compare, belowZero]
  | finite sign mantissa exponent hpos => cases sign <;> simp [UnpackedFloat.compare, belowZero]

/-! ## Packing -/

/-- Whatever is packed with a positive sign is read as a number that is not below zero. -/
theorem belowZero_unpack_packComponents (exponent : BitVec Format.binary64.exponentBits)
    (mantissa : BitVec Format.binary64.mantissaBitsWithoutImplicit) :
    belowZero (UnpackedFloat.unpack Format.binary64
      (packComponents Format.binary64 .positive exponent mantissa)) = false := by
  unfold UnpackedFloat.unpack
  simp only [unpackSign_packComponents, Sign.ofBitVec_toBitVec]
  split
  · split <;> rfl
  · split
    · split <;> rfl
    · rfl

/-- A number that is not below zero is not packed as one that is. -/
theorem belowZero_unpack_pack {f : UnpackedFloat} (h : belowZero f = false) :
    belowZero (Float.Model.pack f).unpack = false := by
  show belowZero (UnpackedFloat.unpack Format.binary64 (UnpackedFloat.pack Format.binary64 f)) =
    false
  cases f with
  | notANumber =>
    rw [UnpackedFloat.pack, unpack_packedNaN]
    rfl
  | infinity sign =>
    cases sign with
    | positive => exact belowZero_unpack_packComponents _ _
    | negative => cases h
  | zero sign =>
    rw [UnpackedFloat.pack, unpack_packedZero]
    rfl
  | finite sign mantissa exponent hpos =>
    cases sign with
    | positive =>
      unfold UnpackedFloat.pack
      dsimp only
      split
      · exact belowZero_unpack_packComponents _ _
      · split <;> exact belowZero_unpack_packComponents _ _
    | negative => cases h

/-! ## Rounding and multiplying -/

/-- Rounding does not bring a positive number below zero. -/
theorem belowZero_roundWithAccuracy (mantissa : Nat) (exponent : Int) (accuracy : Accuracy) :
    belowZero (roundWithAccuracy Format.binary64 .positive mantissa exponent accuracy) = false := by
  unfold roundWithAccuracy
  dsimp only
  split <;> rfl

/-- A product before packing is not below zero if neither factor is: each factor that can be
multiplied is positive or a zero. -/
theorem belowZero_mul {f g : UnpackedFloat} (hf : belowZero f = false) (hg : belowZero g = false) :
    belowZero (UnpackedFloat.mul Format.binary64 f g) = false := by
  cases f with
  | notANumber => rfl
  | zero sign => cases g <;> rfl
  | infinity sign =>
    cases sign with
    | negative => cases hf
    | positive =>
      cases g with
      | notANumber => rfl
      | zero other => rfl
      | infinity other => cases other with
        | positive => rfl
        | negative => cases hg
      | finite other mantissa exponent hpos => cases other with
        | positive => rfl
        | negative => cases hg
  | finite sign mantissa exponent hpos =>
    cases sign with
    | negative => cases hf
    | positive =>
      cases g with
      | notANumber => rfl
      | zero other => rfl
      | infinity other => cases other with
        | positive => rfl
        | negative => cases hg
      | finite other mantissa exponent hpos => cases other with
        | positive => exact belowZero_roundWithAccuracy _ _ _
        | negative => cases hg

/-- A product of two numbers is not below zero if neither of them is. -/
theorem mul_not_lt_zero {x y : Float} (hx : ¬x < 0.0) (hy : ¬y < 0.0) : ¬x * y < 0.0 := by
  rw [lt_zero_iff, Bool.not_eq_true] at *
  exact belowZero_unpack_pack (belowZero_mul hx hy)

/-- A word without a sign becomes a number that is not below zero. -/
theorem toFloat_not_lt_zero (n : UInt64) : ¬n.toFloat < 0.0 := by
  rw [lt_zero_iff, Bool.not_eq_true]
  apply belowZero_unpack_pack
  show belowZero (UnpackedFloat.normalize Format.binary64 (n.toNat : Int) 0 .positive) = false
  unfold UnpackedFloat.normalize
  split
  · rename_i hbelow
    rw [Int.compare_eq_lt] at hbelow
    omega
  · rfl
  · exact belowZero_roundWithAccuracy _ _ _

/-! ## Rates and spreads -/

/-- The rate that a layer works with is not below zero, whatever rate it was given. -/
theorem usableRate_not_lt_zero (rate : Float) : ¬usableRate rate < 0.0 := by
  have hzero : ¬(0.0 : Float) < 0.0 := by decide
  unfold usableRate
  split
  · split
    · exact hzero
    · rename_i hrate
      split
      · decide
      · exact hrate
  · exact hzero

/-- A number that is not below zero gives a word that is not below zero. -/
theorem toInt_wordOf_nonneg {x : Float} (hx : ¬x < 0.0) : 0 ≤ (wordOf x).toInt := by
  rw [wordOf, if_neg hx, toInt_ofIntClamp]
  omega

/-- A delay spreads by no less than nothing. -/
theorem toInt_spread_nonneg (delay : Int64) (rate : Float) :
    0 ≤ (spread delay (usableRate rate)).toInt :=
  toInt_wordOf_nonneg (mul_not_lt_zero (toFloat_not_lt_zero _) (usableRate_not_lt_zero rate))

end HealthWatch.Backoff
