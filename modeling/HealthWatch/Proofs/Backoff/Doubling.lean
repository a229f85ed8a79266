import HealthWatch.Backoff
import Mathlib

/-!
# Doubling delays

A doubling policy computes in words of 64 bits with a sign: a power of two that stops at the end of
the range, a product that stops there as well, and the cap. What comes of it is the capped product
over the integers, at every attempt: where one of the two stops, the exact product is above every
cap (`doubling_delay_is_exact`).
-/

set_option autoImplicit false

namespace HealthWatch.Backoff

/-! ## Words and integers -/

/-- An integer out of the range of a word is moved to the nearer end of the range, and any other is
kept. -/
theorem toInt_ofIntClamp (i : Int) :
    (Int64.ofIntClamp i).toInt = max (-2 ^ 63) (min i (2 ^ 63 - 1)) := by
  have hleast : Int64.minValue.toInt = -2 ^ 63 := rfl
  have hgreatest : Int64.maxValue.toInt = 2 ^ 63 - 1 := rfl
  unfold Int64.ofIntClamp
  split
  · split
    · rw [Int64.toInt_ofIntLE]
      omega
    · omega
  · omega

/-- A product of words is the exact one, moved to the end of the range that it goes beyond. -/
theorem toInt_saturatingMul (a b : Int64) :
    (saturatingMul a b).toInt = max (-2 ^ 63) (min (a.toInt * b.toInt) (2 ^ 63 - 1)) :=
  toInt_ofIntClamp _

/-- The lesser of two words stands for the lesser of their integers. -/
theorem toInt_min (a b : Int64) : (min a b).toInt = min a.toInt b.toInt := by
  show (if a ≤ b then a else b).toInt = _
  split
  · rename_i h
    rw [min_eq_left (Int64.le_iff_toInt_le.mp h)]
  · rename_i h
    rw [Int64.le_iff_toInt_le] at h
    rw [min_eq_right (by omega)]

/-- The greater of two words stands for the greater of their integers. -/
theorem toInt_max (a b : Int64) : (max a b).toInt = max a.toInt b.toInt := by
  show (if a ≤ b then b else a).toInt = _
  split
  · rename_i h
    rw [max_eq_right (Int64.le_iff_toInt_le.mp h)]
  · rename_i h
    rw [Int64.le_iff_toInt_le] at h
    rw [max_eq_left (by omega)]

/-- A power of two is exact up to the greatest word, where it stays. -/
theorem toInt_saturatingPow2 (exponent : Nat) :
    (saturatingPow2 exponent).toInt = min (2 ^ exponent) (2 ^ 63 - 1) := by
  unfold saturatingPow2
  split
  · rename_i hsmall
    have hpow : (2 : Int) ^ exponent ≤ 2 ^ 62 := pow_le_pow_right₀ (by norm_num) (by omega)
    have hfits : 2 ^ exponent < 2 ^ 63 := Nat.pow_lt_pow_right (by norm_num) hsmall
    rw [Nat.pow_eq, Int64.toInt_ofNat_of_lt hfits, Nat.cast_pow, Nat.cast_ofNat]
    omega
  · rename_i hlarge
    have hpow : (2 : Int) ^ 63 ≤ 2 ^ exponent := pow_le_pow_right₀ (by norm_num) (by omega)
    rw [show Int64.maxValue.toInt = 2 ^ 63 - 1 from rfl]
    omega

/-! ## The delay -/

/-- A factor and a product that stop at the end of the range do not show behind a cap within it. -/
theorem min_stopped_mul {base factor cap : Int} (hbase : 0 ≤ base) (hfactor : 0 ≤ factor)
    (hcap : cap ≤ 2 ^ 63 - 1) :
    min (max (-2 ^ 63) (min (base * min factor (2 ^ 63 - 1)) (2 ^ 63 - 1))) cap =
      min (base * factor) cap := by
  rcases le_or_gt factor (2 ^ 63 - 1) with hfits | hstops
  · have hproduct : 0 ≤ base * factor := mul_nonneg hbase hfactor
    rw [min_eq_left hfits]
    omega
  · rw [min_eq_right hstops.le]
    obtain rfl | hpositive : base = 0 ∨ 1 ≤ base := by omega
    · simp
    · -- both products are above every cap
      have hstopped : 2 ^ 63 - 1 ≤ base * (2 ^ 63 - 1) :=
        le_mul_of_one_le_left (by norm_num) hpositive
      have hexact : factor ≤ base * factor := le_mul_of_one_le_left hfactor hpositive
      omega

/-- From the first attempt on, the words of a doubling policy stand for the capped product over the
integers. -/
theorem toInt_exponentialDelay {base : Int64} (hbase : 0 ≤ base) (cap : Int64) {attempt : Nat}
    (hattempt : 1 ≤ attempt) :
    (exponentialDelay base cap attempt).toInt =
      min (base.toInt * 2 ^ (attempt - 1)) cap.toInt := by
  have hcap := Int64.toInt_lt cap
  rw [exponentialDelay, if_neg (by omega), toInt_min, toInt_saturatingMul, toInt_saturatingPow2]
  exact min_stopped_mul (Int64.le_iff_toInt_le.mp hbase) (by positivity) (by omega)

/-- Before every attempt from the first on, the delay of a doubling policy is the base times a power
of two, or the cap if that is less, in exact numbers. It does not decrease from one attempt to a
later one, and is never above the cap. -/
theorem doubling_delay_is_exact {base : Int64} (hbase : 0 ≤ base) (cap : Int64) (draws : Draws) :
    (∀ attempt, 1 ≤ attempt → ((exponential base cap).delayWith draws attempt).toInt =
        min (base.toInt * 2 ^ (attempt - 1)) cap.toInt) ∧
      (∀ attempt later, 1 ≤ attempt → attempt ≤ later →
        (exponential base cap).delayWith draws attempt ≤
          (exponential base cap).delayWith draws later) ∧
      ∀ attempt, 1 ≤ attempt → (exponential base cap).delayWith draws attempt ≤ cap := by
  simp only [delayWith, Int64.le_iff_toInt_le]
  refine ⟨fun attempt => toInt_exponentialDelay hbase cap, ?_, ?_⟩
  · intro attempt later hattempt hlater
    rw [toInt_exponentialDelay hbase cap hattempt,
      toInt_exponentialDelay hbase cap (hattempt.trans hlater)]
    have hbase' : 0 ≤ base.toInt := Int64.le_iff_toInt_le.mp hbase
    have hpow : (2 : Int) ^ (attempt - 1) ≤ 2 ^ (later - 1) :=
      pow_le_pow_right₀ (by norm_num) (by omega)
    exact min_le_min_right _ (mul_le_mul_of_nonneg_left hpow hbase')
  · intro attempt hattempt
    rw [toInt_exponentialDelay hbase cap hattempt]
    exact min_le_right _ _

/-- The power of two stops at the last attempt, and so does the product. The odd number it stops at
shows nowhere. -/
theorem doubling_delay_at_the_last_attempts :
    let b := exponential 3 Int64.maxValue
    (0 : Int64) ≤ 3 ∧ b.delayWith (fun _ _ => 0) 62 = 6917529027641081856 ∧
      (b.delayWith (fun _ _ => 0) 63).toInt = min (3 * 2 ^ 62) (2 ^ 63 - 1) ∧
      b.delayWith (fun _ _ => 0) 63 ≤ b.delayWith (fun _ _ => 0) 4294967295 ∧
      b.delayWith (fun _ _ => 0) 4294967295 ≤ Int64.maxValue := by
  intro b
  have hbase : (0 : Int64) ≤ 3 := by decide
  obtain ⟨hexact, hgrows, hcapped⟩ := doubling_delay_is_exact hbase Int64.maxValue fun _ _ => 0
  refine ⟨hbase, ?_, hexact 63 (by norm_num), hgrows 63 4294967295 (by norm_num) (by norm_num),
    hcapped 4294967295 (by norm_num)⟩
  rw [← Int64.toInt_inj, hexact 62 (by norm_num)]
  decide

end HealthWatch.Backoff
