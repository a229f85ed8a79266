import HealthWatch.Proofs.Backoff.Doubling
import HealthWatch.Proofs.Settings.Refusals
import Mathlib

/-!
# The interval between checks

An interval is judged as a duration, to the nanosecond, and waited for in whole milliseconds. An
interval that is no problem is longer than nothing, and where there is no jitter the wait between
two checks is the interval rounded down: so there is a wait just if the interval comes to a
millisecond (`accepted_settings_wait_iff`).
-/

set_option autoImplicit false

namespace HealthWatch

namespace Backoff

/-- A number of milliseconds as a delay. -/
theorem toInt_ofIntClamp_natCast (millis : Nat) :
    (Int64.ofIntClamp millis).toInt = (min millis (2 ^ 63 - 1) : Nat) := by
  rw [toInt_ofIntClamp]
  omega

/-- Without jitter, be the zero written with a sign or not, the delay is that of the policy
inside. -/
theorem delayWith_withJitter_zero {rate : Float} (h : rate = 0.0 ∨ rate = -0.0) (inner : Backoff)
    (draws : Draws) (attempt : Nat) :
    (withJitter inner rate).delayWith draws attempt =
      inner.delayWith (fun layer => draws (layer + 1)) attempt := by
  have hrate : (usableRate rate == 0.0) = true := by
    rcases h with rfl | rfl <;> decide
  rw [withJitter, delayWith, jitter, hrate, Bool.or_true, if_pos rfl]

end Backoff

namespace CheckSettings

variable {s : CheckSettings}

/-- Without jitter, every wait is the interval in whole milliseconds, or the longest there is. -/
theorem toInt_delayWith_backoff (h : s.jitter = 0.0 ∨ s.jitter = -0.0) (draws : Backoff.Draws)
    (attempt : Nat) :
    (s.backoff.delayWith draws attempt).toInt =
      (min s.retryInterval.millis (2 ^ 63 - 1) : Nat) := by
  rw [backoff, Backoff.delayWith_withJitter_zero h]
  exact Backoff.toInt_ofIntClamp_natCast _

end CheckSettings

/-- A first delay that is a number of milliseconds is the wait before the next check. -/
theorem Supervisor.nextDelay_of_toInt_eq {σ : Type} {s : Supervisor σ} {w : Watch} {millis : Nat}
    (h : (s.terms.backoff.delay 1).toInt = millis) : s.nextDelay w = .ok millis := by
  have hpositive : ¬ s.terms.backoff.delay 1 < 0 := by
    rw [Int64.lt_iff_toInt_lt, h, show (0 : Int64).toInt = 0 from rfl]
    omega
  rw [nextDelay, Watch.waitFor, if_neg hpositive, h, Int.toNat_natCast]

namespace Settings

variable {s : Settings}

/-- Settings without a problem have an interval longer than nothing. -/
theorem retryInterval_of_problems_eq_nil (h : s.problems = []) :
    s.check.retryInterval.isZero = false := by
  simp only [problems, CheckSettings.problems, List.append_eq_nil_iff] at h
  obtain ⟨⟨-, ⟨⟨-, hinterval⟩, -⟩, -⟩, -⟩ := h
  cases hzero : s.check.retryInterval.isZero with
  | false => rfl
  | true => simp [hzero] at hinterval

/-- Settings without a problem and without jitter have an interval longer than nothing. They make
a supervisor that waits it in whole milliseconds before it checks an endpoint again, and the wait
before an attempt is positive just if the interval comes to a millisecond. -/
theorem accepted_settings_wait_iff (haccepted : s.problems = [])
    (hjitter : s.check.jitter = 0.0 ∨ s.check.jitter = -0.0)
    (greeting : List Endpoint → Endpoint → List Call) :
    s.check.retryInterval.isZero = false ∧
      ((∀ draws attempt, 1 ≤ s.check.backoff.delayWith draws attempt) ↔
        1 ≤ s.check.retryInterval.millis) ∧
      ∃ supervisor, s.build true greeting = .ok supervisor ∧
        ∀ w, supervisor.nextDelay w = .ok (min s.check.retryInterval.millis (2 ^ 63 - 1)) := by
  have hdelay := CheckSettings.toInt_delayWith_backoff hjitter
  refine ⟨retryInterval_of_problems_eq_nil haccepted, ?_, ?_⟩
  · simp only [Int64.le_iff_toInt_le, hdelay]
    rw [show (1 : Int64).toInt = 1 from rfl]
    constructor
    · intro h
      -- the first attempt tells the base already, whatever is drawn
      have hfirst := h (fun _ _ => 0) 1
      omega
    · intro h draws attempt
      omega
  · rw [build_eq, haccepted]
    refine ⟨_, rfl, fun w => ?_⟩
    exact Supervisor.nextDelay_of_toInt_eq (hdelay (fun _ _ => 0) 1)

/-- The interval is a millisecond and a half. -/
theorem accepted_settings_wait_a_millisecond :
    let s : Settings :=
      { check := { retryInterval := { nanos := 1500000 }, jitter := 0.0 }
        discovery := { endpoints := [{ host := "a", port := some 80 }] } }
    s.problems = [] ∧ (∀ draws attempt, 1 ≤ s.check.backoff.delayWith draws attempt) ∧
      ∃ supervisor, s.build true (fun _ _ => []) = .ok supervisor ∧
        ∀ w, supervisor.nextDelay w = .ok 1 := by
  intro s
  have haccepted : s.problems = [] := by decide +kernel
  have hmillis : min s.check.retryInterval.millis (2 ^ 63 - 1) = 1 := by decide
  obtain ⟨-, hwaits, hbuilt⟩ := accepted_settings_wait_iff haccepted (.inl rfl) (fun _ _ => [])
  rw [hmillis] at hbuilt
  exact ⟨haccepted, hwaits.mpr (by decide), hbuilt⟩

/-- An interval just short of a millisecond is no problem, and the checks follow one another with
no wait. -/
theorem accepted_settings_do_not_wait :
    let s : Settings :=
      { check := { retryInterval := { nanos := 999999 }, jitter := 0.0 }
        discovery := { endpoints := [{ host := "a", port := some 80 }] } }
    s.problems = [] ∧ (∀ draws attempt, s.check.backoff.delayWith draws attempt = 0) ∧
      ∃ supervisor, s.build true (fun _ _ => []) = .ok supervisor ∧
        ∀ w, supervisor.nextDelay w = .ok 0 := by
  intro s
  have haccepted : s.problems = [] := by decide +kernel
  have hmillis : min s.check.retryInterval.millis (2 ^ 63 - 1) = 0 := by decide
  have hjitter : s.check.jitter = 0.0 ∨ s.check.jitter = -0.0 := .inl rfl
  have hdelay := CheckSettings.toInt_delayWith_backoff hjitter
  rw [hmillis] at hdelay
  refine ⟨haccepted, fun draws attempt => Int64.toInt_inj.mp (hdelay draws attempt), ?_⟩
  rw [build_eq, haccepted]
  exact ⟨_, rfl, fun w => Supervisor.nextDelay_of_toInt_eq (hdelay (fun _ _ => 0) 1)⟩

end Settings

end HealthWatch
