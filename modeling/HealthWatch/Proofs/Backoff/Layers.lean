import HealthWatch.Proofs.Backoff.Signs
import HealthWatch.Supervisor

/-!
# Layers of jitter

A policy may be wrapped in any number of layers of jitter, each with its rate. The sign of the delay
is decided by the policy in the middle: a layer moves a delay above zero, though not below zero, and
leaves any other delay alone. Each layer computes in words and draws from a range; `delayWith?` does
so step by step, and fails where a word has no negation or a range is empty. It never does
(`jitter_keeps_the_sign`), whatever the rates and the draws.
-/

set_option autoImplicit false

namespace HealthWatch.Backoff

/-- The policies that can be made: one without jitter, and layers of jitter with any rates. -/
inductive Layered : Backoff → Prop where
  | fixed (delay : Int64) : Layered (fixed delay)
  | exponential (base cap : Int64) : Layered (exponential base cap)
  | withJitter {inner : Backoff} (h : Layered inner) (rate : Float) :
      Layered (inner.withJitter rate)

/-- The policy within all layers of jitter. -/
def innermost : Backoff → Backoff
  | jittered inner _ => inner.innermost
  | b => b

/-! ## One step after the other -/

/-- The negation of a word, if it has one. -/
def negated? (x : Int64) : Option Int64 :=
  if x = Int64.minValue then none else some (-x)

/-- A word drawn from the range between two words, both included, unless that is empty. -/
def drawn? (low high : Int64) (draw : Nat → Nat) : Option Int64 :=
  if low ≤ high then
    let outcomes := (high.toInt - low.toInt).toNat + 1
    some (Int64.ofIntClamp (low.toInt + (draw outcomes % outcomes : Nat)))
  else none

/-- A delay moved by a draw, with the steps that may fail. -/
def jitter? (delay : Int64) (rate : Float) (draw : Nat → Nat) : Option Int64 :=
  if delay ≤ 0 || rate == 0.0 then some delay
  else
    let s := spread delay rate
    if s == 0 then some delay
    else do
      let low ← negated? s
      let offset ← drawn? low s draw
      some (max (saturatingAdd delay offset) 0)

/-- The delay before an attempt, if no layer fails. -/
def delayWith? (draws : Draws) : Backoff → Nat → Option Int64
  | fixed delay, _ => some delay
  | exponential base cap, attempt => some (exponentialDelay base cap attempt)
  | jittered inner rate, attempt => do
    let delay ← delayWith? (fun layer => draws (layer + 1)) inner attempt
    jitter? delay rate (draws 0)

/-! ## One layer -/

/-- A layer leaves a delay alone that is not above zero. -/
theorem jitter_of_nonpos {delay : Int64} (h : delay ≤ 0) (rate : Float) (draw : Nat → Nat) :
    jitter delay rate draw = delay := by
  simp [jitter, h]

/-- No delay is moved below zero. -/
theorem jitter_nonneg {delay : Int64} (h : 0 ≤ delay) (rate : Float) (draw : Nat → Nat) :
    0 ≤ jitter delay rate draw := by
  unfold jitter
  dsimp only
  split
  · exact h
  · split
    · exact h
    · rw [Int64.le_iff_toInt_le, toInt_max]
      exact le_max_right _ _

/-- The range of a draw is that of the spread and its negation, which is a word, and not empty. -/
theorem drawn?_negated {s : Int64} (hs : 0 ≤ s.toInt) (draw : Nat → Nat) :
    (negated? s).bind (fun low => drawn? low s draw) =
      some (Int64.ofIntClamp
        (((draw (2 * s.toInt.toNat + 1) % (2 * s.toInt.toNat + 1) : Nat) : Int) - s.toInt)) := by
  have hbound := Int64.toInt_lt s
  have hmin : s ≠ Int64.minValue := by
    rintro rfl
    exact absurd hs (by decide)
  have hneg : (-s).toInt = -s.toInt := by
    rw [Int64.toInt_neg]
    exact Int.bmod_eq_of_le (by omega) (by omega)
  have hrange : -s ≤ s := by
    rw [Int64.le_iff_toInt_le, hneg]
    omega
  have houtcomes : (s.toInt - -s.toInt).toNat + 1 = 2 * s.toInt.toNat + 1 := by omega
  rw [negated?, if_neg hmin, Option.bind_some, drawn?, if_pos hrange, hneg, houtcomes]
  exact congrArg (fun offset => some (Int64.ofIntClamp offset)) (neg_add_eq_sub _ _)

/-- A layer with a rate that can be used does not fail. -/
theorem jitter?_eq_some (delay : Int64) (rate : Float) (draw : Nat → Nat) :
    jitter? delay (usableRate rate) draw = some (jitter delay (usableRate rate) draw) := by
  have hdrawn := drawn?_negated (toInt_spread_nonneg delay rate) draw
  unfold jitter? jitter
  split
  · rfl
  · dsimp only
    split
    · rfl
    · show ((negated? _).bind fun low => (drawn? low _ draw).bind fun offset => some _) = _
      rw [← Option.bind_assoc, hdrawn, Option.bind_some]

/-! ## All layers -/

namespace Layered

variable {b : Backoff}

/-- A delay in the middle that is not above zero comes through every layer as it is. -/
theorem delayWith_of_nonpos (h : b.Layered) {attempt : Nat} (hinner : b.innermost.delay attempt ≤ 0)
    (draws : Draws) : b.delayWith draws attempt = b.innermost.delay attempt := by
  induction h generalizing draws with
  | fixed delay => rfl
  | exponential base cap => rfl
  | @withJitter inner h rate ih =>
    have hsame := ih hinner fun layer => draws (layer + 1)
    show jitter (inner.delayWith _ attempt) _ _ = inner.innermost.delay attempt
    rw [hsame]
    exact jitter_of_nonpos hinner _ _

/-- A delay in the middle that is not below zero is moved below zero by no layer. -/
theorem delayWith_nonneg (h : b.Layered) {attempt : Nat} (hinner : 0 ≤ b.innermost.delay attempt)
    (draws : Draws) : 0 ≤ b.delayWith draws attempt := by
  induction h generalizing draws with
  | fixed delay => exact hinner
  | exponential base cap => exact hinner
  | withJitter h rate ih => exact jitter_nonneg (ih hinner _) _ _

/-- No layer fails. -/
theorem delayWith?_eq_some (h : b.Layered) (draws : Draws) (attempt : Nat) :
    b.delayWith? draws attempt = some (b.delayWith draws attempt) := by
  induction h generalizing draws with
  | fixed delay => rfl
  | exponential base cap => rfl
  | @withJitter inner h rate ih =>
    show (inner.delayWith? _ attempt).bind (fun delay => jitter? delay (usableRate rate) _) = _
    rw [ih, Option.bind_some, jitter?_eq_some]
    rfl

/-- The policy in the middle alone decides whether the delay is below zero. -/
theorem delayWith_neg_iff (h : b.Layered) (draws : Draws) (attempt : Nat) :
    b.delayWith draws attempt < 0 ↔ b.innermost.delay attempt < 0 := by
  constructor
  · intro hbelow
    by_contra hinner
    have hnonneg := h.delayWith_nonneg (Int64.not_lt.mp hinner) draws
    exact Int64.not_lt.mpr hnonneg hbelow
  · intro hinner
    rwa [h.delayWith_of_nonpos (Int64.le_of_lt hinner)]

end Layered

/-! ## Main statement -/

/-- With any layers, before any attempt and with any draws: no step of any layer fails, the delay is
below zero just if that of the innermost policy is, which it then equals, and a delay of zero stays
zero. A supervisor with this backoff therefore refuses to name the delay before the next check just
if the first delay of the innermost policy is below zero. -/
theorem jitter_keeps_the_sign {b : Backoff} (h : b.Layered) (draws : Draws) :
    (∀ attempt, b.delayWith? draws attempt = some (b.delayWith draws attempt) ∧
      (b.delayWith draws attempt < 0 ↔ b.innermost.delay attempt < 0) ∧
      (b.innermost.delay attempt < 0 →
        b.delayWith draws attempt = b.innermost.delay attempt) ∧
      (b.innermost.delay attempt = 0 → b.delayWith draws attempt = 0)) ∧
    ∀ (σ : Type) (s : Supervisor σ) (w : Watch), s.terms.backoff = b →
      ((∃ millis, s.nextDelayWith draws w = .error (.negativeDelay w.target millis)) ↔
        b.innermost.delay 1 < 0) ∧
      (¬b.innermost.delay 1 < 0 → ∃ millis, s.nextDelayWith draws w = .ok millis) := by
  constructor
  · intro attempt
    refine ⟨h.delayWith?_eq_some draws attempt, h.delayWith_neg_iff draws attempt, ?_, ?_⟩
    · intro hinner
      exact h.delayWith_of_nonpos (Int64.le_of_lt hinner) draws
    · intro hinner
      rw [h.delayWith_of_nonpos (by rw [hinner]; decide), hinner]
  · rintro σ s w rfl
    have hsign := h.delayWith_neg_iff draws 1
    rw [Supervisor.nextDelayWith, Watch.waitFor, ← hsign]
    split
    · rename_i hbelow
      exact ⟨iff_of_true ⟨_, rfl⟩ hbelow, fun hnot => absurd hbelow hnot⟩
    · rename_i hnot
      refine ⟨iff_of_false ?_ hnot, fun _ => ⟨_, rfl⟩⟩
      rintro ⟨millis, herror⟩
      cases herror

/-- A layer moves a delay of ten by five at most, and one above it by half of what is left. -/
example :
    (((fixed 10).withJitter 0.5).withJitter 0.5).delayWith? (fun _ _ => 0) 1 = some 3 := by
  decide +kernel

/-- Three layers, with rates that are infinite, above one and no number, leave a delay below zero
as it is. -/
theorem three_layers_keep_a_broken_delay :
    let b :=
      (((exponential (-5) 1000).withJitter (1.0 / 0.0)).withJitter 7.5).withJitter (0.0 / 0.0)
    let s := Supervisor.fresh { backoff := b } ()
    let w : Watch := { origin := { host := "a" }, target := { host := "a" } }
    let draws : Draws := fun layer outcomes => layer + outcomes / 2
    b.Layered ∧ b.innermost.delay 2 < 0 ∧ b.delayWith? draws 2 = some (-10) ∧
      b.delayWith draws 2 = -10 ∧
      ∃ millis, s.nextDelayWith draws w = .error (.negativeDelay w.target millis) := by
  intro b s w draws
  have hlayered : b.Layered :=
    (((Layered.exponential (-5) 1000).withJitter _).withJitter _).withJitter _
  obtain ⟨hattempts, hnext⟩ := jitter_keeps_the_sign hlayered draws
  obtain ⟨hsteps, -, hkept, -⟩ := hattempts 2
  have hinner : b.innermost.delay 2 = -10 := by decide
  have hdelay : b.delayWith draws 2 = -10 := (hkept (by rw [hinner]; decide)).trans hinner
  refine ⟨hlayered, by rw [hinner]; decide, hdelay ▸ hsteps, hdelay, ?_⟩
  exact (hnext Unit s w rfl).1.mpr (by decide)

end HealthWatch.Backoff
