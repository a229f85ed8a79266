/-!
# Backoff

How long to wait before an attempt. Delays are signed words of 64 bits, in milliseconds: a negative
delay is a broken policy, which the policy's user refuses. Sums and products that leave the range
stop at its end.

A jittered policy draws its delay from a range around that of the policy inside. The draws are an
argument, so a delay is a function, and the least and the greatest delay are values of it.
-/

set_option autoImplicit false

namespace HealthWatch

/-- A rule for the delay before an attempt. -/
inductive Backoff where
  /-- The same delay every time. -/
  | fixed (delay : Int64)
  /-- Doubling from the base with every attempt, up to the cap. -/
  | exponential (base cap : Int64)
  /-- The inner delay give or take a share of it; the rate lies between zero and one. -/
  | jittered (inner : Backoff) (rate : Float)
deriving Repr, Inhabited

namespace Backoff

/-- The outcomes of random draws: for a layer of jitter and a number of outcomes, the one drawn.
It counts modulo the number of outcomes, so every function is a run of draws. -/
abbrev Draws := Nat → Nat → Nat

/-- A rate as it is used: within zero and one, and zero if it is no finite number. -/
def usableRate (rate : Float) : Float :=
  if rate.isFinite then
    if rate < 0.0 then 0.0 else if 1.0 < rate then 1.0 else rate
  else 0.0

/-- A policy whose delays vary by up to `rate` of themselves. -/
def withJitter (inner : Backoff) (rate : Float) : Backoff :=
  jittered inner (usableRate rate)

/-- A product that stops at the ends of the range. -/
def saturatingMul (a b : Int64) : Int64 :=
  Int64.ofIntClamp (a.toInt * b.toInt)

/-- A sum that stops at the ends of the range. -/
def saturatingAdd (a b : Int64) : Int64 :=
  Int64.ofIntClamp (a.toInt + b.toInt)

/-- A power of two that stops at the end of the range. -/
def saturatingPow2 (exponent : Nat) : Int64 :=
  if exponent < 63 then Int64.ofNat (Nat.pow 2 exponent) else Int64.maxValue

/-- A number as a word with a sign: rounded toward zero, and at the end of the range where it is
outside. What is no number counts as zero. -/
def wordOf (x : Float) : Int64 :=
  if x < 0.0 then Int64.ofIntClamp (-((-x).toUInt64.toNat : Int))
  else Int64.ofIntClamp x.toUInt64.toNat

/-- How far a delay above zero may move at a rate, rounded toward zero. -/
def spread (delay : Int64) (rate : Float) : Int64 :=
  wordOf (delay.toUInt64.toFloat * rate)

/-- The delay moved by a draw from `-s` to `s`, where `s` is the spread; never below zero.
A delay that is not positive, and one with no spread, stays as it is. -/
def jitter (delay : Int64) (rate : Float) (draw : Nat → Nat) : Int64 :=
  if delay ≤ 0 || rate == 0.0 then delay
  else
    let s := spread delay rate
    if s == 0 then delay
    else
      let outcomes := 2 * s.toInt.toNat + 1
      let offset := ((draw outcomes % outcomes : Nat) : Int) - s.toInt
      max (saturatingAdd delay (Int64.ofIntClamp offset)) 0

/-- The delay of the policies without jitter. Attempts count from one; before attempt zero there
is no delay. -/
def exponentialDelay (base cap : Int64) (attempt : Nat) : Int64 :=
  if attempt = 0 then 0 else min (saturatingMul base (saturatingPow2 (attempt - 1))) cap

/-- The delay before an attempt, in milliseconds. The outermost layer of jitter is layer zero. -/
def delayWith (draws : Draws) : Backoff → Nat → Int64
  | fixed delay, _ => delay
  | exponential base cap, attempt => exponentialDelay base cap attempt
  | jittered inner rate, attempt =>
    jitter (delayWith (fun layer => draws (layer + 1)) inner attempt) rate (draws 0)

/-- The least delay a run of draws can give. -/
def lowest (b : Backoff) (attempt : Nat) : Int64 :=
  b.delayWith (fun _ _ => 0) attempt

/-- The delay of a policy that draws nothing; of one that does, the least. -/
def delay (b : Backoff) (attempt : Nat) : Int64 :=
  b.lowest attempt

/-- One of a number of samples spread evenly over the outcomes of every draw: the middle of the
share of the outcomes that falls to it. -/
def sample (samples place : Nat) : Draws :=
  fun _ outcomes => (2 * place + 1) * outcomes / (2 * samples)

/-- Do the delays of forty samples before an attempt lie between two bounds? -/
def within (b : Backoff) (attempt : Nat) (low high : Int64) : Bool :=
  (List.range 40).all fun place =>
    let delay := b.delayWith (sample 40 place) attempt
    low ≤ delay && delay ≤ high

/-- The usual jitter of a retry interval. -/
def usualRate : Float := 0.2

/-- A fixed interval with the usual jitter. An interval too long for a delay becomes the longest. -/
def ofRetryInterval (millis : Nat) : Backoff :=
  withJitter (fixed (Int64.ofIntClamp millis)) usualRate

/-- The interval used when none is given: three seconds. -/
def usual : Backoff :=
  ofRetryInterval 3000

end Backoff

end HealthWatch
