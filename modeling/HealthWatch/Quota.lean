import HealthWatch.Decimal.Shortest

/-!
# Quotas

How many of the candidates are checked at once: a fixed number, or a share of them. A quota never
allows more than there are candidates.
-/

set_option autoImplicit false

namespace HealthWatch

/-- A bound on the number of endpoints checked at once. -/
inductive Quota where
  | count (limit : Nat)
  | ratio (share : Float)
deriving Repr, Inhabited

/-- Why a number is no quota. -/
inductive QuotaError where
  | zeroCount
  | invalidRatio (share : Float)
deriving Repr

namespace QuotaError

/-- The wording of an error in a quota. -/
def message : QuotaError → String
  | zeroCount => "max endpoint count must be greater than 0"
  | invalidRatio share => "max endpoint ratio must be in (0, 1], got " ++ Decimal.plainText share

end QuotaError

namespace Quota

/-- A number of endpoints, which must not be zero. -/
def ofCount (limit : Nat) : Except QuotaError Quota :=
  if limit = 0 then .error .zeroCount else .ok (count limit)

/-- Is the share above zero and at most one? -/
def validShare (share : Float) : Bool :=
  0.0 < share && share ≤ 1.0

/-- A share of the candidates, which must be above zero and at most one. -/
def ofRatio (share : Float) : Except QuotaError Quota :=
  if validShare share then .ok (ratio share) else .error (.invalidRatio share)

/-- A number rounded up to a whole one. What is below zero, or no number at all, comes to zero. -/
def roundUp (x : Float) : Nat :=
  let whole := x.toUInt64
  if whole.toFloat < x then whole.toNat + 1 else whole.toNat

/-- The number of endpoints that a share of `candidates` comes to, rounded up. -/
def shareOf (share : Float) (candidates : Nat) : Nat :=
  roundUp ((UInt64.ofNat candidates).toFloat * share)

/-- How many of `candidates` endpoints may be checked at once. -/
def maxFor (q : Quota) (candidates : Nat) : Nat :=
  match q with
  | count limit => min limit candidates
  | ratio share => min (shareOf share candidates) candidates

/-- A quota allows no more endpoints than there are. -/
theorem maxFor_le (q : Quota) (candidates : Nat) : q.maxFor candidates ≤ candidates := by
  cases q <;> exact Nat.min_le_right _ _

end Quota

end HealthWatch
