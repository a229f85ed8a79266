/-!
# Durations

A span of time to the nanosecond: whole seconds in a word of 64 bits, and less than a second of
nanoseconds.
-/

set_option autoImplicit false

namespace HealthWatch

/-- A span of time. -/
structure Duration where
  seconds : UInt64 := 0
  nanos : Fin 1000000000 := 0
deriving Repr, DecidableEq, Inhabited

namespace Duration

/-- The duration of no time. -/
def zero : Duration :=
  {}

/-- Whole seconds. -/
def ofSeconds (seconds : UInt64) : Duration :=
  { seconds := seconds }

/-- Seconds and nanoseconds, of which full seconds are carried over. -/
def ofParts? (seconds nanos : Nat) : Option Duration :=
  let whole := seconds + nanos / 1000000000
  if whole < UInt64.size then
    some
      { seconds := UInt64.ofNat whole
        nanos := ⟨nanos % 1000000000, Nat.mod_lt _ (by decide)⟩ }
  else none

/-- No time at all. -/
def isZero (d : Duration) : Bool :=
  d.seconds == 0 && d.nanos.val == 0

/-- A duration counts as zero just if it is the zero duration. -/
theorem isZero_iff_eq_zero {d : Duration} : d.isZero = true ↔ d = zero := by
  rw [isZero, Bool.and_eq_true, beq_iff_eq, beq_iff_eq]
  constructor
  · obtain ⟨seconds, nanos⟩ := d
    rintro ⟨rfl, hnanos⟩
    obtain rfl : nanos = 0 := Fin.ext hnanos
    rfl
  · rintro rfl
    exact ⟨rfl, rfl⟩

/-- Whole milliseconds. -/
def millis (d : Duration) : Nat :=
  d.seconds.toNat * 1000 + d.nanos.val / 1000000

end Duration

end HealthWatch
