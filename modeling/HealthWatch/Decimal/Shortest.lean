/-!
# Shortest decimal of a float

A finite double stands for every real that rounds to it. Among the decimals in that interval the
shortest is the one with the fewest digits, and of those the nearest to the double. This module
finds it in exact natural arithmetic and lays its digits out in the two ways the library needs:
always positional, and positional in the middle range with an exponent outside.
-/

set_option autoImplicit false

namespace HealthWatch

/-- The number `digits · 10 ^ exponent`. -/
structure Decimal where
  digits : Nat
  exponent : Int
deriving Repr, DecidableEq

namespace Decimal

/-- A positive finite double as `mantissa · 2 ^ exponent`, from its bit pattern. -/
structure Binary where
  mantissa : Nat
  exponent : Int
  /-- The neighbour below is only half as far away as the one above. -/
  narrowBelow : Bool

/-- The magnitude of a double, decoded from the fields of its bit pattern. -/
def Binary.ofBits (bits : UInt64) : Binary :=
  let fraction := (bits &&& 0xfffffffffffff).toNat
  let biased := ((bits >>> 52) &&& 0x7ff).toNat
  if biased = 0 then ⟨fraction, -1074, false⟩
  else ⟨fraction + Nat.pow 2 52, (biased : Int) - 1075, fraction = 0 && 1 < biased⟩

/-- The interval of reals that round to a double, as three numerators over one denominator. -/
structure Interval where
  low : Nat
  middle : Nat
  high : Nat
  denominator : Nat
  /-- The ends round to the double too: it is the even one of its neighbours. -/
  closed : Bool

/-- The interval of a double: half a step to either side, a quarter below a power of two. -/
def Binary.interval (b : Binary) : Interval :=
  let below := if b.narrowBelow then 1 else 2
  let scale := b.exponent - 2
  let up := Nat.pow 2 scale.toNat
  { low := (4 * b.mantissa - below) * up
    middle := 4 * b.mantissa * up
    high := (4 * b.mantissa + 2) * up
    denominator := Nat.pow 2 (-scale).toNat
    closed := b.mantissa % 2 == 0 }

/-- Does the grid point `point · 10 ^ step` lie in the interval? -/
def Interval.contains (i : Interval) (point : Nat) (step : Int) : Bool :=
  let x := point * Nat.pow 10 step.toNat * i.denominator
  let y := Nat.pow 10 (-step).toNat
  if i.closed then i.low * y ≤ x && x ≤ i.high * y else i.low * y < x && x < i.high * y

/-- The grid of width `10 ^ step`: its point at or below the middle, if it or the next one lies in
the interval; the nearer one if both do, the lower one on a tie. -/
def Interval.gridPoint? (i : Interval) (step : Int) : Option Nat :=
  let x := i.middle * Nat.pow 10 (-step).toNat
  let unit := i.denominator * Nat.pow 10 step.toNat
  let floor := x / unit
  match i.contains floor step && floor != 0, i.contains (floor + 1) step with
  | true, true => some (if 2 * (x - floor * unit) ≤ unit then floor else floor + 1)
  | true, false => some floor
  | false, true => some (floor + 1)
  | false, false => none

/-- The number of decimal digits of a natural number. -/
def digitCount (n : Nat) : Nat :=
  (Nat.toDigits 10 n).length

/-- The exponent of the first power of ten above the middle of an interval, up to one. -/
def Interval.magnitude (i : Interval) : Int :=
  (digitCount i.middle : Int) - (digitCount i.denominator : Int) + 1

/-- The first grid that hits the interval, from `step` down to finer ones. -/
def Interval.search (i : Interval) (step : Int) : Nat → Decimal
  | 0 => ⟨i.middle / i.denominator, 0⟩
  | fuel + 1 =>
    match i.gridPoint? step with
    | some point => ⟨point, step⟩
    | none => i.search (step - 1) fuel

/-- The same number without zeros at the end of its digits. -/
def strip (d : Decimal) : Nat → Decimal
  | 0 => d
  | fuel + 1 =>
    if d.digits != 0 && d.digits % 10 == 0 then strip ⟨d.digits / 10, d.exponent + 1⟩ fuel else d

/-- The shortest decimal that rounds to the magnitude with these bits. -/
def ofBits (bits : UInt64) : Decimal :=
  let b := Binary.ofBits bits
  if b.mantissa = 0 then ⟨0, 0⟩
  else
    let i := b.interval
    (i.search i.magnitude 24).strip 400

/-- The digits of a decimal number. -/
def digitChars (d : Decimal) : List Char :=
  Nat.toDigits 10 d.digits

/-- All digits in their places, no exponent, no point in a whole number. -/
def positional (d : Decimal) : List Char :=
  let digits := d.digitChars
  if 0 ≤ d.exponent then
    if d.digits = 0 then digits else digits ++ List.replicate d.exponent.toNat '0'
  else
    let places := (-d.exponent).toNat
    let padded := List.replicate (places + 1 - digits.length) '0' ++ digits
    padded.take (padded.length - places) ++ '.' :: padded.drop (padded.length - places)

/-- Positional with at least one place behind the point as long as the point stands among the
first sixteen digits and at most four zeros follow it; otherwise one digit, the others behind a
point, and the exponent. -/
def compact (d : Decimal) : List Char :=
  let digits := d.digitChars
  let point := (digits.length : Int) + d.exponent
  if d.digits = 0 then ['0', '.', '0']
  else if 0 ≤ d.exponent && point ≤ 16 then d.positional ++ ['.', '0']
  else if -5 < point && point ≤ 16 then d.positional
  else
    let fraction := digits.drop 1
    digits.take 1 ++ (if fraction.isEmpty then [] else '.' :: fraction) ++
      'e' :: (toString (point - 1)).toList

/-- A double with its sign, its magnitude laid out by `layout`; the three values that are no
numbers have names. -/
def textOf (layout : Decimal → List Char) (x : Float) : String :=
  if x.isNaN then "NaN"
  else
    let sign := if x.toBits >>> 63 == 1 then ['-'] else []
    String.ofList (sign ++ if x.isInf then ['i', 'n', 'f'] else layout (ofBits x.toBits))

/-- The shortest digits in their places: `0.5`, `1`, `-0`, `1000000000000000000000`. -/
def plainText (x : Float) : String :=
  textOf positional x

/-- The shortest digits with a point or an exponent: `0.5`, `1.0`, `-0.0`, `1e21`. -/
def compactText (x : Float) : String :=
  textOf compact x

end Decimal

end HealthWatch
