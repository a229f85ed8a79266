import HealthWatch.Data
import HealthWatch.Data.Json

/-!
# What plain scalars of YAML stand for

A plain scalar may stand for nothing, a truth value or a number; any other is a text. Whole numbers
are decimal, or have one of three bases by prefix. Digits behind a leading zero make a text, not a
number.
-/

set_option autoImplicit false

namespace HealthWatch.Yaml

/-! ## Words -/

/-- Does the word stand for nothing? -/
def isNullWord (text : String) : Bool :=
  text == "null" || text == "Null" || text == "NULL" || text == "~"

/-- The truth value of a word. -/
def boolOfWord? (text : String) : Option Bool :=
  if text == "true" || text == "True" || text == "TRUE" then some true
  else if text == "false" || text == "False" || text == "FALSE" then some false
  else none

/-! ## Whole numbers -/

/-- The number that digits of a base spell. -/
def digitsNumber? (base : Nat) (cs : List Char) : Option Nat :=
  if cs.isEmpty then none
  else
    cs.foldlM (fun value c => do
      let digit ← Json.hexValue? c
      if digit < base then some (base * value + digit) else none) 0

/-- The number written without a sign, with a prefix for its base or in decimal. -/
def baseNumber? : List Char → Option Nat
  | '0' :: 'x' :: rest => digitsNumber? 16 rest
  | '0' :: 'o' :: rest => digitsNumber? 8 rest
  | '0' :: 'b' :: rest => digitsNumber? 2 rest
  | cs => digitsNumber? 10 cs

/-- A text less one sign in front. -/
def withoutSign : List Char → List Char
  | '+' :: rest | '-' :: rest => rest
  | cs => cs

/-- Digits behind a leading zero, perhaps with a sign in front. -/
def isZeroPadded (cs : List Char) : Bool :=
  match withoutSign cs with
  | '0' :: c :: rest => (c :: rest).all Char.isDigit
  | _ => false

/-- The number without a sign, or with a plus sign, that a text stands for. -/
def unsigned? (cs : List Char) : Option Nat :=
  if isZeroPadded cs then none
  else match cs with
    | '+' :: rest => baseNumber? rest
    | _ => baseNumber? cs

/-- The magnitude of the negative number that a text stands for. -/
def negative? (cs : List Char) : Option Nat :=
  if isZeroPadded cs then none
  else match cs with
    | '-' :: rest => baseNumber? rest
    | _ => none

/-! ## Real numbers -/

/-- Digits, a point and an exponent: the digits as one number and the power of ten. -/
def decimalNumber? (cs : List Char) : Option (Nat × Int) := do
  let whole := cs.takeWhile Char.isDigit
  let rest := cs.dropWhile Char.isDigit
  let (fraction, rest) := match rest with
    | '.' :: rest => (rest.takeWhile Char.isDigit, rest.dropWhile Char.isDigit)
    | _ => ([], rest)
  let digits := whole ++ fraction
  let mantissa ← digitsNumber? 10 digits
  let exponent ← match rest with
    | [] => some 0
    | e :: rest =>
      if e != 'e' && e != 'E' then none
      else do
        let size ← digitsNumber? 10 (withoutSign rest)
        some (if rest.head? == some '-' then -(size : Int) else size)
  some (mantissa, exponent - fraction.length)

/-- The double nearest to `mantissa · 10 ^ exponent`. Numbers far outside of the range of doubles
need not be computed. -/
def nearestDouble (mantissa : Nat) (exponent : Int) : Float :=
  let magnitude : Int := (Nat.toDigits 10 mantissa).length + exponent
  if mantissa = 0 || magnitude < -400 then 0.0
  else if 400 < magnitude then 1.0 / 0.0
  else if 0 ≤ exponent then Float.ofScientific mantissa false exponent.toNat
  else Float.ofScientific mantissa true (-exponent).toNat

/-- The finite double that a text without a plus sign stands for. -/
def finite? (cs : List Char) : Option Float := do
  let (minus, cs) := match cs with
    | '-' :: rest => (true, rest)
    | _ => (false, cs)
  let (mantissa, exponent) ← decimalNumber? cs
  let size := nearestDouble mantissa exponent
  if size.isFinite then some (if minus then -size else size) else none

/-- The real number that a text stands for. -/
def real? (text : String) : Option Float :=
  let cs := text.toList
  let infinity := [".inf", ".Inf", ".INF"]
  let unplussed := match cs with
    | '+' :: rest => rest
    | _ => cs
  if infinity.contains (String.ofList unplussed) then some (1.0 / 0.0)
  else if infinity.any (fun word => "-" ++ word == text) then some (-1.0 / 0.0)
  else if [".nan", ".NaN", ".NAN"].contains text then some (0.0 / 0.0)
  else if cs.head? == some '+' && (unplussed.head? == some '-' || unplussed.head? == some '+') then
    none
  else finite? unplussed

/-! ## Any value -/

/-- The whole number that a text stands for, whatever its size. -/
def whole? (text : String) : Option Int :=
  match unsigned? text.toList with
  | some n => some n
  | none => (negative? text.toList).map (fun n => -(n : Int))

/-- Does a word of 64 bits hold the number, with a sign if it is negative? -/
def fitsWord (n : Int) : Bool :=
  Int64.minValue.toInt ≤ n && n < UInt64.size

/-- Do two words hold the number, with a sign if it is negative? -/
def fitsTwoWords (n : Int) : Bool :=
  -(Nat.pow 2 127 : Nat) ≤ n && n < (Nat.pow 2 128 : Nat)

/-- What a plain scalar stands for. A whole number that takes two words has no value; a longer one
is a real number. -/
def plainValue? (text : String) : Option Data :=
  if text.isEmpty || isNullWord text then some .null
  else match boolOfWord? text with
    | some value => some (.bool value)
    | none =>
      match (whole? text).filter fitsTwoWords with
      | some n => if fitsWord n then some (.whole n) else none
      | none =>
        if isZeroPadded text.toList then some (.text text)
        else match real? text with
          | some x => some (.real x)
          | none => some (.text text)

end HealthWatch.Yaml
