import HealthWatch.Duration
import HealthWatch.Text.Blank
import HealthWatch.Text.Quoted

/-!
# Durations as text

A duration is written as a sum of numbers with units, the largest unit first: `1h 30m`. Reading
takes any sum, with blanks between and within numbers, a fraction where it comes to whole
nanoseconds (or, from an hour on, to whole seconds), and several names for each unit. A month and
a year have their mean lengths.

The reader looks at each character once. What it has read so far is its state, so the reader is a
recursion on the text.
-/

set_option autoImplicit false

namespace HealthWatch

/-- Why a text is no duration. Places are counted in bytes. -/
inductive DurationError where
  | empty
  | invalidCharacter (place : Nat)
  | numberExpected (place : Nat)
  /-- The unit is not known, or there is none behind the number. -/
  | unknownUnit (unit : String) (value : Nat)
  /-- A number is too large, or too fine. -/
  | outOfRange
  /-- The sum just fails to fit: its nanoseconds come to one second more than there can be. -/
  | lastCarry
deriving Repr, DecidableEq

namespace DurationError

/-- The wording of an error in the text of a duration. -/
def message : DurationError → String
  | empty => "value was empty"
  | invalidCharacter place => "invalid character at " ++ toString place
  | numberExpected place => "expected number at " ++ toString place
  | unknownUnit unit value =>
    if unit = "" then
      "time unit needed, for example " ++ toString value ++ "sec or " ++ toString value ++ "ms"
    else
      "unknown time unit " ++ Text.quoted unit ++ ", supported units: ns, us/µs, ms, sec, min, " ++
        "hours, days, weeks, months, years (and few variations)"
  | outOfRange =>
    "number is too large or cannot be represented without a lack of precision " ++
      "(values below 1ns are not supported)"
  | lastCarry => "overflow in Duration::new"

end DurationError

namespace Duration

/-! ## Units -/

/-- The units in which durations are written. -/
inductive Unit where
  | nanosecond
  | microsecond
  | millisecond
  | second
  | minute
  | hour
  | day
  | week
  | month
  | year
deriving Repr, DecidableEq

/-- The names of a unit, each of which a text may use. -/
def Unit.names : Unit → List String
  | nanosecond => ["nanos", "nsec", "ns"]
  | microsecond => ["usec", "us", "µs"]
  | millisecond => ["millis", "msec", "ms"]
  | second => ["seconds", "second", "secs", "sec", "s"]
  | minute => ["minutes", "minute", "min", "mins", "m"]
  | hour => ["hours", "hour", "hrs", "hr", "h"]
  | day => ["days", "day", "d"]
  | week => ["weeks", "week", "wks", "wk", "w"]
  | month => ["months", "month", "M"]
  | year => ["years", "year", "yrs", "yr", "y"]

/-- All units, the shortest first. -/
def Unit.all : List Unit :=
  [nanosecond, microsecond, millisecond, second, minute, hour, day, week, month, year]

/-- The unit with a name. -/
def Unit.ofName? (name : String) : Option Unit :=
  Unit.all.find? (fun unit => unit.names.contains name)

/-- The length of a unit below a second, in nanoseconds. -/
def Unit.nanos? : Unit → Option Nat
  | nanosecond => some 1
  | microsecond => some 1000
  | millisecond => some 1000000
  | _ => none

/-- The length of a unit in seconds; units below a second have none. -/
def Unit.seconds : Unit → Nat
  | second => 1
  | minute => 60
  | hour => 3600
  | day => 86400
  | week => 604800
  | month => 2630016
  | year => 31557600
  | _ => 0

/-! ## Reading -/

/-- A word of 64 bits, or the error that the number does not fit one. -/
def word (n : Nat) : Except DurationError Nat :=
  if n < UInt64.size then .ok n else .error .outOfRange

/-- A sum so far with seconds and nanoseconds added. -/
def plus (sum : Duration) (seconds nanos : Nat) : Except DurationError Duration := do
  let nanos ← word (sum.nanos.val + nanos)
  let carried := if 1000000000 < nanos then nanos / 1000000000 else 0
  let seconds ← word (sum.seconds.toNat + (← word (seconds + carried)))
  let rest := if 1000000000 < nanos then nanos % 1000000000 else nanos
  match ofParts? seconds rest with
  | some sum => .ok sum
  | none => .error .lastCarry

/-- The digits behind a point, as a fraction. -/
structure Fraction where
  numerator : Nat := 0
  denominator : Nat := 1
deriving Repr

/-- A fraction of a number of steps, which must come out even. -/
def Fraction.share (f : Fraction) (steps : Nat) : Except DurationError Nat := do
  let product ← word (f.numerator * steps)
  if product % f.denominator = 0 then .ok (product / f.denominator) else .error .outOfRange

/-- A sum so far with a number of units added. -/
def addUnits (sum : Duration) (value : Nat) (fraction : Option Fraction) (name : String) :
    Except DurationError Duration :=
  match Unit.ofName? name with
  | none => .error (.unknownUnit name value)
  | some unit => do
    let sum ← match unit.nanos? with
      | some length => plus sum 0 (← word (value * length))
      | none => plus sum (← word (value * unit.seconds)) 0
    match fraction with
    | none => .ok sum
    | some f =>
      match unit with
      | .nanosecond => .error .outOfRange
      | .microsecond | .millisecond => plus sum 0 (← f.share (unit.nanos?.getD 1))
      | .second | .minute => plus sum 0 (← f.share (unit.seconds * 1000000000))
      | _ => plus sum (← f.share unit.seconds) 0

/-- What the reader is in the middle of. -/
inductive Reading where
  /-- Looking for a number since a place; there is a sum once a unit was read. -/
  | seeking (sum : Option Duration) (since : Nat)
  | number (sum : Duration) (value : Nat)
  /-- Behind the point; a fault is placed at `place`. -/
  | fraction (sum : Duration) (value : Nat) (digits : Fraction) (place : Nat)
  /-- In a unit; its characters come last first. -/
  | unit (sum : Duration) (value : Nat) (digits : Option Fraction) (name : List Char)

/-- Letters that units are made of. -/
def isUnitChar (c : Char) : Bool :=
  c.isAlpha || c == 'µ'

/-- The value of a decimal digit. -/
def digitValue (c : Char) : Nat :=
  c.toNat - '0'.toNat

/-- Reads one character, which stands at a place. -/
def Reading.step (r : Reading) (c : Char) (place : Nat) : Except DurationError Reading :=
  let behind := place + c.utf8Size
  match r with
  | seeking sum since =>
    if c.isDigit then .ok (number (sum.getD zero) (digitValue c))
    else if Text.isBlank c then .ok (seeking sum since)
    else .error (.numberExpected since)
  | number sum value =>
    if c.isDigit then (word (10 * value + digitValue c)).map (number sum)
    else if Text.isBlank c then .ok r
    else if isUnitChar c then .ok (unit sum value none [c])
    else if c = '.' then .ok (fraction sum value {} place)
    else .error (.invalidCharacter place)
  | fraction sum value digits fault =>
    if c.isDigit then do
      let denominator ← word (10 * digits.denominator)
      let numerator ← word (10 * digits.numerator + digitValue c)
      .ok (fraction sum value ⟨numerator, denominator⟩ behind)
    else if Text.isBlank c then .ok (fraction sum value digits behind)
    else if isUnitChar c && digits.denominator != 1 then .ok (unit sum value (some digits) [c])
    else .error (.invalidCharacter fault)
  | unit sum value digits name =>
    if c.isDigit then
      (addUnits sum value digits (String.ofList name.reverse)).map (number · (digitValue c))
    else if Text.isBlank c then
      (addUnits sum value digits (String.ofList name.reverse)).map (seeking · behind)
    else if isUnitChar c then .ok (unit sum value digits (c :: name))
    else .error (.invalidCharacter place)

/-- What has been read when the text ends. -/
def Reading.finish : Reading → Except DurationError Duration
  | seeking none _ => .error .empty
  | seeking (some sum) _ => .ok sum
  | number sum value => addUnits sum value none ""
  | fraction sum value digits fault =>
    if digits.denominator = 1 then .error (.invalidCharacter fault)
    else addUnits sum value (some digits) ""
  | unit sum value digits name => addUnits sum value digits (String.ofList name.reverse)

/-- Reads on to the end of the text. -/
def Reading.run (r : Reading) : List Char → Nat → Except DurationError Duration
  | [], _ => r.finish
  | c :: rest, place => do
    let r ← r.step c place
    r.run rest (place + c.utf8Size)

/-- Reads a duration. A lone zero needs no unit. -/
def parse (text : String) : Except DurationError Duration :=
  if text = "0" then .ok zero else (Reading.seeking none 0).run text.toList 0

/-! ## Writing -/

/-- A number with a unit whose name takes an `s` in the plural; nothing for zero. -/
def pluralPart (value : Nat) (name : String) : List String :=
  if value = 0 then [] else if value = 1 then ["1" ++ name] else [toString value ++ name ++ "s"]

/-- A number with a short unit; nothing for zero. -/
def part (value : Nat) (name : String) : List String :=
  if value = 0 then [] else [toString value ++ name]

/-- The parts of a duration, the largest unit first. -/
def parts (d : Duration) : List String :=
  let seconds := d.seconds.toNat
  let inYear := seconds % 31557600
  let inMonth := inYear % 2630016
  let inDay := inMonth % 86400
  let nanos := d.nanos.val
  pluralPart (seconds / 31557600) "year" ++ pluralPart (inYear / 2630016) "month" ++
    pluralPart (inMonth / 86400) "day" ++ part (inDay / 3600) "h" ++ part (inDay % 3600 / 60) "m" ++
    part (inDay % 60) "s" ++ part (nanos / 1000000) "ms" ++ part (nanos / 1000 % 1000) "us" ++
    part (nanos % 1000) "ns"

/-- The text of a duration: its parts from the longest unit to the shortest. -/
def text (d : Duration) : String :=
  if d.isZero then "0s" else " ".intercalate d.parts

end Duration

end HealthWatch
