import HealthWatch.Data
import HealthWatch.Decimal.Shortest
import HealthWatch.Text.Quoted

/-!
# JSON text

Reading and writing structured data as JSON.

A number without a point and an exponent is whole if it fits a word of 64 bits. Any other number
is a double, found in a quick way: as many digits as fit a word make a whole number, which is then
multiplied with or divided by a power of ten, so the last bit can differ from that of the nearest
double.
-/

set_option autoImplicit false

namespace HealthWatch.Json

/-! ## Numbers -/

/-- The largest word of 64 bits. -/
def wordMax : Nat := UInt64.size - 1

/-- The value of a decimal digit. -/
def digitValue (c : Char) : Nat :=
  c.toNat - '0'.toNat

/-- Reads digits into a word as long as it holds them: the word, and the digits left over. -/
def takeDigits (word : Nat) : List Char → Nat × List Char
  | [] => (word, [])
  | c :: rest =>
    let next := 10 * word + digitValue c
    if next ≤ wordMax then takeDigits next rest else (word, c :: rest)

/-- The power of ten that is nearest to the exact one among real numbers. -/
def powerOfTen (exponent : Nat) : Float :=
  Float.ofScientific 1 false exponent

/-- `value · 10 ^ exponent`, by one product or quotient with a power of ten, or more where the
power is no double. There is none if the number is too large. -/
def scale (value : Float) (exponent : Int) : Nat → Option Float
  | 0 => some 0.0
  | fuel + 1 =>
    if exponent.natAbs ≤ 308 then
      if 0 ≤ exponent then
        let product := value * powerOfTen exponent.natAbs
        if product.isInf then none else some product
      else some (value / powerOfTen exponent.natAbs)
    else if value == 0.0 then some value
    else if 0 ≤ exponent then none
    else scale (value / 1e308) (exponent + 308) fuel

/-- The exponent behind an `e`: a sign and digits. -/
def readExponent (cs : List Char) : Option (Int × List Char) :=
  let (negative, cs) := match cs with
    | '-' :: rest => (true, rest)
    | '+' :: rest => (false, rest)
    | _ => (false, cs)
  let digits := cs.takeWhile Char.isDigit
  let value := digits.foldl (fun value c => min (10 * value + digitValue c) (Nat.pow 2 31)) 0
  if digits.isEmpty then none
  else some (if negative then -(value : Int) else value, cs.dropWhile Char.isDigit)

/-- Reads a number. -/
def readNumber (cs : List Char) : Option (Data × List Char) := do
  let (negative, cs) := match cs with
    | '-' :: rest => (true, rest)
    | _ => (false, cs)
  let digits := cs.takeWhile Char.isDigit
  let rest := cs.dropWhile Char.isDigit
  if digits.isEmpty || (digits.length != 1 && digits.head? == some '0') then none
  let (word, spare) := takeDigits 0 digits
  let (fraction, rest, pointed) := match rest with
    | '.' :: tail => (tail.takeWhile Char.isDigit, tail.dropWhile Char.isDigit, true)
    | _ => ([], rest, false)
  if pointed && fraction.isEmpty then none
  let (exponent, rest, raised) ← match rest with
    | 'e' :: tail | 'E' :: tail => (readExponent tail).map (fun (e, rest) => (e, rest, true))
    | _ => some (0, rest, false)
  if !pointed && !raised && spare.isEmpty && (!negative || (0 < word && word ≤ Nat.pow 2 63)) then
    some (.whole (if negative then -(word : Int) else word), rest)
  else
    let (word, ignored) := takeDigits word fraction
    let used : Int := (fraction.length : Int) - ignored.length
    let value ← scale (UInt64.ofNat word).toFloat (spare.length - used + exponent) 16
    some (.real (if negative then -value else value), rest)

/-! ## Texts -/

/-- The value of a hexadecimal digit. -/
def hexValue? (c : Char) : Option Nat :=
  if c.isDigit then some (c.toNat - '0'.toNat)
  else if 'a' ≤ c && c ≤ 'f' then some (c.toNat - 'a'.toNat + 10)
  else if 'A' ≤ c && c ≤ 'F' then some (c.toNat - 'A'.toNat + 10)
  else none

/-- Four hexadecimal digits. -/
def readHex4 : List Char → Option (Nat × List Char)
  | a :: b :: c :: d :: rest => do
    some (((← hexValue? a) * 16 + (← hexValue? b)) * 256 +
      ((← hexValue? c) * 16 + (← hexValue? d)), rest)
  | _ => none

/-- The character an escape stands for; a pair of surrogates stands for one character. -/
def readEscape : List Char → Option (Char × List Char)
  | '"' :: rest => some ('"', rest)
  | '\\' :: rest => some ('\\', rest)
  | '/' :: rest => some ('/', rest)
  | 'b' :: rest => some ('\x08', rest)
  | 'f' :: rest => some ('\x0c', rest)
  | 'n' :: rest => some ('\n', rest)
  | 'r' :: rest => some ('\r', rest)
  | 't' :: rest => some ('\t', rest)
  | 'u' :: rest => do
    let (unit, rest) ← readHex4 rest
    if 0xdc00 ≤ unit && unit ≤ 0xdfff then none
    else if 0xd800 ≤ unit && unit ≤ 0xdbff then
      match rest with
      | '\\' :: 'u' :: rest =>
        let (low, rest) ← readHex4 rest
        if 0xdc00 ≤ low && low ≤ 0xdfff then
          some (Char.ofNat (0x10000 + (unit - 0xd800) * 0x400 + (low - 0xdc00)), rest)
        else none
      | _ => none
    else some (Char.ofNat unit, rest)
  | _ => none

/-- Reads the rest of a text, up to its closing quote. The characters read so far come last
first. -/
def readText (done : List Char) (cs : List Char) : Nat → Option (String × List Char)
  | 0 => none
  | fuel + 1 =>
    match cs with
    | [] => none
    | '"' :: rest => some (String.ofList done.reverse, rest)
    | '\\' :: rest => do
      let (c, rest) ← readEscape rest
      readText (c :: done) rest fuel
    | c :: rest => if c.toNat < 0x20 then none else readText (c :: done) rest fuel

/-! ## Values -/

/-- Drops the blanks that may stand between parts. -/
def skipBlanks (cs : List Char) : List Char :=
  cs.dropWhile (fun c => c == ' ' || c == '\n' || c == '\t' || c == '\r')

mutual

/-- Reads a value of any kind, with a bound on the steps that this takes. -/
def readValue (cs : List Char) : Nat → Option (Data × List Char)
  | 0 => none
  | fuel + 1 =>
    match skipBlanks cs with
    | 'n' :: 'u' :: 'l' :: 'l' :: rest => some (.null, rest)
    | 't' :: 'r' :: 'u' :: 'e' :: rest => some (.bool true, rest)
    | 'f' :: 'a' :: 'l' :: 's' :: 'e' :: rest => some (.bool false, rest)
    | '"' :: rest => (readText [] rest fuel).map (fun (text, rest) => (.text text, rest))
    | '[' :: rest =>
      match skipBlanks rest with
      | ']' :: rest => some (.list [], rest)
      | _ => (readItems [] rest fuel).map (fun (items, rest) => (.list items, rest))
    | '{' :: rest =>
      match skipBlanks rest with
      | '}' :: rest => some (.record [], rest)
      | _ => (readMembers [] rest fuel).map (fun (members, rest) => (.record members, rest))
    | rest => readNumber rest

/-- Reads the items of a list up to its end, the ones read so far last first. -/
def readItems (done : List Data) (cs : List Char) : Nat → Option (List Data × List Char)
  | 0 => none
  | fuel + 1 => do
    let (item, rest) ← readValue cs fuel
    match skipBlanks rest with
    | ',' :: rest => readItems (item :: done) rest fuel
    | ']' :: rest => some ((item :: done).reverse, rest)
    | _ => none

/-- Reads the members of a record up to its end, the ones read so far last first. -/
def readMembers (done : List (String × Data)) (cs : List Char) :
    Nat → Option (List (String × Data) × List Char)
  | 0 => none
  | fuel + 1 =>
    match skipBlanks cs with
    | '"' :: rest => do
      let (name, rest) ← readText [] rest fuel
      match skipBlanks rest with
      | ':' :: rest =>
        let (value, rest) ← readValue rest fuel
        match skipBlanks rest with
        | ',' :: rest => readMembers ((name, value) :: done) rest fuel
        | '}' :: rest => some (((name, value) :: done).reverse, rest)
        | _ => none
      | _ => none
    | _ => none

end

/-- The value that a JSON text stands for. -/
def parse? (text : String) : Option Data :=
  let cs := text.toList
  match readValue cs (2 * cs.length + 2) with
  | some (value, rest) => if (skipBlanks rest).isEmpty then some value else none
  | none => none

/-! ## Writing -/

/-- The written form of a character inside quotes. -/
def writeChar (c : Char) : List Char :=
  if c = '"' then ['\\', '"']
  else if c = '\\' then ['\\', '\\']
  else if c = '\n' then ['\\', 'n']
  else if c = '\r' then ['\\', 'r']
  else if c = '\t' then ['\\', 't']
  else if c = '\x08' then ['\\', 'b']
  else if c = '\x0c' then ['\\', 'f']
  else if c.toNat < 0x20 then
    ['\\', 'u', '0', '0'] ++ (if c.toNat < 0x10 then ['0'] else []) ++ Text.hexDigits c.toNat
  else [c]

/-- A text in quotes, with the characters escaped that need it. -/
def writeText (text : String) : List Char :=
  '"' :: (text.toList.flatMap writeChar ++ ['"'])

mutual

/-- A value as JSON without blanks. -/
def write : Data → List Char
  | .null => ['n', 'u', 'l', 'l']
  | .bool true => ['t', 'r', 'u', 'e']
  | .bool false => ['f', 'a', 'l', 's', 'e']
  | .whole n => (toString n).toList
  | .real x => if x.isFinite then (Decimal.compactText x).toList else ['n', 'u', 'l', 'l']
  | .text text => writeText text
  | .list items => '[' :: writeItems items
  | .record members => '{' :: writeMembers members

/-- The items of a list with commas between them, and its end. -/
def writeItems : List Data → List Char
  | [] => [']']
  | [item] => write item ++ [']']
  | item :: rest => write item ++ ',' :: writeItems rest

/-- The members of a record with commas between them, and its end. -/
def writeMembers : List (String × Data) → List Char
  | [] => ['}']
  | [(name, value)] => writeText name ++ ':' :: (write value ++ ['}'])
  | (name, value) :: rest => writeText name ++ ':' :: (write value ++ ',' :: writeMembers rest)

end

/-- The text of a value. -/
def render (value : Data) : String :=
  String.ofList (write value)

end HealthWatch.Json
