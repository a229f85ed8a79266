import HealthWatch.Endpoint
import HealthWatch.Text.Blank

/-!
# Reading an authority

The text of an endpoint is a host in brackets with an optional port, a host with an optional port
after its only colon, or a text with two colons or more, which is a host as a whole. Blanks around
it do not count.
-/

set_option autoImplicit false

namespace HealthWatch

/-- Why a text is no authority. The text is the one read, without the blanks around it. -/
inductive AuthorityError where
  /-- Nothing stands where the host should. -/
  | empty
  /-- What stands after the host is no port. -/
  | invalidPort (text : String)
  /-- An opening bracket has no closing one. -/
  | unterminated (text : String)
deriving Repr, DecidableEq

namespace AuthorityError

/-- The wording of an error in an authority text. -/
def message : AuthorityError → String
  | empty => "endpoint authority is empty"
  | invalidPort text => "invalid port in '" ++ text ++ "'"
  | unterminated text => "unterminated IPv6 literal in '" ++ text ++ "'"

end AuthorityError

namespace Endpoint

/-- The value of a run of decimal digits. -/
def digitsValue (digits : List Char) : Nat :=
  digits.foldl (fun value digit => 10 * value + (digit.toNat - '0'.toNat)) 0

/-- A port: an optional plus sign and decimal digits, with a value of at most sixteen bits. -/
def readPort? (cs : List Char) : Option UInt16 :=
  let digits := match cs with
    | '+' :: rest => rest
    | _ => cs
  if !digits.isEmpty && digits.all Char.isDigit && digitsValue digits < 65536 then
    some (UInt16.ofNat (digitsValue digits))
  else none

/-- The text up to the first `mark` and the text behind it. -/
def cutAt? (mark : Char) (cs : List Char) : Option (List Char × List Char) :=
  match cs.dropWhile (· != mark) with
  | [] => none
  | _ :: rest => some (cs.takeWhile (· != mark), rest)

/-- Reads an authority that has no blanks around it. -/
def ofTrimmed (cs : List Char) : Except AuthorityError Endpoint :=
  let text := String.ofList cs
  let withPort (host port : List Char) : Except AuthorityError Endpoint :=
    match readPort? port with
    | some p => .ok ⟨String.ofList host, some p⟩
    | none => .error (.invalidPort text)
  match cs with
  | [] => .error .empty
  | '[' :: rest =>
    match cutAt? ']' rest with
    | none => .error (.unterminated text)
    | some ([], _) => .error .empty
    | some (host, []) => .ok ⟨String.ofList host, none⟩
    | some (host, ':' :: port) => withPort host port
    | some (_, _) => .error (.invalidPort text)
  | _ =>
    match cs.count ':' with
    | 1 =>
      match cutAt? ':' cs with
      | some ([], _) => .error .empty
      | some (host, port) => withPort host port
      | none => .ok ⟨text, none⟩
    | _ => .ok ⟨text, none⟩

/-- Reads an authority text, whatever blanks are around it. -/
def parse (text : String) : Except AuthorityError Endpoint :=
  ofTrimmed (Text.trimBlanks text.toList)

end Endpoint

end HealthWatch
