import HealthWatch.Data
import HealthWatch.Decimal.Shortest
import HealthWatch.Duration.Text
import HealthWatch.Endpoint.Authority

/-!
# Typed reading

How typed values are read out of structured ones. Data formats differ in what they take for a text
or a number, so a format says that itself, as an instance of `Legible`; the readers of records and
choices here work for every format.

An error says what was found and what was expected in its place. Of several errors, the one counts
that is met first.
-/

set_option autoImplicit false

namespace HealthWatch

/-! ## Errors -/

/-- What was found where something else was expected. -/
inductive Found where
  | nothing
  | bool (value : Bool)
  | whole (value : Int)
  | real (value : Float)
  | text (value : String)
  | list
  | record
deriving Repr

namespace Found

/-- The wording of what was found. -/
def words : Found → String
  | nothing => "null"
  | bool true => "boolean `true`"
  | bool false => "boolean `false`"
  | whole value => "integer `" ++ toString value ++ "`"
  | real value => "floating point `" ++ Decimal.compactText value ++ "`"
  | text value => "string " ++ Text.quoted value
  | list => "sequence"
  | record => "map"

/-- What is found in a value of structured data. -/
def ofData : Data → Found
  | .null => nothing
  | .bool value => bool value
  | .whole value => whole value
  | .real value => real value
  | .text value => text value
  | .list _ => list
  | .record _ => record

end Found

/-- Why a value cannot be read as one of a type. -/
inductive DecodeError where
  | invalidType (found : Found) (expected : String)
  | invalidValue (found : Found) (expected : String)
  | invalidLength (length : Nat) (expected : String)
  | missingField (name : String)
  | duplicateField (name : String)
  | unknownVariant (name : String) (variants : List String)
  | authority (error : AuthorityError)
  | duration (error : DurationError)
  /-- The value is nested too deeply, or refers to itself. -/
  | tooDeep
deriving Repr

namespace DecodeError

/-- The names of variants in a sentence. -/
def listed (variants : List String) : String :=
  let marked := variants.map (fun v => "`" ++ v ++ "`")
  match marked with
  | [] => "there are no variants"
  | [a] => "expected " ++ a
  | [a, b] => "expected " ++ a ++ " or " ++ b
  | _ => "expected one of " ++ ", ".intercalate marked

/-- The wording of an error in decoding. -/
def message : DecodeError → String
  | invalidType found expected => "invalid type: " ++ found.words ++ ", expected " ++ expected
  | invalidValue found expected => "invalid value: " ++ found.words ++ ", expected " ++ expected
  | invalidLength length expected =>
    "invalid length " ++ toString length ++ ", expected " ++ expected
  | missingField name => "missing field `" ++ name ++ "`"
  | duplicateField name => "duplicate field `" ++ name ++ "`"
  | unknownVariant name variants => "unknown variant `" ++ name ++ "`, " ++ listed variants
  | authority error => error.message
  | duration error => error.message
  | tooDeep => "recursion limit exceeded"

end DecodeError

/-- The result of reading a value. -/
abbrev Decoded (α : Type) := Except DecodeError α

/-! ## Formats -/

/-- The width of a whole number without a sign. -/
inductive Width where
  | short
  | long
deriving Repr, DecidableEq

/-- The bound that numbers of a width stay below. -/
def Width.bound : Width → Nat
  | short => UInt16.size
  | long => UInt64.size

/-- The name by which an error tells the width. -/
def Width.name : Width → String
  | short => "u16"
  | long => "usize"

/-- The parts of a record: by name, or in the order of its fields. -/
inductive Parts (ν : Type) where
  | named (members : List (String × ν))
  | ordered (items : List ν)

/-- A value that says itself which variant it is: its members, or items of which the first is the
name. The names of members need not be texts. -/
inductive Tagged (ν : Type) where
  | members (entries : List (Data × ν))
  | items (items : List ν)

/-- A format whose values can be read as typed ones. -/
class Legible (ν : Type) where
  /-- A text. -/
  text : ν → (expected : String) → Decoded String
  /-- A whole number without a sign. -/
  word : ν → Width → Decoded Nat
  /-- A real number. -/
  float : ν → Decoded Float
  /-- Is nothing there, where something may be? -/
  absent : ν → Decoded Bool
  /-- The items of a list. -/
  items : ν → Decoded (List ν)
  /-- The parts of a record of this name. -/
  parts : ν → (record : String) → Decoded (Parts ν)
  /-- One of several names. -/
  choice : ν → List String → Decoded String
  /-- The parts of a value that says which variant of a type of this name it is. -/
  tagged : ν → (type : String) → Decoded (Tagged ν)
  /-- The value as it is, read without knowing its type. -/
  content : ν → Decoded Data

namespace Decode

variable {ν α : Type} [Legible ν]

/-- Something or nothing. -/
def optional (read : ν → Decoded α) (v : ν) : Decoded (Option α) := do
  if ← Legible.absent v then .ok none else (read v).map some

/-- Reads a list by reading each of its items. -/
def list (read : ν → Decoded α) (v : ν) : Decoded (List α) := do
  (← Legible.items v).mapM read

/-- The fields of a record type, in order, and those of them that must not be missing. -/
structure Shape where
  name : String
  fields : List String
  required : List String := []

/-- The name of a record type with the number of its fields. -/
def Shape.title (s : Shape) : String :=
  "struct " ++ s.name ++ " with " ++ toString s.fields.length ++
    (if s.fields.length = 1 then " element" else " elements")

/-- Reads members by name into a draft. Members of other names do not count; none may come
twice. -/
def foldNamed (shape : Shape) (set : α → String → ν → Decoded α) (draft : α)
    (seen : List String) : List (String × ν) → Decoded α
  | [] =>
    match shape.required.find? (fun name => !seen.contains name) with
    | some name => .error (.missingField name)
    | none => .ok draft
  | (name, v) :: rest =>
    if !shape.fields.contains name then foldNamed shape set draft seen rest
    else if seen.contains name then .error (.duplicateField name)
    else do
      let draft ← set draft name v
      foldNamed shape set draft (name :: seen) rest

/-- Reads items into a draft, field by field; `place` is the number of the next field. A field that
is required must have an item. -/
def foldOrdered (shape : Shape) (set : α → String → ν → Decoded α) (draft : α) (place : Nat) :
    List String → List ν → Decoded α
  | [], items =>
    if items.isEmpty then .ok draft
    else .error (.invalidLength (place + items.length) "fewer elements in array")
  | name :: names, [] =>
    if shape.required.contains name then .error (.invalidLength place shape.title)
    else foldOrdered shape set draft (place + 1) names []
  | name :: names, v :: rest => do
    let draft ← set draft name v
    foldOrdered shape set draft (place + 1) names rest

/-- Reads a record: a draft with the values of all fields that are there set in it. -/
def record (shape : Shape) (set : α → String → ν → Decoded α) (draft : α) (v : ν) : Decoded α := do
  match ← Legible.parts v ("struct " ++ shape.name) with
  | .named members => foldNamed shape set draft [] members
  | .ordered items => foldOrdered shape set draft 0 shape.fields items

/-- An endpoint, by its authority text. -/
def endpoint (v : ν) : Decoded Endpoint := do
  let text ← Legible.text v "a string"
  (Endpoint.parse text).mapError .authority

/-- Reads a duration from its text. -/
def duration (v : ν) : Decoded Duration := do
  let text ← Legible.text v "a string"
  (Duration.parse text).mapError .duration

/-- A choice among values that have words. -/
def chosen (values : List α) (word : α → String) (v : ν) : Decoded α := do
  let name ← Legible.choice v (values.map word)
  match values.find? (fun value => word value == name) with
  | some value => .ok value
  | none => .error (.unknownVariant name (values.map word))

/-- Reads a scheme from its word. -/
def scheme (v : ν) : Decoded Scheme :=
  chosen [.http, .https] Scheme.word v

end Decode

end HealthWatch
