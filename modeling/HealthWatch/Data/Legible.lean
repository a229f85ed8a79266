import HealthWatch.Decode

/-!
# Reading typed values out of data

How plain structured data (as it comes from JSON) is read: every kind of value stands for itself
only. A record may also be a list of its fields in order, a choice a record of one member with
nothing in it, and the members of a record are read by ascending name.
-/

set_option autoImplicit false

namespace HealthWatch.Data

/-- A text is a text. -/
def readText (d : Data) (expected : String) : Decoded String :=
  match d with
  | .text value => .ok value
  | _ => .error (.invalidType (.ofData d) expected)

/-- A whole number within the bound of its width. -/
def readWord (d : Data) (width : Width) : Decoded Nat :=
  match d with
  | .whole value =>
    if 0 ≤ value && value < width.bound then .ok value.toNat
    else .error (.invalidValue (.whole value) width.name)
  | _ => .error (.invalidType (.ofData d) width.name)

/-- A real number, or a whole one taken for one. -/
def readFloat (d : Data) : Decoded Float :=
  match d with
  | .real value => .ok value
  | .whole value => .ok (Float.ofInt value)
  | _ => .error (.invalidType (.ofData d) "f64")

/-- The items of a list. -/
def readItems (d : Data) : Decoded (List Data) :=
  match d with
  | .list items => .ok items
  | _ => .error (.invalidType (.ofData d) "a sequence")

/-- The parts of a record, which may be written as a list. -/
def readParts (d : Data) (expected : String) : Decoded (Parts Data) :=
  match d with
  | .list items => .ok (.ordered items)
  | .record members => .ok (.named (sortedMembers members))
  | _ => .error (.invalidType (.ofData d) expected)

/-- One of several names: as a text, or as the only member of a record, with nothing in it. -/
def readChoice (d : Data) (variants : List String) : Decoded String :=
  match d with
  | .text name =>
    if variants.contains name then .ok name else .error (.unknownVariant name variants)
  | .record members =>
    match sortedMembers members with
    | [(name, value)] =>
      if !variants.contains name then .error (.unknownVariant name variants)
      else if value.isNull then .ok name
      else .error (.invalidType (.ofData value) "unit")
    | _ => .error (.invalidValue .record "map with a single key")
  | _ => .error (.invalidType (.ofData d) "string or map")

/-- The parts of a value that says which variant it is. -/
def readTagged (d : Data) (type : String) : Decoded (Tagged Data) :=
  match d with
  | .list items => .ok (.items items)
  | .record members =>
    .ok (.members ((sortedMembers members).map (fun member => (.text member.1, member.2))))
  | _ => .error (.invalidType (.ofData d) ("internally tagged enum " ++ type))

instance : Legible Data where
  text := readText
  word := readWord
  float := readFloat
  absent d := .ok d.isNull
  items := readItems
  parts := readParts
  choice := readChoice
  tagged := readTagged
  content := .ok

end HealthWatch.Data
