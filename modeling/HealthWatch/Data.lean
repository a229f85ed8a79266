/-!
# Structured data

The values that settings and scripts are written in: nothing, truth values, numbers, texts, lists
and records. A whole number and a real number are two kinds of value even where they are equal.
A record keeps its members in the order they are written, and the last one of a name counts.
-/

set_option autoImplicit false

namespace HealthWatch

/-- A value of structured data. -/
inductive Data where
  | null
  | bool (value : Bool)
  | whole (value : Int)
  | real (value : Float)
  | text (value : String)
  | list (items : List Data)
  | record (members : List (String × Data))
deriving Repr, Inhabited

namespace Data

/-- The last of the members with a name. -/
def lastOf (members : List (String × Data)) (name : String) : Option Data :=
  members.reverse.lookup name

/-- The member of a name, if the value is a record that has one. -/
def field? (d : Data) (name : String) : Option Data :=
  match d with
  | record members => lastOf members name
  | _ => none

/-- The member of a name; a record without it, and any other value, has nothing there. -/
def field (d : Data) (name : String) : Data :=
  (d.field? name).getD null

/-- Is it the value that stands for nothing? -/
def isNull : Data → Bool
  | null => true
  | _ => false

/-- The members of a record by ascending name, of each name the last one. -/
def sortedMembers (members : List (String × Data)) : List (String × Data) :=
  let kept := members.reverse.foldl
    (fun kept member => if kept.any (fun k => k.1 == member.1) then kept else member :: kept) []
  kept.mergeSort (fun a b => decide (a.1 ≤ b.1))

end Data

end HealthWatch
