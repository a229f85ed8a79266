import HealthWatch.Decode
import HealthWatch.Yaml.Node
import HealthWatch.Yaml.Plain

/-!
# Reading typed values out of YAML

How the nodes of a YAML document are read. A scalar is read as what is expected in its place:
`80` is a number where a number is expected, and a text where a text is. Only where the type is not
known first, the scalar itself says what it stands for.

Aliases stand for their nodes. Lists and records may be nested 128 deep, and a value of unknown
type may be made with no more than a hundred aliases for each part of the document.
-/

set_option autoImplicit false

namespace HealthWatch.Yaml

/-! ## Places in a document -/

/-- A node in its document; in an empty document there is none. -/
structure Place where
  node : Option Node
  anchored : List (Nat × Node)
  /-- How many lists and records may still be entered. -/
  depth : Nat
  /-- How many aliases a value may be made with. -/
  aliases : Nat

namespace Place

/-- The place of a document's node. -/
def ofDocument (d : Document) : Place :=
  { node := d.root
    anchored := d.anchored
    depth := 128
    aliases := 100 * (d.root.map Node.size).getD 1 }

/-- A place one level deeper. -/
def inner (p : Place) (n : Node) : Place :=
  { p with node := some n, depth := p.depth - 1 }

/-- The node that a node means: its own, or that of an alias. -/
def meant (anchored : List (Nat × Node)) : Node → Option Node
  | .reference anchor => anchored.lookup anchor
  | n => some n

/-- The node at a place, aliases followed. -/
def target (p : Place) : Option Node :=
  p.node.bind (meant p.anchored)

/-- What is found at a place. -/
def found (p : Place) : Found :=
  match p.target with
  | some (.scalar _ _ text) => .text text
  | some (.list _ _) => .list
  | some (.record _ _) => .record
  | _ => .nothing

/-- The refusal of what is found at a place. -/
def refuse {α : Type} (p : Place) (expected : String) : Decoded α :=
  .error (.invalidType p.found expected)

end Place

/-! ## Tags -/

/-- The tag of a kind of scalar that every document knows. -/
def coreTag (kind : String) : String :=
  "tag:yaml.org,2002:" ++ kind

/-- The name in a tag of the document's own. -/
def localTag? (properties : Properties) : Option String :=
  match properties.tag.map String.toList with
  | some ('!' :: rest) => some (String.ofList rest)
  | _ => none

/-- Is a scalar one of a kind: plain, or a literal block that its tag says it of? -/
def isOfKind (kind : String) (properties : Properties) (style : ScalarStyle) : Bool :=
  style == .plain || (style == .literal && properties.tag == some (coreTag kind))

/-- A plain scalar with nothing in it. -/
def isBlankScalar : Option Node → Bool
  | none => true
  | some (.scalar _ style text) => style == .plain && text.isEmpty
  | _ => false

/-! ## Values of unknown type -/

/-- What a scalar stands for by itself. A tag of the document's own has no meaning here. -/
def scalarContent (properties : Properties) (style : ScalarStyle) (text : String) :
    Decoded Data :=
  let orRefuse (value : Option Data) (expected : String) : Decoded Data :=
    match value with
    | some d => .ok d
    | none => .error (.invalidValue (.text text) expected)
  match properties.tag with
  | none => if style == .plain then orRefuse (plainValue? text) "a value" else .ok (.text text)
  | some tag =>
    if (localTag? properties).isSome then .error (.invalidValue (.text tag) "a value")
    else if tag == coreTag "bool" then orRefuse ((boolOfWord? text).map .bool) "a boolean"
    else if tag == coreTag "int" then
      orRefuse (((whole? text).filter fitsWord).map .whole) "an integer"
    else if tag == coreTag "float" then orRefuse ((real? text).map .real) "a float"
    else if tag == coreTag "null" then
      orRefuse (if isNullWord text then some .null else none) "null"
    else .ok (.text text)

/-- Reading with a number of aliases that may be followed. -/
abbrev Following := StateT Nat (Except DecodeError)

/-- The node that a node means; following an alias uses one up. -/
def follow (anchored : List (Nat × Node)) (n : Node) : Following Node := do
  match n with
  | .reference _ =>
    match ← get, Place.meant anchored n with
    | aliases + 1, some target =>
      set aliases
      return target
    | _, _ => throw .tooDeep
  | _ => return n

/-- Refuses a tag of the document's own. -/
def refuseLocalTag (properties : Properties) : Following Unit :=
  match localTag? properties with
  | some name => throw (.invalidValue (.text name) "a value")
  | none => pure ()

/-- The key of a record in plain data; keys that are no texts do not matter there. -/
def keyText : Data → String
  | .text key => key
  | _ => ""

/-- The value of a node, whose lists and records are nested at most so deep. -/
def readContent (anchored : List (Nat × Node)) : Nat → Node → Following Data
  | 0, n => do
    match ← follow anchored n with
    | .scalar properties style text => scalarContent properties style text
    | _ => throw .tooDeep
  | depth + 1, n => do
    match ← follow anchored n with
    | .scalar properties style text => scalarContent properties style text
    | .list properties items =>
      refuseLocalTag properties
      return .list (← items.mapM (readContent anchored depth))
    | .record properties members =>
      refuseLocalTag properties
      return .record (← members.mapM fun (k, v) => do
        let key ← readContent anchored depth k
        let value ← readContent anchored depth v
        return (keyText key, value))
    | .reference _ => throw .tooDeep

/-! ## Values of known type -/

namespace Place

/-- Any scalar is a text. -/
def readText (p : Place) (expected : String) : Decoded String :=
  match p.target with
  | some (.scalar _ _ text) => .ok text
  | _ => p.refuse expected

/-- A whole number without a sign. -/
def readWord (p : Place) (width : Width) : Decoded Nat :=
  match p.target with
  | some (.scalar properties style text) =>
    if isOfKind "int" properties style then
      match unsigned? text.toList with
      | some n =>
        if n < width.bound then .ok n else .error (.invalidValue (.whole n) width.name)
      | none => p.refuse width.name
    else p.refuse width.name
  | _ => p.refuse width.name

/-- A real number. -/
def readFloat (p : Place) : Decoded Float :=
  match p.target with
  | some (.scalar properties style text) =>
    if isOfKind "float" properties style then
      match real? text with
      | some x => .ok x
      | none => p.refuse "f64"
    else p.refuse "f64"
  | _ => p.refuse "f64"

/-- Nothing is there in an empty document, and where a plain scalar is empty or a word for nothing.
A tag makes it something, unless it is the tag for nothing. -/
def readAbsent (p : Place) : Decoded Bool :=
  match p.target with
  | none => .ok true
  | some (.scalar properties .plain text) =>
    match properties.tag with
    | none => .ok (text.isEmpty || isNullWord text)
    | some tag =>
      if tag == coreTag "null" then
        if isNullWord text then .ok true else .error (.invalidValue (.text text) "null")
      else .ok false
  | _ => .ok false

/-- The places of some nodes within a place, unless that is too deep. -/
def enter (p : Place) (nodes : List Node) : Decoded (List Place) :=
  if p.depth = 0 then .error .tooDeep else .ok (nodes.map p.inner)

/-- The items of a list; a blank stands for none. -/
def readItems (p : Place) : Decoded (List Place) :=
  if isBlankScalar p.target then .ok []
  else match p.target with
    | some (.list _ items) => p.enter items
    | _ => p.refuse "a sequence"

/-- The parts of a record; a blank stands for none. -/
def readParts (p : Place) (expected : String) : Decoded (Parts Place) :=
  if isBlankScalar p.target then .ok (.named [])
  else match p.target with
    | some (.record _ members) => do
      let keys ← p.enter (members.map Prod.fst)
      let values ← p.enter (members.map Prod.snd)
      let names ← keys.mapM (fun key => key.readText "field identifier")
      .ok (.named (names.zip values))
    | _ => p.refuse expected

/-- One of several names: as a text, or as a tag on nothing. -/
def readChoice (p : Place) (variants : List String) : Decoded String :=
  let known (name : String) : Decoded String :=
    if variants.contains name then .ok name else .error (.unknownVariant name variants)
  match p.target with
  | some (.scalar properties style text) =>
    match localTag? properties with
    | none => known text
    | some name =>
      if style == .plain && (text.isEmpty || isNullWord text) then known name
      else .error (.invalidType (.text text) "unit")
  | _ => p.refuse "a variant"

/-- The value at a place, and what is left of the aliases. -/
def readContent (p : Place) : Decoded Data :=
  match p.node with
  | none => .ok .null
  | some n => ((Yaml.readContent p.anchored p.depth n).run p.aliases).map Prod.fst

/-- The parts of a value that says which variant it is. -/
def readTagged (p : Place) (type : String) : Decoded (Tagged Place) :=
  let refused := p.refuse ("internally tagged enum " ++ type)
  match p.target with
  | some (.list properties items) =>
    if (localTag? properties).isSome then refused
    else (p.enter items).map .items
  | some (.record properties members) =>
    if (localTag? properties).isSome then refused
    else do
      let keys ← p.enter (members.map Prod.fst)
      let values ← p.enter (members.map Prod.snd)
      let names ← keys.mapM readContent
      .ok (.members (names.zip values))
  | _ => refused

end Place

instance : Legible Place where
  text := Place.readText
  word := Place.readWord
  float := Place.readFloat
  absent := Place.readAbsent
  items := Place.readItems
  parts := Place.readParts
  choice := Place.readChoice
  tagged := Place.readTagged
  content := Place.readContent

/-- Reads a typed value out of a text, if the text is a document and the value fits. -/
def decode? {α : Type} (read : Place → Decoded α) (text : String) : Option α := do
  let document ← Document.parse? text
  (read (Place.ofDocument document)).toOption

end HealthWatch.Yaml
