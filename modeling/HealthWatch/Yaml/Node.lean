import HealthWatch.Yaml.Token

/-!
# Nodes of YAML

The parser turns the tokens of a text into the node of its only document. A node may be anchored
and used again by an alias. Anchors are numbered by how many names are known when they stand; an
alias means the last node that has got its name's number.
-/

set_option autoImplicit false

namespace HealthWatch.Yaml

/-- What stands before a node: the number of its anchor and its tag. -/
structure Properties where
  anchor : Option Nat := none
  tag : Option String := none
deriving Repr, Inhabited

/-- A node of a document. -/
inductive Node where
  /-- An alias: it means the anchored node of this number. -/
  | reference (anchor : Nat)
  | scalar (properties : Properties) (style : ScalarStyle) (text : String)
  | list (properties : Properties) (items : List Node)
  | record (properties : Properties) (members : List (Node × Node))
deriving Repr, Inhabited

/-- A document: its node, if there is one, and the anchored nodes by number, later ones first. -/
structure Document where
  root : Option Node
  anchored : List (Nat × Node)
deriving Repr

/-! ## Anchored nodes -/

/-- The number of a node's anchor. -/
def Node.anchor? : Node → Option Nat
  | reference _ => none
  | scalar p _ _ | list p _ | record p _ => p.anchor

mutual

/-- The anchored nodes in a node, in the order in which they begin. -/
def Node.anchored (n : Node) : List (Nat × Node) :=
  let own := match n.anchor? with
    | some number => [(number, n)]
    | none => []
  match n with
  | .reference _ | .scalar _ _ _ => own
  | .list _ items => own ++ anchoredIn items
  | .record _ members => own ++ anchoredInMembers members

/-- The anchored nodes within some nodes. -/
def anchoredIn : List Node → List (Nat × Node)
  | [] => []
  | n :: rest => n.anchored ++ anchoredIn rest

/-- The anchored nodes within some members. -/
def anchoredInMembers : List (Node × Node) → List (Nat × Node)
  | [] => []
  | (k, v) :: rest => k.anchored ++ v.anchored ++ anchoredInMembers rest

end

mutual

/-- The number of parse events a node is made of: one for a leaf, two around a list or record. -/
def Node.size : Node → Nat
  | .reference _ | .scalar _ _ _ => 1
  | .list _ items => 2 + sizeIn items
  | .record _ members => 2 + sizeInMembers members

/-- The number of parse events of some nodes. -/
def sizeIn : List Node → Nat
  | [] => 0
  | n :: rest => n.size + sizeIn rest

/-- The number of parse events of some members. -/
def sizeInMembers : List (Node × Node) → Nat
  | [] => 0
  | (k, v) :: rest => k.size + v.size + sizeInMembers rest

end

/-! ## Parsing -/

/-- What the parser knows: the tokens left, the shorthands of tags, and the numbers of the
anchors' names. -/
structure Parser where
  tokens : List Token
  shorthands : List (List Char × List Char)
  names : List (List Char × Nat) := []

namespace Parser

/-- A node of no text, where one is left out. -/
def emptyNode : Node :=
  .scalar {} .plain ""

/-- Goes on to the token after the next one. -/
def skip (p : Parser) : Parser :=
  { p with tokens := p.tokens.drop 1 }

/-- Is the next token one of these? -/
def seesAny (p : Parser) (ts : List Token) : Bool :=
  p.tokens.head?.any ts.contains

/-- The tag that a handle and a suffix stand for. -/
def expandTag (p : Parser) (handle suffix : List Char) : Option String :=
  if handle.isEmpty then some (String.ofList suffix)
  else (p.shorthands.lookup handle).map fun expansion => String.ofList (expansion ++ suffix)

/-- The number of a new anchor, under which its name is known from now on. -/
def number (p : Parser) (name : List Char) : Nat × Parser :=
  let number := p.names.length
  (number, { p with names := (name, number) :: p.names.filter (fun entry => entry.1 != name) })

/-- What stands before a node: an anchor and a tag, in either order. -/
def readProperties (p : Parser) : Option (Properties × Parser) := do
  let (name, tag, p) := match p.tokens with
    | .anchor name :: .tag handle suffix :: _ => (some name, some (handle, suffix), p.skip.skip)
    | .tag handle suffix :: .anchor name :: _ => (some name, some (handle, suffix), p.skip.skip)
    | .anchor name :: _ => (some name, none, p.skip)
    | .tag handle suffix :: _ => (none, some (handle, suffix), p.skip)
    | _ => (none, none, p)
  let tag ← match tag with
    | none => some none
    | some (handle, suffix) => (p.expandTag handle suffix).map some
  match name with
  | none => some ({ anchor := none, tag := tag }, p)
  | some name =>
    let (number, p) := p.number name
    some ({ anchor := some number, tag := tag }, p)

/-- A scalar has no use for the tag that is a lone exclamation mark. -/
def scalarProperties (properties : Properties) : Properties :=
  if properties.tag == some "!" then { properties with tag := none } else properties

mutual

/-- Reads a node. In a block it may be a block itself; where items may stand without indentation,
it may be a list of such items. -/
def readNode (block bare : Bool) (p : Parser) : Nat → Option (Node × Parser)
  | 0 => none
  | fuel + 1 =>
    match p.tokens with
    | .reference name :: _ => do
      let number ← p.names.lookup name
      some (.reference number, p.skip)
    | _ => do
      let (properties, p) ← p.readProperties
      match p.tokens with
      | .scalar style text :: _ =>
        some (.scalar (scalarProperties properties) style (String.ofList text), p.skip)
      | .openList :: _ => do
        let (items, p) ← readFlowItems true [] p.skip fuel
        some (.list properties items, p)
      | .openRecord :: _ => do
        let (members, p) ← readFlowMembers true [] p.skip fuel
        some (.record properties members, p)
      | t :: _ =>
        if bare && t == .item then do
          let (items, p) ← readBareItems [] p fuel
          some (.list properties items, p)
        else if block && t == .blockItems then do
          let (items, p) ← readBlockItems [] p.skip fuel
          some (.list properties items, p)
        else if block && t == .blockMembers then do
          let (members, p) ← readBlockMembers [] p.skip fuel
          some (.record properties members, p)
        else if properties.anchor.isSome || properties.tag.isSome then
          some (.scalar (scalarProperties properties) .plain "", p)
        else none
      | [] =>
        if properties.anchor.isSome || properties.tag.isSome then
          some (.scalar (scalarProperties properties) .plain "", p)
        else none

/-- Reads a node, unless one of the tokens is next that show that it was left out. -/
def readNodeUnless (ends : List Token) (block bare : Bool) (p : Parser) :
    Nat → Option (Node × Parser)
  | 0 => none
  | fuel + 1 => if p.seesAny ends then some (emptyNode, p) else readNode block bare p fuel

/-- The items of a block, those read so far last first. -/
def readBlockItems (done : List Node) (p : Parser) : Nat → Option (List Node × Parser)
  | 0 => none
  | fuel + 1 =>
    match p.tokens with
    | .item :: _ => do
      let (n, p) ← readNodeUnless [.item, .blockEnd] true false p.skip fuel
      readBlockItems (n :: done) p fuel
    | .blockEnd :: _ => some (done.reverse, p.skip)
    | _ => none

/-- Items without indentation, those read so far last first. -/
def readBareItems (done : List Node) (p : Parser) : Nat → Option (List Node × Parser)
  | 0 => none
  | fuel + 1 =>
    match p.tokens with
    | .item :: _ => do
      let (n, p) ← readNodeUnless [.item, .key, .value, .blockEnd] true false p.skip fuel
      readBareItems (n :: done) p fuel
    | _ => some (done.reverse, p)

/-- The members of a block, those read so far last first. A member may lack its key or its
value. -/
def readBlockMembers (done : List (Node × Node)) (p : Parser) :
    Nat → Option (List (Node × Node) × Parser)
  | 0 => none
  | fuel + 1 =>
    match p.tokens with
    | .blockEnd :: _ => some (done.reverse, p.skip)
    | .key :: _ => do
      let (k, p) ← readNodeUnless [.key, .value, .blockEnd] true true p.skip fuel
      let (v, p) ← readBlockValue p fuel
      readBlockMembers ((k, v) :: done) p fuel
    | _ => none

/-- Reads what stands behind a key of a block. -/
def readBlockValue (p : Parser) : Nat → Option (Node × Parser)
  | 0 => none
  | fuel + 1 =>
    match p.tokens with
    | .value :: _ => readNodeUnless [.key, .value, .blockEnd] true true p.skip fuel
    | _ => some (emptyNode, p)

/-- The items between brackets, those read so far last first. A key indicator makes an item a
record of one member; if its key is left out, the token in its place is passed over. -/
def readFlowItems (first : Bool) (done : List Node) (p : Parser) :
    Nat → Option (List Node × Parser)
  | 0 => none
  | fuel + 1 => do
    if p.seesAny [.closeList] then some (done.reverse, p.skip)
    else
      let p ← if first then some p else if p.seesAny [.comma] then some p.skip else none
      match p.tokens with
      | .closeList :: _ => some (done.reverse, p.skip)
      | .key :: _ => do
        let p := p.skip
        let (k, p) ←
          if p.seesAny [.value, .comma, .closeList] then some (emptyNode, p.skip)
          else readNode false false p fuel
        let (v, p) ←
          if p.seesAny [.value] then readNodeUnless [.comma, .closeList] false false p.skip fuel
          else some (emptyNode, p)
        readFlowItems false (.record {} [(k, v)] :: done) p fuel
      | _ => do
        let (n, p) ← readNode false false p fuel
        readFlowItems false (n :: done) p fuel

/-- The members between braces, those read so far last first. -/
def readFlowMembers (first : Bool) (done : List (Node × Node)) (p : Parser) :
    Nat → Option (List (Node × Node) × Parser)
  | 0 => none
  | fuel + 1 => do
    if p.seesAny [.closeRecord] then some (done.reverse, p.skip)
    else
      let p ← if first then some p else if p.seesAny [.comma] then some p.skip else none
      match p.tokens with
      | .closeRecord :: _ => some (done.reverse, p.skip)
      | .key :: _ => do
        let (k, p) ← readNodeUnless [.value, .comma, .closeRecord] false false p.skip fuel
        let (v, p) ←
          if p.seesAny [.value] then readNodeUnless [.comma, .closeRecord] false false p.skip fuel
          else some (emptyNode, p)
        readFlowMembers false ((k, v) :: done) p fuel
      | _ => do
        let (k, p) ← readNode false false p fuel
        readFlowMembers false ((k, emptyNode) :: done) p fuel

end

/-! ## Documents -/

/-- The shorthands that need no directive. -/
def usualShorthands : List (List Char × List Char) :=
  [(['!'], ['!']), (['!', '!'], "tag:yaml.org,2002:".toList)]

/-- Reads the directives of a document: at most one version, which must be known, and shorthands,
each handle once. -/
def readDirectives (version : Bool) (p : Parser) : List Token → Option Parser
  | .version major minor :: rest =>
    if version || major != 1 || (minor != 1 && minor != 2) then none
    else readDirectives true p.skip rest
  | .tagShorthand handle expansion :: rest =>
    if p.shorthands.any (fun s => s.1 == handle) then none
    else
      readDirectives version
        { p.skip with shorthands := p.shorthands ++ [(handle, expansion)] } rest
  | _ => some p

/-- The node of the only document. Nothing may follow it but markers of its end. -/
def readDocument (p : Parser) (fuel : Nat) : Option (Option Node) :=
  match p.tokens with
  | [] => some none
  | first :: _ => do
    let finish (n : Node) (p : Parser) : Option (Option Node) :=
      if p.tokens.all (· == .documentEnd) then some (some n) else none
    let explicit := match first with
      | .version _ _ | .tagShorthand _ _ | .documentStart => true
      | _ => false
    if explicit then
      let p ← readDirectives false p p.tokens
      let p := { p with shorthands := p.shorthands ++ usualShorthands }
      if !p.seesAny [.documentStart] then none
      else
        let p := p.skip
        let bare := match p.tokens with
          | [] => true
          | .version _ _ :: _ | .tagShorthand _ _ :: _ | .documentStart :: _ | .documentEnd :: _ =>
            true
          | _ => false
        if bare then finish emptyNode p
        else
          let (n, p) ← readNode true false p fuel
          finish n p
    else
      let (n, p) ← readNode true false { p with shorthands := usualShorthands } fuel
      finish n p

end Parser

/-- Reads a text as one document. -/
def Document.parse? (text : String) : Option Document := do
  let tokens ← tokens? text
  let root ← Parser.readDocument { tokens := tokens, shorthands := [] } (4 * tokens.length + 8)
  some
    { root := root
      anchored := (root.map Node.anchored).getD [] |>.reverse }

end HealthWatch.Yaml
