import HealthWatch.Yaml.Scalar

/-!
# Tokens of YAML

The lexer turns a text into tokens. Indentation shows as tokens of its own: a block of items or of
members begins when the column grows and ends when it shrinks.

A key without an indicator is known only by the colon behind it. So a place where one may begin is
remembered, together with the number of tokens before it, and when the colon comes the key's token
is put there. Such a key stands on one line and is at most 1024 characters long.
-/

set_option autoImplicit false

namespace HealthWatch.Yaml

/-- How a scalar is written. -/
inductive ScalarStyle where
  | plain
  | single
  | double
  | literal
  | folded
deriving Repr, DecidableEq

/-- A piece of a YAML text. -/
inductive Token where
  | version (major minor : Nat)
  | tagShorthand (handle expansion : List Char)
  | documentStart
  | documentEnd
  | blockItems
  | blockMembers
  | blockEnd
  | openList
  | closeList
  | openRecord
  | closeRecord
  | item
  | comma
  | key
  | value
  /-- An alias. -/
  | reference (name : List Char)
  | anchor (name : List Char)
  | tag (handle suffix : List Char)
  | scalar (style : ScalarStyle) (text : List Char)
deriving Repr, DecidableEq

/-- A place where a key may have begun. -/
structure KeyPlace where
  /-- It has to be a key: it stands where the members of a block begin. -/
  required : Bool
  /-- The number of tokens before it. -/
  token : Nat
  index : Nat
  line : Nat
  column : Nat
deriving Repr

/-- Where the reading of tokens stands. -/
structure Lexer where
  cursor : Cursor
  tokens : Array Token := #[]
  /-- The column of the block in hand; there is none outside of all blocks. -/
  indent : Int := -1
  /-- The columns of the blocks around it, the innermost first. -/
  outer : List Int := []
  /-- For every open bracket, the innermost first, and for the text outside: the place where a key
  may have begun. -/
  keys : List (Option KeyPlace) := [none]
  /-- May a key begin here? -/
  keyAllowed : Bool := true

namespace Lexer

/-- Is the lexer inside brackets? -/
def inFlow (l : Lexer) : Bool :=
  1 < l.keys.length

/-- Adds a token. -/
def push (l : Lexer) (t : Token) : Lexer :=
  { l with tokens := l.tokens.push t }

/-- Adds a token and skips the characters it is written with. -/
def take (l : Lexer) (t : Token) (length : Nat) : Lexer :=
  { l with tokens := l.tokens.push t, cursor := l.cursor.skip length }

/-! ## Places of keys -/

/-- Drops the places that cannot be keys any more. -/
def dropStaleKeys (l : Lexer) : Option Lexer := do
  let fresh (place : Option KeyPlace) : Option (Option KeyPlace) :=
    match place with
    | none => some none
    | some k =>
      if k.line < l.cursor.line || k.index + 1024 < l.cursor.index then
        if k.required then none else some none
      else some place
  some { l with keys := ← l.keys.mapM fresh }

/-- Gives up the place where a key may have begun at this depth. -/
def dropKey (l : Lexer) : Option Lexer :=
  match l.keys with
  | some k :: rest => if k.required then none else some { l with keys := none :: rest }
  | _ => some l

/-- Remembers that a key may begin here. -/
def noteKey (l : Lexer) : Option Lexer :=
  if l.keyAllowed then do
    let l ← l.dropKey
    let place : KeyPlace :=
      { required := !l.inFlow && l.indent == l.cursor.column
        token := l.tokens.size
        index := l.cursor.index
        line := l.cursor.line
        column := l.cursor.column }
    some { l with keys := some place :: l.keys.drop 1 }
  else some l

/-! ## Indentation -/

/-- Begins a block, if the column has grown; its token goes to the given place. -/
def openBlock (l : Lexer) (column : Nat) (t : Token) (place : Nat) : Lexer :=
  if !l.inFlow && l.indent < column then
    { l with
      outer := l.indent :: l.outer
      indent := column
      tokens := l.tokens.insertIdxIfInBounds place t }
  else l

/-- Ends the blocks that are indented more than a column. -/
def closeBlocks (l : Lexer) (column : Int) : List Int → Lexer
  | [] => l
  | next :: rest =>
    if !l.inFlow && column < l.indent then
      closeBlocks { l.push .blockEnd with indent := next, outer := rest } column rest
    else l

/-- Ends the blocks that are indented more than a column. -/
def unindent (l : Lexer) (column : Int) : Lexer :=
  l.closeBlocks column l.outer

/-! ## Directives, names and tags -/

/-- A number of at most nine digits. -/
def readVersionNumber (c : Cursor) : Option (Nat × Cursor) :=
  let (digits, c) := c.span Char.isDigit
  if digits.isEmpty || 9 < digits.length then none
  else some (digits.foldl (fun n d => 10 * n + (d.toNat - '0'.toNat)) 0, c)

/-- The handle of a tag: an exclamation mark alone, or two with a name between them. A shorthand
cannot define a handle that lacks the second one. -/
def readTagHandle (forShorthand : Bool) (c : Cursor) : Option (List Char × Cursor) :=
  if !c.sees '!' then none
  else
    let (name, c) := (c.skip 1).span isNameChar
    if c.sees '!' then some ('!' :: (name ++ ['!']), c.skip 1)
    else if forShorthand && !name.isEmpty then none
    else some ('!' :: name, c)

/-- A character of a tag; some are allowed only where the tag is written out. -/
def isTagChar (whole : Bool) (c : Char) : Bool :=
  isNameChar c || ";/?:@&=+$.%!~*'()".toList.contains c || (whole && ",[]".toList.contains c)

/-- A byte given by a percent sign and two hexadecimal digits. -/
def readPercentByte : List Char → Option (UInt8 × List Char)
  | '%' :: a :: b :: rest => do
    some (UInt8.ofNat ((← Json.hexValue? a) * 16 + (← Json.hexValue? b)), rest)
  | _ => none

/-- How many bytes a character has whose first byte this is. -/
def leadWidth (byte : UInt8) : Nat :=
  if byte &&& 0x80 == 0 then 1
  else if byte &&& 0xe0 == 0xc0 then 2
  else if byte &&& 0xf0 == 0xe0 then 3
  else if byte &&& 0xf8 == 0xf0 then 4
  else 0

/-- The bytes behind the first of an escaped character. -/
def readTrailBytes (cs : List Char) : Nat → Option (List UInt8 × List Char)
  | 0 => some ([], cs)
  | count + 1 => do
    let (byte, rest) ← readPercentByte cs
    if byte &&& 0xc0 != 0x80 then none
    let (bytes, rest) ← readTrailBytes rest count
    some (byte :: bytes, rest)

/-- A character written as escaped bytes, and how many there are. -/
def readPercentChar (cs : List Char) : Option (List Char × Nat) := do
  let (byte, rest) ← readPercentByte cs
  let width := leadWidth byte
  if width = 0 then none
  let (bytes, _) ← readTrailBytes rest (width - 1)
  let text ← String.fromUTF8? (ByteArray.mk (byte :: bytes).toArray)
  some (text.toList, width)

/-- Reads the characters of a tag, behind those in `done`. -/
def readTagText (whole : Bool) (done : List Char) (c : Cursor) :
    Nat → Option (List Char × Cursor)
  | 0 => none
  | fuel + 1 =>
    match c.peek? with
    | none => some (done, c)
    | some x =>
      if !isTagChar whole x then some (done, c)
      else if x == '%' then do
        let (text, bytes) ← readPercentChar c.rest
        readTagText whole (done ++ text) (c.skip (3 * bytes)) fuel
      else readTagText whole (done ++ [x]) (c.skip 1) fuel

/-- Reads the characters of a tag; there must be some, unless there are some before them. -/
def readTagSuffix (whole : Bool) (before : List Char) (c : Cursor) :
    Option (List Char × Cursor) := do
  let (text, next) ← readTagText whole before c (c.rest.length + 1)
  if text.isEmpty && before.isEmpty then none else some (text, next)

/-- Reads a directive. -/
def readDirective (c : Cursor) : Option (Token × Cursor) := do
  let (name, c) := (c.skip 1).span isNameChar
  if name.isEmpty || !blankAhead c.rest then none
  let (token, c) ←
    if name == "YAML".toList then do
      let (major, c) ← readVersionNumber c.skipSpaces
      if !c.sees '.' then none
      let (minor, c) ← readVersionNumber (c.skip 1)
      some (Token.version major minor, c)
    else if name == "TAG".toList then do
      let (handle, c) ← readTagHandle true c.skipSpaces
      if !c.peek?.any isSpace then none
      let (expansion, c) ← readTagSuffix true [] c.skipSpaces
      if !blankAhead c.rest then none
      some (Token.tagShorthand handle expansion, c)
    else none
  let c := c.skipSpaces.skipComment
  if !breakAhead c.rest then none
  some (token, c.skipBreak)

/-- Reads the name of an anchor or an alias. -/
def readName (c : Cursor) : Option (List Char × Cursor) :=
  let (name, c) := (c.skip 1).span isNameChar
  let ended := blankAhead c.rest || c.peek?.any ("?:,]\x7d%@" ++ "`").toList.contains
  if name.isEmpty || !ended then none else some (name, c)

/-- Reads a tag: written out between angle brackets, or as a handle and a suffix. A lone
exclamation mark is a suffix without a handle. -/
def readTag (inFlow : Bool) (c : Cursor) : Option (Token × Cursor) := do
  let (token, c) ←
    if c.rest.drop 1 |>.head? |> (· == some '<') then do
      let (suffix, c) ← readTagSuffix true [] (c.skip 2)
      if !c.sees '>' then none
      some (Token.tag [] suffix, c.skip 1)
    else do
      let (handle, c) ← readTagHandle false c
      if 1 < handle.length && handle.getLast? == some '!' then
        let (suffix, c) ← readTagSuffix false [] c
        some (Token.tag handle suffix, c)
      else
        let (suffix, c) ← readTagText false (handle.drop 1) c (c.rest.length + 1)
        if suffix.isEmpty then some (Token.tag [] ['!'], c)
        else some (Token.tag ['!'] suffix, c)
  if (inFlow && c.sees ',') || blankAhead c.rest then some (token, c) else none

/-! ## The next token -/

/-- Skips blanks, comments and breaks before a token. Outside of brackets, tabs are no blanks where
a key may begin, and a key may begin after a break. -/
def skipBlanks (l : Lexer) : Nat → Lexer
  | 0 => l
  | fuel + 1 =>
    let c := l.cursor
    let c := if c.column == 0 && c.sees '\ufeff' then c.skip 1 else c
    let tabs := l.inFlow || !l.keyAllowed
    let c := (c.span (fun x => x == ' ' || (tabs && x == '\t'))).2
    let c := c.skipComment
    if c.peek?.any isBreak then
      skipBlanks { l with cursor := c.skipBreak, keyAllowed := l.keyAllowed || !l.inFlow } fuel
    else { l with cursor := c }

/-- A token that ends what could be a key, such as a marker. -/
def takeMarker (l : Lexer) (t : Token) : Option Lexer := do
  let l ← (l.unindent (-1)).dropKey
  some ({ l with keyAllowed := false }.take t 3)

/-- Takes the bracket or brace that opens a flow collection. -/
def takeOpening (l : Lexer) (t : Token) : Option Lexer := do
  let l ← l.noteKey
  some ({ l with keys := none :: l.keys, keyAllowed := true }.take t 1)

/-- Takes the bracket or brace that closes a flow collection. -/
def takeClosing (l : Lexer) (t : Token) : Option Lexer := do
  let l ← l.dropKey
  let keys := if l.inFlow then l.keys.drop 1 else l.keys
  some ({ l with keys := keys, keyAllowed := false }.take t 1)

/-- Takes the comma between entries. -/
def takeComma (l : Lexer) : Option Lexer := do
  let l ← l.dropKey
  some ({ l with keyAllowed := true }.take .comma 1)

/-- Takes the dash before an item of a block. -/
def takeItem (l : Lexer) : Option Lexer := do
  if !l.inFlow && !l.keyAllowed then none
  let l ← (l.openBlock l.cursor.column .blockItems l.tokens.size).dropKey
  some ({ l with keyAllowed := true }.take .item 1)

/-- Takes the question mark before a key. -/
def takeKey (l : Lexer) : Option Lexer := do
  if !l.inFlow && !l.keyAllowed then none
  let l ← (l.openBlock l.cursor.column .blockMembers l.tokens.size).dropKey
  some ({ l with keyAllowed := !l.inFlow }.take .key 1)

/-- The indicator of a value. If a key may have begun before it, one has. -/
def takeValue (l : Lexer) : Option Lexer :=
  match l.keys with
  | some k :: rest =>
    let l := { l with tokens := l.tokens.insertIdxIfInBounds k.token .key }
    let l := l.openBlock k.column .blockMembers k.token
    some ({ l with keys := none :: rest, keyAllowed := false }.take .value 1)
  | _ => do
    if !l.inFlow && !l.keyAllowed then none
    let l := l.openBlock l.cursor.column .blockMembers l.tokens.size
    some ({ l with keyAllowed := !l.inFlow }.take .value 1)

/-- A token that may be a key or begin one, with the place behind it. -/
def takeRead (l : Lexer) (read? : Cursor → Option (Token × Cursor)) : Option Lexer := do
  let l ← l.noteKey
  let (t, c) ← read? l.cursor
  some { l.push t with cursor := c, keyAllowed := false }

/-- Takes a scalar in quotes. -/
def takeQuoted (l : Lexer) (style : ScalarStyle) : Option Lexer :=
  l.takeRead fun c => do
    let (text, c) ← readQuoted (style == .single) [] (c.skip 1) (c.rest.length + 1)
    some (.scalar style text, c)

/-- Takes a scalar that is written as a block. -/
def takeBlock (l : Lexer) (style : ScalarStyle) : Option Lexer := do
  let l ← l.dropKey
  let (text, c) ← readBlock (style == .literal) l.indent (l.cursor.skip 1)
  some { l.push (.scalar style text) with cursor := c, keyAllowed := true }

/-- A plain scalar. If it ends with a break, a key may begin behind it. -/
def takePlain (l : Lexer) : Option Lexer := do
  let l ← l.noteKey
  let c := l.cursor
  let (text, broken, c) ← readPlain l.inFlow (l.indent + 1).toNat [] {} c (c.rest.length + 1)
  some { l.push (.scalar .plain text) with cursor := c, keyAllowed := broken }

/-- Characters that no plain scalar begins with, unless something follows that makes one of
them harmless. -/
def isIndicator (c : Char) : Bool :=
  ("-?:,[]\x7b\x7d#&*!|>'\"%@" ++ "`").toList.contains c

/-- Can a plain scalar begin here? -/
def plainAhead (l : Lexer) : Bool :=
  match l.cursor.rest with
  | [] => false
  | x :: rest =>
    (!isBlank x && !isIndicator x) || (x == '-' && !(rest.head?.any isSpace)) ||
      (!l.inFlow && (x == '?' || x == ':') && !blankAhead rest)

/-- Reads the next token, which begins with `x`. -/
def takeToken (l : Lexer) (x : Char) (rest : List Char) : Option Lexer :=
  let c := l.cursor
  if c.column == 0 && x == '%' then do
    let l ← (l.unindent (-1)).dropKey
    let (t, c) ← readDirective c
    some { l.push t with cursor := c, keyAllowed := false }
  else if c.seesMarker '-' then l.takeMarker .documentStart
  else if c.seesMarker '.' then l.takeMarker .documentEnd
  else if x == '[' then l.takeOpening .openList
  else if x == '{' then l.takeOpening .openRecord
  else if x == ']' then l.takeClosing .closeList
  else if x == '}' then l.takeClosing .closeRecord
  else if x == ',' then l.takeComma
  else if x == '-' && blankAhead rest then l.takeItem
  else if x == '?' && (l.inFlow || blankAhead rest) then l.takeKey
  else if x == ':' && (l.inFlow || blankAhead rest) then l.takeValue
  else if x == '*' then l.takeRead fun c => (readName c).map fun (name, c) => (.reference name, c)
  else if x == '&' then l.takeRead fun c => (readName c).map fun (name, c) => (.anchor name, c)
  else if x == '!' then l.takeRead (readTag l.inFlow)
  else if x == '|' && !l.inFlow then l.takeBlock .literal
  else if x == '>' && !l.inFlow then l.takeBlock .folded
  else if x == '\'' then l.takeQuoted .single
  else if x == '"' then l.takeQuoted .double
  else if l.plainAhead then l.takePlain
  else none

/-- The end of the text ends all blocks. -/
def finish (l : Lexer) : Option Lexer :=
  (l.unindent (-1)).dropKey

/-- Reads tokens up to the end of the text. -/
def run (l : Lexer) : Nat → Option (Array Token)
  | 0 => none
  | fuel + 1 => do
    let l ← (l.skipBlanks (l.cursor.rest.length + 1)).dropStaleKeys
    let l := l.unindent l.cursor.column
    match l.cursor.rest with
    | [] => l.finish.map Lexer.tokens
    | x :: rest =>
      let l ← l.takeToken x rest
      l.run fuel

end Lexer

/-- The tokens of a text. -/
def tokens? (text : String) : Option (List Token) :=
  let cs := text.toList
  if cs.all isAllowed then
    (Lexer.run { cursor := { rest := cs } } (cs.length + 2)).map Array.toList
  else none

end HealthWatch.Yaml
