/-!
# Places in a YAML text

The characters that YAML tells apart, and a cursor: the text that is left, and the place it begins
at. The end of the text counts as a blank wherever a blank has to follow.
-/

set_option autoImplicit false

namespace HealthWatch.Yaml

/-- The characters a YAML text may consist of: tab, the line breaks, and what is not a control
character, a surrogate or one of the last two code points of the first plane. -/
def isAllowed (c : Char) : Bool :=
  let n := c.toNat
  n == 0x09 || n == 0x0a || n == 0x0d || (0x20 ≤ n && n ≤ 0x7e) || n == 0x85 ||
    (0xa0 ≤ n && n ≤ 0xfffd) || 0x10000 ≤ n

/-- Does the character end a line? -/
def isBreak (c : Char) : Bool :=
  c == '\n' || c == '\r' || c == '\x85' || c == '\u2028' || c == '\u2029'

/-- Is it a space or a tab? -/
def isSpace (c : Char) : Bool :=
  c == ' ' || c == '\t'

/-- A space, a tab or a line break. -/
def isBlank (c : Char) : Bool :=
  isSpace c || isBreak c

/-- A character of a name: an ASCII letter or digit, a hyphen or an underscore. -/
def isNameChar (c : Char) : Bool :=
  c.isAlphanum || c == '-' || c == '_'

/-- Does the text begin with a blank, or is it at its end? -/
def blankAhead : List Char → Bool
  | [] => true
  | c :: _ => isBlank c

/-- Does the text begin with a line break, or is it at its end? -/
def breakAhead : List Char → Bool
  | [] => true
  | c :: _ => isBreak c

/-- A text that is left, and its place: how many characters lie before it, and how many lines, and
how many characters on its line. -/
structure Cursor where
  rest : List Char
  index : Nat := 0
  line : Nat := 0
  column : Nat := 0
deriving Repr, Inhabited

namespace Cursor

/-- The next character. -/
def peek? (c : Cursor) : Option Char :=
  c.rest.head?

/-- Is this the next character? -/
def sees (c : Cursor) (x : Char) : Bool :=
  c.rest.head? == some x

/-- Skips characters on the line. -/
def skip (c : Cursor) (count : Nat) : Cursor :=
  { c with
    rest := c.rest.drop count
    index := c.index + count
    column := c.column + count }

/-- Reads the line break that is next: a carriage return with a line feed is one break. A break is
read as a line feed, unless it is one of the two separators. -/
def readBreak (c : Cursor) : List Char × Cursor :=
  match c.rest with
  | '\r' :: '\n' :: rest => (['\n'], ⟨rest, c.index + 2, c.line + 1, 0⟩)
  | x :: rest =>
    if x == '\u2028' || x == '\u2029' then ([x], ⟨rest, c.index + 1, c.line + 1, 0⟩)
    else if isBreak x then (['\n'], ⟨rest, c.index + 1, c.line + 1, 0⟩)
    else ([], c)
  | [] => ([], c)

/-- Skips the line break that is next, if one is. -/
def skipBreak (c : Cursor) : Cursor :=
  c.readBreak.2

/-- Reads the characters up to the first that does not pass; no break may pass. -/
def span (c : Cursor) (p : Char → Bool) : List Char × Cursor :=
  let run := c.rest.takeWhile p
  (run, c.skip run.length)

/-- Skips spaces and tabs. -/
def skipSpaces (c : Cursor) : Cursor :=
  (c.span isSpace).2

/-- Skips a comment, if one begins here. -/
def skipComment (c : Cursor) : Cursor :=
  if c.sees '#' then (c.span (fun x => !isBreak x)).2 else c

/-- Does a marker of three characters stand alone at the beginning of the line? -/
def seesMarker (c : Cursor) (x : Char) : Bool :=
  c.column == 0 && c.rest.take 3 == [x, x, x] && blankAhead (c.rest.drop 3)

/-- Does a marker of the beginning or the end of a document stand here? -/
def seesDocumentMarker (c : Cursor) : Bool :=
  c.seesMarker '-' || c.seesMarker '.'

end Cursor

end HealthWatch.Yaml
