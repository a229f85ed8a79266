import HealthWatch.Data.Json
import HealthWatch.Yaml.Cursor

/-!
# Scalars of YAML

The texts in a YAML document: plain, in quotes, or as an indented block. Line breaks inside are
folded: one becomes a space, and of several the first is dropped. Only a literal block keeps them
all. Every reader gives the text and the place behind it, or nothing where the text breaks a rule.
-/

set_option autoImplicit false

namespace HealthWatch.Yaml

/-! ## Gaps -/

/-- Blanks between the words of a scalar. -/
structure Gap where
  /-- The spaces and tabs, as long as no break has come. -/
  spaces : List Char := []
  /-- The first break, unless it is an escaped one. -/
  first : List Char := []
  /-- The breaks behind the first. -/
  more : List Char := []
  /-- Has a break come? -/
  broken : Bool := false
deriving Repr, Inhabited

namespace Gap

/-- The gap with its breaks folded. -/
def text (g : Gap) : List Char :=
  if !g.broken then g.spaces
  else if g.first == ['\n'] then (if g.more.isEmpty then [' '] else g.more)
  else g.first ++ g.more

/-- Reads on to the end of a gap. A tab that stands, after a break, before the column `tabFrom` is
refused. -/
def read (g : Gap) (c : Cursor) (tabFrom : Nat) : Nat → Option (Gap × Cursor)
  | 0 => none
  | fuel + 1 =>
    match c.peek? with
    | none => some (g, c)
    | some x =>
      if isSpace x then
        if g.broken then
          if x == '\t' && c.column < tabFrom then none else read g (c.skip 1) tabFrom fuel
        else read { g with spaces := g.spaces ++ [x] } (c.skip 1) tabFrom fuel
      else if isBreak x then
        let (read?, next) := c.readBreak
        if g.broken then read { g with more := g.more ++ read? } next tabFrom fuel
        else read { g with spaces := [], first := read?, broken := true } next tabFrom fuel
      else some (g, c)

end Gap

/-! ## Plain scalars -/

/-- Indicators that end a plain scalar inside brackets. -/
def isFlowIndicator (c : Char) : Bool :=
  c == ',' || c == '[' || c == ']' || c == '{' || c == '}'

/-- Reads a word of a plain scalar. Inside brackets, a colon must not be followed by an
indicator. -/
def readPlainWord (inFlow : Bool) (done : List Char) : List Char → Option (List Char)
  | [] => some done.reverse
  | x :: rest =>
    if isBlank x then some done.reverse
    else if inFlow && x == ':' && (rest.head?.any fun y => isFlowIndicator y || y == '?') then none
    else if (x == ':' && blankAhead rest) || (inFlow && isFlowIndicator x) then some done.reverse
    else readPlainWord inFlow (x :: done) rest

/-- Reads on in a plain scalar, behind a gap. It ends before a marker, a comment, an indicator, and
a line that is not indented enough. The flag tells if a break stands at its end. -/
def readPlain (inFlow : Bool) (indent : Nat) (done : List Char) (gap : Gap) (c : Cursor) :
    Nat → Option (List Char × Bool × Cursor)
  | 0 => none
  | fuel + 1 =>
    if c.seesDocumentMarker || c.sees '#' then some (done, gap.broken, c)
    else do
      let word ← readPlainWord inFlow [] c.rest
      if word.isEmpty then some (done, gap.broken, c)
      else
        let done := done ++ gap.text ++ word
        let c := c.skip word.length
        if c.rest.isEmpty || !blankAhead c.rest then some (done, false, c)
        else
          let (gap, c) ← ({} : Gap).read c indent (c.rest.length + 1)
          if !inFlow && c.column < indent then some (done, gap.broken, c)
          else readPlain inFlow indent done gap c fuel

/-! ## Quoted scalars -/

/-- The value of hexadecimal digits. -/
def hexNumber? (digits : List Char) : Option Nat :=
  digits.foldlM (fun value digit => (Json.hexValue? digit).map (16 * value + ·)) 0

/-- A character given by a number of hexadecimal digits. -/
def readCode (count : Nat) (cs : List Char) : Option (Char × Nat) := do
  let digits := cs.take count
  if digits.length != count then none
  let code ← hexNumber? digits
  if (0xd800 ≤ code && code ≤ 0xdfff) || 0x10ffff < code then none
  some (Char.ofNat code, count + 1)

/-- The character that an escape stands for, and the length of the escape behind the backslash. -/
def readEscape : List Char → Option (Char × Nat)
  | [] => none
  | x :: rest =>
    match x with
    | '0' => some ('\x00', 1)
    | 'a' => some ('\x07', 1)
    | 'b' => some ('\x08', 1)
    | 't' | '\t' => some ('\t', 1)
    | 'n' => some ('\n', 1)
    | 'v' => some ('\x0b', 1)
    | 'f' => some ('\x0c', 1)
    | 'r' => some ('\r', 1)
    | 'e' => some ('\x1b', 1)
    | ' ' => some (' ', 1)
    | '"' => some ('"', 1)
    | '/' => some ('/', 1)
    | '\\' => some ('\\', 1)
    | 'N' => some ('\x85', 1)
    | '_' => some ('\xa0', 1)
    | 'L' => some ('\u2028', 1)
    | 'P' => some ('\u2029', 1)
    | 'x' => readCode 2 rest
    | 'u' => readCode 4 rest
    | 'U' => readCode 8 rest
    | _ => none

/-- Reads a word in quotes, its characters last first. The flag tells if an escaped break ended
it. -/
def readQuotedWord (single : Bool) (done : List Char) (c : Cursor) :
    Nat → Option (List Char × Bool × Cursor)
  | 0 => none
  | fuel + 1 =>
    match c.rest with
    | [] => some (done, false, c)
    | x :: rest =>
      if isBlank x then some (done, false, c)
      else if single then
        if x == '\'' then
          if rest.head? == some '\'' then readQuotedWord single ('\'' :: done) (c.skip 2) fuel
          else some (done, false, c)
        else readQuotedWord single (x :: done) (c.skip 1) fuel
      else if x == '"' then some (done, false, c)
      else if x == '\\' then
        if rest.head?.any isBreak then some (done, true, (c.skip 1).skipBreak)
        else do
          let (y, length) ← readEscape rest
          readQuotedWord single (y :: done) (c.skip (length + 1)) fuel
      else readQuotedWord single (x :: done) (c.skip 1) fuel

/-- Reads on in a scalar in quotes, up to the closing one. No marker may stand inside. -/
def readQuoted (single : Bool) (done : List Char) (c : Cursor) : Nat → Option (List Char × Cursor)
  | 0 => none
  | fuel + 1 =>
    if c.seesDocumentMarker || c.rest.isEmpty then none
    else do
      let (word, escaped, c) ← readQuotedWord single [] c (c.rest.length + 1)
      let done := done ++ word.reverse
      if c.sees (if single then '\'' else '"') then some (done, c.skip 1)
      else
        let (gap, c) ← ({ broken := escaped } : Gap).read c 0 (c.rest.length + 1)
        readQuoted single (done ++ gap.text) c fuel

/-! ## Block scalars -/

/-- What becomes of the breaks at the end of a block. -/
inductive Chomping where
  /-- None is kept. -/
  | strip
  /-- One is kept. -/
  | clip
  /-- All are kept. -/
  | keep
deriving Repr, DecidableEq

/-- The header of a block behind its indicator: chomping and an indentation, in either order. -/
def readBlockHeader (c : Cursor) : Option (Chomping × Nat × Cursor) :=
  let chomping? (c : Cursor) : Option Chomping :=
    if c.sees '+' then some .keep else if c.sees '-' then some .strip else none
  let digit? (c : Cursor) : Option Nat :=
    (c.peek?.filter Char.isDigit).map (fun x => x.toNat - '0'.toNat)
  match chomping? c with
  | some chomping =>
    let c := c.skip 1
    match digit? c with
    | some 0 => none
    | some digit => some (chomping, digit, c.skip 1)
    | none => some (chomping, 0, c)
  | none =>
    match digit? c with
    | some 0 => none
    | some digit =>
      let c := c.skip 1
      match chomping? c with
      | some chomping => some (chomping, digit, c.skip 1)
      | none => some (.clip, digit, c)
    | none => some (.clip, 0, c)

/-- Skips indentation and empty lines before a line of a block. With an indentation of zero the
block's indentation is not known yet: then the deepest line counts. Gives the breaks, the deepest
column and the place. -/
def readBlockBreaks (indent deepest : Nat) (breaks : List Char) (c : Cursor) :
    Nat → Option (List Char × Nat × Cursor)
  | 0 => none
  | fuel + 1 =>
    let spaces := c.rest.takeWhile (· == ' ')
    let count := if indent = 0 then spaces.length else min spaces.length (indent - c.column)
    let c := c.skip count
    let deepest := max deepest c.column
    if (indent = 0 || c.column < indent) && c.sees '\t' then none
    else if c.peek?.any isBreak then
      let (read?, next) := c.readBreak
      readBlockBreaks indent deepest (breaks ++ read?) next fuel
    else some (breaks, deepest, c)

/-- What a block keeps track of between its lines. -/
structure BlockState where
  done : List Char := []
  /-- The break at the end of the last line. -/
  last : List Char := []
  /-- The breaks of the empty lines behind it. -/
  breaks : List Char := []
  /-- Did the last line begin with a blank? -/
  blank : Bool := false

/-- Reads the lines of a block scalar, as long as they are indented. -/
def readBlockLines (literal : Bool) (indent : Nat) (s : BlockState) (c : Cursor) :
    Nat → Option (BlockState × Cursor)
  | 0 => none
  | fuel + 1 =>
    if c.column != indent || c.rest.isEmpty then some (s, c)
    else do
      let blank := c.peek?.any isSpace
      let joint :=
        if !literal && s.last == ['\n'] && !s.blank && !blank then
          (if s.breaks.isEmpty then [' '] else [])
        else s.last
      let (line, c) := c.span (fun x => !isBreak x)
      let (last, c) := c.readBreak
      let (breaks, _, c) ← readBlockBreaks indent 0 [] c (c.rest.length + 1)
      readBlockLines literal indent
        { done := s.done ++ joint ++ s.breaks ++ line
          last := last
          breaks := breaks
          blank := blank } c fuel

/-- Reads a block, from behind its indicator. `parent` is the indentation around it. -/
def readBlock (literal : Bool) (parent : Int) (c : Cursor) : Option (List Char × Cursor) := do
  let (chomping, increment, c) ← readBlockHeader c
  let c := c.skipSpaces.skipComment
  if !breakAhead c.rest then none
  let c := c.skipBreak
  let given := if increment = 0 then 0 else ((max parent 0) + increment).toNat
  let (breaks, deepest, c) ← readBlockBreaks given 0 [] c (c.rest.length + 1)
  let indent := if given = 0 then max deepest (max (parent + 1).toNat 1) else given
  let (s, c) ← readBlockLines literal indent { breaks := breaks } c (c.rest.length + 1)
  some (match chomping with
    | .strip => s.done
    | .clip => s.done ++ s.last
    | .keep => s.done ++ s.last ++ s.breaks, c)

end HealthWatch.Yaml
