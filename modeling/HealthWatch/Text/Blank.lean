/-!
# Blank characters

The characters with the Unicode property `White_Space`, and the two cuts that go by it: a text
without its blanks at both ends, and the test for a text with none inside.
-/

set_option autoImplicit false

namespace HealthWatch.Text

/-- The Unicode property `White_Space`: tab to carriage return, the space, next line, the
no-break space, the Ogham space, the typographic spaces, the two separators, the narrow
no-break space, the mathematical space and the ideographic space. -/
def isBlank (c : Char) : Bool :=
  let n := c.toNat
  (0x09 ≤ n && n ≤ 0x0d) || n == 0x20 || n == 0x85 || n == 0xa0 || n == 0x1680 ||
    (0x2000 ≤ n && n ≤ 0x200a) || n == 0x2028 || n == 0x2029 || n == 0x202f ||
    n == 0x205f || n == 0x3000

/-- A list of characters without its leading blanks. -/
def dropBlanks (cs : List Char) : List Char :=
  cs.dropWhile isBlank

/-- A list of characters without the blanks at its end. -/
def dropBlanksEnd (cs : List Char) : List Char :=
  (dropBlanks cs.reverse).reverse

/-- A list of characters without the blanks at both ends. -/
def trimBlanks (cs : List Char) : List Char :=
  dropBlanksEnd (dropBlanks cs)

end HealthWatch.Text
