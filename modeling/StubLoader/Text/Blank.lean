/-!
# Blanks

The characters that separate words, and a text without those at its ends.
-/

namespace StubLoader.Text

/-- Whether the character has the property `White_Space`. -/
def isBlank (c : Char) : Bool :=
  let n := c.toNat
  (0x09 ≤ n && n ≤ 0x0D) || n == 0x20 || n == 0x85 || n == 0xA0 || n == 0x1680
    || (0x2000 ≤ n && n ≤ 0x200A) || n == 0x2028 || n == 0x2029 || n == 0x202F || n == 0x205F
    || n == 0x3000

/-- The text without the blanks at its start. -/
def trimStart (cs : List Char) : List Char := cs.dropWhile isBlank

/-- The text without the blanks at its end. -/
def trimEnd (cs : List Char) : List Char := (cs.reverse.dropWhile isBlank).reverse

/-- The text without the blanks at both ends. -/
def trim (cs : List Char) : List Char := trimEnd (trimStart cs)

/-- The string without the blanks at both ends. -/
def strip (s : String) : String := String.ofList (trim s.toList)

/-- The string without the blanks at its end. -/
def stripEnd (s : String) : String := String.ofList (trimEnd s.toList)

/-- The word a user meant: no blanks around it, its Latin capitals made small. -/
def word (s : String) : String := String.ofList ((trim s.toList).map Char.toLower)

end StubLoader.Text
