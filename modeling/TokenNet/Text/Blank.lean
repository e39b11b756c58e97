import TokenNet.Text.Field

/-!
# Blanks

What counts as blank depends on the text.  In prose the blanks are the white space characters of
Unicode; in settings they are the space and the tab.  Trimming takes the blanks off both ends.
-/

namespace TokenNet.Text

/-- The white space characters of Unicode. -/
def isBlank (c : Char) : Bool :=
  let n := c.toNat
  (9 ≤ n && n ≤ 13) || n == 0x20 || n == 0x85 || n == 0xA0 || n == 0x1680 ||
    (0x2000 ≤ n && n ≤ 0x200A) || n == 0x2028 || n == 0x2029 || n == 0x202F || n == 0x205F ||
    n == 0x3000

/-- The blanks within a line. -/
def isLineBlank (c : Char) : Bool :=
  c == ' ' || c == '\t'

/-- A list of characters without the blanks at its ends. -/
def trimBy (blank : Char → Bool) (text : List Char) : List Char :=
  ((text.dropWhile blank).reverse.dropWhile blank).reverse

/-- A text without white space at its ends. -/
def trim (text : String) : String :=
  String.ofList (trimBy isBlank text.toList)

end TokenNet.Text
