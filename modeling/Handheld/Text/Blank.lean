/-
# Blanks, words and lines

A blank is a character with the Unicode property `White_Space`. Texts are
handled as lists of characters, and lines are divided by line feeds.
-/

namespace Handheld.Text

/-- The Unicode property `White_Space`. -/
def isBlank (c : Char) : Bool :=
  let n := c.toNat
  (0x9 ≤ n && n ≤ 0xD) || n == 0x20 || n == 0x85 || n == 0xA0 || n == 0x1680 ||
    (0x2000 ≤ n && n ≤ 0x200A) || n == 0x2028 || n == 0x2029 || n == 0x202F ||
    n == 0x205F || n == 0x3000

/-- Drop the blanks at both ends. -/
def trim (text : List Char) : List Char :=
  ((text.dropWhile isBlank).reverse.dropWhile isBlank).reverse

/-- Put a character in front of the pieces of a text: a separator opens an empty
piece, and any other character joins the first one. -/
def consPiece (separates : Char → Bool) (c : Char) : List (List Char) → List (List Char)
  | [] => [[c]]
  | piece :: pieces => if separates c then [] :: piece :: pieces else (c :: piece) :: pieces

/-- Cut a text at every character of a class; the pieces may be empty. -/
def splitAtEach (separates : Char → Bool) (text : List Char) : List (List Char) :=
  text.foldr (consPiece separates) [[]]

/-- The maximal runs of characters that are not blank. -/
def words (text : List Char) : List (List Char) :=
  (splitAtEach isBlank text).filter fun word => !word.isEmpty

/-- The pieces between line feeds. A carriage return before a line feed stays
with its line, at the end, where `trim` takes it for a blank. -/
def lines (text : List Char) : List (List Char) :=
  splitAtEach (· == '\n') text

end Handheld.Text
