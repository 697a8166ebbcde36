import Semijoin.Text.Ranges

/-!
# Blanks

White space is trimmed around a number. Words are separated by white space and also by the four ASCII
separators, from file to unit.
-/

set_option autoImplicit false

namespace Semijoin.Text

/-- White space, as ranges of code points. -/
def whiteRanges : List (Nat × Nat) :=
  [(0x9, 0xd), (0x20, 0x20), (0x85, 0x85), (0xa0, 0xa0), (0x1680, 0x1680), (0x2000, 0x200a), (0x2028, 0x2029),
   (0x202f, 0x202f), (0x205f, 0x205f), (0x3000, 0x3000)]

/-- Whether a character is white space. -/
def isWhite (c : Char) : Bool := Char.inRanges whiteRanges c

/-- Whether a character separates words. -/
def isBlank (c : Char) : Bool := isWhite c || (0x1c ≤ c.toNat && c.toNat ≤ 0x1f)

/-- The maximal runs of characters that are not blank, in order. -/
def wordsFrom (current : List Char) : List Char → List String
  | [] => if current.isEmpty then [] else [String.ofList current.reverse]
  | c :: rest =>
    if isBlank c then
      if current.isEmpty then wordsFrom [] rest else String.ofList current.reverse :: wordsFrom [] rest
    else wordsFrom (c :: current) rest

/-- The words of a text. -/
def words (s : String) : List String := wordsFrom [] s.toList

/-- A text without the white space at its two ends. -/
def trimWhite (cs : List Char) : List Char :=
  ((cs.dropWhile isWhite).reverse.dropWhile isWhite).reverse

end Semijoin.Text
