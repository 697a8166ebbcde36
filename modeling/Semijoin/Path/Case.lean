import Semijoin.Text.Casing
import Semijoin.Text.Seam

/-!
# Snake case

A name in camel case is split into words by underscores and lowered. A run of capitals before a small
letter gives its last capital to the next word; a capital after a small letter or a digit starts a word.
Only the basic letters make words; lowering is for every letter.
-/

set_option autoImplicit false

namespace Semijoin.Path

/-- Whether a capital after this character starts a word. -/
def endsHump (c : Char) : Bool := c.isLower || c.isDigit

/-- Between a run of capitals and the capital of the next word. -/
def runSeam : Text.Seam := ⟨[.run Char.isUpper], [.one Char.isUpper, .one Char.isLower]⟩

/-- Between a small letter or a digit and a capital. -/
def humpSeam : Text.Seam := ⟨[.one endsHump], [.one Char.isUpper]⟩

/-- A name in snake case. -/
def snakeCase (name : String) : String :=
  Text.lower (String.ofList (humpSeam.mark '_' (runSeam.mark '_' name.toList)))

end Semijoin.Path
