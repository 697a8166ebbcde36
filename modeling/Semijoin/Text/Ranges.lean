/-!
# Character classes as ranges

A class of characters is a list of closed ranges of code points. The tables of this folder are Unicode 14.
-/

set_option autoImplicit false

namespace Semijoin

/-- Whether a character lies in one of the closed ranges. -/
def Char.inRanges (ranges : List (Nat × Nat)) (c : Char) : Bool :=
  ranges.any fun r => r.1 ≤ c.toNat && c.toNat ≤ r.2

end Semijoin
