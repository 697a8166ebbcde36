/-!
# Binary floats as counts of one unit

Every finite 64-bit float is a whole number of units of `2 ^ -1074`, the least positive one. A float is
kept as its sign and that count, so comparing two numbers of any kind is comparing integers, and reading a
decimal is one rounding of a quotient. Nothing here depends on machine arithmetic.
-/

set_option autoImplicit false

namespace Semijoin

/-- A 64-bit binary float; a finite one is `units * 2 ^ -1074` under its sign. -/
inductive Binary64 where
  | nan
  | infinite (negative : Bool)
  | finite (negative : Bool) (units : Nat)
  deriving DecidableEq, Inhabited

namespace Binary64

/-- The number of units in one. -/
def unitsPerOne : Nat := Nat.pow 2 1074

/-- The nearest whole number to `num / den`, a half going to the even neighbour. -/
def roundHalfEven (num den : Nat) : Nat :=
  let q := num / den
  let twice := 2 * (num % den)
  if twice < den then q else if den < twice then q + 1 else q + q % 2

/-- The distance between neighbouring floats around a count of units: 53 significant bits are kept. -/
def spacing (units : Nat) : Nat := Nat.pow 2 (units.log2 - 52)

/-- The count of units nearest to `num / den` units among those a float can hold. -/
def nearestUnits (num den : Nat) : Nat :=
  let step := spacing (num / den)
  step * roundHalfEven num (den * step)

/-- The float nearest to `num / den`; what rounds to `2 ^ 1024` or more is infinite. -/
def ofRatio (negative : Bool) (num den : Nat) : Binary64 :=
  let units := nearestUnits (num * unitsPerOne) den
  if units < Nat.pow 2 2098 then .finite negative units else .infinite negative

/-- The float nearest to `digits * 10 ^ exponent`. -/
def ofDecimal (negative : Bool) (digits : Nat) (exponent : Int) : Binary64 :=
  if digits = 0 then .finite negative 0
  else
    let leading : Int := (Nat.toDigits 10 digits).length + exponent
    if 400 < leading then .infinite negative
    else if leading < -400 then .finite negative 0
    else if 0 ≤ exponent then ofRatio negative (digits * Nat.pow 10 exponent.toNat) 1
    else ofRatio negative digits (Nat.pow 10 (-exponent).toNat)

/-- The float nearest to an integer. -/
def ofInt (n : Int) : Binary64 := ofRatio (n < 0) n.natAbs 1

/-- Whether a float is zero of either sign. -/
def isZero : Binary64 → Bool
  | .finite _ units => units == 0
  | _ => false

/-- The whole part of a finite float, toward zero. -/
def truncate? : Binary64 → Option Int
  | .finite negative units =>
    let whole : Int := (units / unitsPerOne : Nat)
    some (if negative then -whole else whole)
  | _ => none

/-- The integer a float equals, if it equals one. -/
def toInt? : Binary64 → Option Int
  | x@(.finite _ units) => if units % unitsPerOne = 0 then x.truncate? else none
  | _ => none

end Binary64

/-- A number of any kind on the extended line, finite ones counted in float units. -/
inductive Extended where
  | nan
  | bottom
  | units (n : Int)
  | top
  deriving DecidableEq, Inhabited

namespace Extended

def ofInt (n : Int) : Extended := .units (n * Binary64.unitsPerOne)

def ofBinary64 : Binary64 → Extended
  | .nan => .nan
  | .infinite negative => if negative then .bottom else .top
  | .finite negative count => .units (if negative then -(count : Int) else count)

/-- Equality of numbers; a NaN equals nothing. -/
def equals (a b : Extended) : Bool := a == b && a != .nan

/-- Strict order of numbers; a NaN is below nothing and above nothing. -/
def lt : Extended → Extended → Bool
  | .nan, _ => false
  | _, .nan => false
  | .top, _ => false
  | _, .bottom => false
  | .units a, .units b => a < b
  | _, _ => true

theorem equals_comm (a b : Extended) : a.equals b = b.equals a := by
  rw [Bool.eq_iff_iff]
  simp only [equals, Bool.and_eq_true, beq_iff_eq, bne_iff_ne]
  exact ⟨fun ⟨same, number⟩ => ⟨same.symm, same ▸ number⟩, fun ⟨same, number⟩ => ⟨same.symm, same ▸ number⟩⟩

end Extended

end Semijoin
