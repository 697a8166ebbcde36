import Semijoin.Numeric.Binary64

/-!
# The shortest decimal of a float

A float is written with the fewest digits that read back as the same float, and with the nearest such
digits when several do. For 1, 2, … 17 digits the two neighbours of the value on that decimal grid are
tried against the interval of reals that round to it. Everything is exact arithmetic on naturals, in
quarter units so that the interval's ends are whole.
-/

set_option autoImplicit false

namespace Semijoin

namespace Binary64

/-- The reals that round to one float, in quarter units; the ends belong to it when `closed`. -/
structure Interval where
  low : Nat
  high : Nat
  closed : Bool

/-- The interval of a positive count of units: below a power of two the neighbour is half as far. -/
def interval (units : Nat) : Interval :=
  let step := spacing units
  let below := if units = Nat.pow 2 units.log2 ∧ 1 < step then step else 2 * step
  ⟨4 * units - below, 4 * units + 2 * step, units / step % 2 == 0⟩

/-- Whether `num / den` quarter units lie in the interval. -/
def Interval.contains (i : Interval) (num den : Nat) : Bool :=
  if i.closed then i.low * den ≤ num && num ≤ i.high * den else i.low * den < num && num < i.high * den

/-- `10 ^ e` as a quotient. -/
def powerOfTen (e : Int) : Nat × Nat :=
  if 0 ≤ e then (Nat.pow 10 e.toNat, 1) else (1, Nat.pow 10 (-e).toNat)

/-- The decimal exponent of the leading digit of a positive count of units. -/
def leadingExponent (units : Nat) : Int :=
  let guess := Int.fdiv (((units.log2 : Int) - 1074) * 30103) 100000
  let reaches (e : Int) : Bool :=
    let (n, d) := powerOfTen e
    n * unitsPerOne ≤ units * d
  if reaches (guess + 1) then guess + 1 else if reaches guess then guess else guess - 1

/-- The nearer of the value's two neighbours on the grid of multiples of `10 ^ e` that read back. -/
def onGrid? (units : Nat) (e : Int) : Option Nat :=
  let (n, d) := powerOfTen e
  let num := units * d
  let den := n * unitsPerOne
  let q := num / den
  let hit (k : Nat) : Bool := (interval units).contains (4 * k * den) d
  let twice := 2 * (num % den)
  let nearer := if twice < den then q else if den < twice then q + 1 else q + q % 2
  let other := if nearer = q then q + 1 else q
  if hit nearer then some nearer else if hit other then some other else none

/-- The digits and exponent of the first grid with a hit. -/
def shortestFrom (units : Nat) (leading : Int) : List Nat → Nat × Int
  | [] => (units, 0)
  | n :: ns =>
    let e := leading - n
    match onGrid? units e with
    | some digits => (digits, e)
    | none => shortestFrom units leading ns

/-- The shortest decimal `digits * 10 ^ exponent` that reads back as this positive count of units. -/
def shortest (units : Nat) : Nat × Int :=
  shortestFrom units (leadingExponent units) (List.range 17)

/-- Drops the zeros at the end of a digit string, counting them. -/
def dropTrailingZeros (digits : List Char) : List Char × Nat :=
  let kept := (digits.reverse.dropWhile (· == '0')).reverse
  (kept, digits.length - kept.length)

/-- An exponent of ten with its sign and at least two digits. -/
def exponentText (e : Int) : String :=
  let digits := toString e.natAbs
  (if e < 0 then "e-" else "e+") ++ (if digits.length < 2 then "0" ++ digits else digits)

/-- Lays out digits with `point` of them before the point: positional from `1e-4` up to below `1e16`,
always with a digit after the point, and otherwise with an exponent. -/
def layout (digits : List Char) (point : Int) : String :=
  if -4 < point ∧ point ≤ 16 then
    if point ≤ 0 then "0." ++ String.ofList (List.replicate (-point).toNat '0' ++ digits)
    else if point < digits.length then
      String.ofList (digits.take point.toNat) ++ "." ++ String.ofList (digits.drop point.toNat)
    else String.ofList (digits ++ List.replicate (point.toNat - digits.length) '0') ++ ".0"
  else
    let mantissa := match digits with
      | [] => "0"
      | [c] => String.ofList [c]
      | c :: rest => String.ofList (c :: '.' :: rest)
    mantissa ++ exponentText (point - 1)

/-- The text of a float. -/
def text : Binary64 → String
  | .nan => "nan"
  | .infinite negative => if negative then "-inf" else "inf"
  | .finite negative units =>
    let body :=
      if units = 0 then "0.0"
      else
        let (digits, e) := shortest units
        let (kept, zeros) := dropTrailingZeros (Nat.toDigits 10 digits)
        layout kept (kept.length + zeros + e)
    if negative then "-" ++ body else body

end Binary64

end Semijoin
