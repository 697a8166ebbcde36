import Semijoin.Value.Equality
import Semijoin.Value.Fault

/-!
# Order of values

Numbers are ordered by their exact values, texts by code points, lists by their first unequal items and
then by length. No other two values are ordered.
-/

set_option autoImplicit false

namespace Semijoin

namespace Comparison

/-- A comparison of numbers. -/
def ofNumbers (op : Comparison) (x y : Extended) : Bool :=
  match op with
  | .lt => x.lt y
  | .le => x.lt y || x.equals y
  | .gt => y.lt x
  | .ge => y.lt x || x.equals y

/-- A comparison of texts. -/
def ofTexts (op : Comparison) (s t : String) : Bool :=
  match op with
  | .lt => s < t
  | .le => !(t < s)
  | .gt => t < s
  | .ge => !(s < t)

/-- A comparison of counts. -/
def ofCounts (op : Comparison) (m n : Nat) : Bool :=
  match op with
  | .lt => m < n
  | .le => m ≤ n
  | .gt => n < m
  | .ge => n ≤ m

end Comparison

/-- A comparison of scalars. -/
def Scalar.compare (op : Comparison) (a b : Scalar) : Except Fault Bool :=
  match a.number?, b.number? with
  | some x, some y => .ok (op.ofNumbers x y)
  | _, _ =>
    match a, b with
    | .text s, .text t => .ok (op.ofTexts s t)
    | _, _ => .error (.unordered op a.kind b.kind)

namespace Value

mutual

/-- A comparison of values. -/
def compare (op : Comparison) : Value → Value → Except Fault Bool
  | .scalar a, .scalar b => a.compare op b
  | .list xs, .list ys => compareItems op xs ys
  | v, w => .error (.unordered op v.kind w.kind)

/-- A comparison of lists: the first unequal items decide. -/
def compareItems (op : Comparison) : List Value → List Value → Except Fault Bool
  | x :: xs, y :: ys => if x.same y then compareItems op xs ys else compare op x y
  | xs, ys => .ok (op.ofCounts xs.length ys.length)

end

end Value

end Semijoin
