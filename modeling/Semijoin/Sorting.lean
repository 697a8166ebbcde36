/-!
# Stable sorting by a comparison that may fail

The longest run at the head that ascends, or else strictly descends, is taken first; every further item is
inserted into it by bisection, after the items that it is not less than. So items of which neither is less
keep their order, and a failing comparison is met only between items that this search compares.
-/

set_option autoImplicit false

namespace Semijoin.Sorting

variable {ε α : Type} (less : α → α → Except ε Bool)

/-- Extends an ascending run, kept last first, as long as no item is less than the one before. -/
def ascend (before : List α) (last : α) : List α → Except ε (List α × List α)
  | [] => .ok ((last :: before).reverse, [])
  | x :: rest => do
    if ← less x last then return ((last :: before).reverse, x :: rest) else ascend (last :: before) x rest

/-- Extends a descending run, kept last first, as long as every item is less than the one before. -/
def descend (before : List α) (last : α) : List α → Except ε (List α × List α)
  | [] => .ok (last :: before, [])
  | x :: rest => do
    if ← less x last then descend (last :: before) x rest else return (last :: before, x :: rest)

/-- The run at the head of a list, put in ascending order, and the items after it. -/
def headRun : List α → Except ε (List α × List α)
  | x :: y :: rest => do if ← less y x then descend less [x] y rest else ascend less [x] y rest
  | items => .ok (items, [])

/-- The position behind all items of a sorted list that an item is not less than, between two bounds. -/
def bisect (x : α) (sorted : List α) (low high : Nat) : Except ε Nat :=
  if low < high then
    let middle := (low + high) / 2
    match sorted[middle]? with
    | none => .ok low
    | some y => do
      if ← less x y then bisect x sorted low middle else bisect x sorted (middle + 1) high
  else .ok low
termination_by high - low
decreasing_by all_goals omega

/-- Inserts items one after the other into a sorted list. -/
def insertAll (sorted : List α) : List α → Except ε (List α)
  | [] => .ok sorted
  | x :: rest => do
    let place ← bisect less x sorted 0 sorted.length
    insertAll (sorted.take place ++ x :: sorted.drop place) rest

/-- Sorts a list; items of which neither is less keep their order. -/
def sort (items : List α) : Except ε (List α) := do
  let (run, rest) ← headRun less items
  insertAll less run rest

/-- Sorts a list from the greatest to the least; items of which neither is less keep their order. -/
def sortDown (items : List α) : Except ε (List α) := do return (← sort less items.reverse).reverse

end Semijoin.Sorting
