import Semijoin.Failure
import Semijoin.Sorting
import Semijoin.Text.Blank
import Semijoin.Text.Casing
import Semijoin.Text.Digit
import Semijoin.Value.Access
import Semijoin.Value.Order

/-!
# Windows

A filter may order the items found and cut a window out of them. An order is a clause or a list of clauses,
each a field name and an optional direction; the first clause is the major one. Null counts as greater than
every value. A window is given by a count to skip, also called the offset, and a limit.
-/

set_option autoImplicit false

namespace Semijoin.Window

/-- One clause of an order. -/
structure Clause where
  field : String
  descending : Bool
  deriving DecidableEq, Inhabited

/-- The word that makes a clause descend, in any case. -/
def isDescending (word : String) : Bool := word.toList.map Text.basicCapital == ['D', 'E', 'S', 'C']

/-- The clause that a value writes, unless it is blank. -/
def Clause.ofValue? (v : Value) : Option Clause :=
  match Text.words v.shown with
  | [] => none
  | [field] => some ⟨field, false⟩
  | field :: second :: _ => some ⟨field, isDescending second⟩

/-- The clauses of an order, the major one first. -/
def clauses (order : Value) : Except Fault (List Value) :=
  match order with
  | .text _ => .ok [order]
  | v => v.iterate

/-- Whether one field value comes before another. -/
def keyLess (v w : Value) : Except Fault Bool :=
  if v.isNull != w.isNull then .ok w.isNull
  else if v.same w then .ok false
  else v.compare .lt w

variable [Attributes]

/-- An item beside the value of the field that it is ordered by. -/
def keyed (field : String) (items : List Value) : Except Fault (List (Value × Value)) :=
  items.mapM fun item => do return (← item.field (.text field), item)

/-- Orders items by one clause. -/
def sortBy (clause : Clause) (items : List Value) : Except Fault (List Value) := do
  let pairs ← keyed clause.field items
  let less (a b : Value × Value) := keyLess a.1 b.1
  let sorted ← if clause.descending then Sorting.sortDown less pairs else Sorting.sort less pairs
  return sorted.map (·.2)

/-- Orders items by clauses, the minor ones first. -/
def sortByAll (order : Value) (items : Value) : List Value → Except Failure Value
  | [] => .ok items
  | clause :: rest => do
    match Clause.ofValue? clause with
    | none => throw (.malformedFilter ("Empty order clause in " ++ order.quoted))
    | some c => sortByAll order (.list (← sortBy c (← items.iterate))) rest

/-- Orders items as a filter says. -/
def ordered (order items : Value) : Except Failure Value := do
  if order.truthy then sortByAll order items (← clauses order).reverse else return items

/-- The failure of a bound of the window. -/
def badBound (key : String) (v : Value) : Failure :=
  .malformedFilter ("'" ++ key ++ "' must be a non-negative integer, got " ++ v.quoted)

/-- The whole number that a value stands for. -/
def wholeNumber (key : String) (v : Value) : Except Failure Int :=
  let number : Option Int := match v with
    | .bool b => some (if b then 1 else 0)
    | .int n => some n
    | .float x => x.truncate?
    | .text s => Text.integer? s
    | _ => none
  match v, number with
  | .float (.infinite _), _ => .error (.cause .infiniteInteger)
  | _, some n => .ok n
  | _, none => .error (badBound key v)

/-- A bound of the window; null sets none. -/
def bound (key : String) (v : Value) : Except Failure (Option Nat) := do
  if v.isNull then return none
  let n ← wholeNumber key v
  if n < 0 then throw (badBound key v)
  return some n.toNat

/-- A part of a list or of a text. -/
def slice (cut : {α : Type} → List α → List α) (v : Value) : Except Fault Value :=
  match v with
  | .list items => .ok (.list (cut items))
  | .text s => .ok (.text (String.ofList (cut s.toList)))
  | .map _ => .error .slicedMapping
  | v => .error (.notIndexable v.kind)

/-- What a filter has under a key, or under another one if the key is absent. -/
def part (filter : Value) (key other : String) : Value :=
  ((filter.get? key).or (filter.get? other)).getD .null

/-- Orders items and cuts the window of a filter out of them. -/
def apply (items filter : Value) : Except Failure Value := do
  let items ← ordered (part filter "order" "order") items
  let skip ← bound "skip" (part filter "skip" "offset")
  let limit ← bound "limit" (part filter "limit" "limit")
  let rest ← slice (List.drop (skip.getD 0)) items
  match limit with
  | some n => slice (List.take n) rest
  | none => return rest

end Semijoin.Window
