import Semijoin.Value.Access
import Semijoin.Value.Order
import Semijoin.Where.Wildcard

/-!
# Operators

The comparisons of a field with an operand. An ordering comparison of a null field is false whatever the
operand; equality, membership and patterns look at null like at any other value. The condition on a field is
a mapping from operators to operands, or else a plain value that the field must equal.
-/

set_option autoImplicit false

namespace Semijoin

inductive Operator where
  | eq | neq | gt | gte | lt | lte | among | amongAlso | notAmong | between | like | ilike
  deriving DecidableEq, Inhabited

namespace Operator

def name : Operator → String
  | .eq => "eq"
  | .neq => "neq"
  | .gt => "gt"
  | .gte => "gte"
  | .lt => "lt"
  | .lte => "lte"
  | .among => "in"
  | .amongAlso => "inq"
  | .notAmong => "nin"
  | .between => "between"
  | .like => "like"
  | .ilike => "ilike"

def all : List Operator :=
  [.eq, .neq, .gt, .gte, .lt, .lte, .among, .amongAlso, .notAmong, .between, .like, .ilike]

/-- The operator that a key names. -/
def ofKey? : Scalar → Option Operator
  | .text s => all.find? (·.name == s)
  | _ => none

/-- An ordering comparison of a field, false for null. -/
def ordered (op : Comparison) (v operand : Value) : Except Fault Bool :=
  if v.isNull then .ok false else Value.compare op v operand

/-- Whether a field lies between the first two items of the operand, both included. -/
def isBetween (v operand : Value) : Except Fault Bool :=
  if v.isNull then .ok false
  else do
    if ← Value.compare .le (← operand.item 0) v then Value.compare .le v (← operand.item 1) else return false

/-- Whether the text of a field matches the text of a pattern, which is read first; null matches none. -/
def matchesPattern (hits : String → String → Bool) (v operand : Value) : Except Fault Bool := do
  let pattern ← operand.written
  if v.isNull then return false else return hits pattern (← v.written)

/-- Applies an operator to a field and an operand. -/
def apply (op : Operator) (v operand : Value) : Except Fault Bool :=
  match op with
  | .eq => .ok (v.equals operand)
  | .neq => .ok (!v.equals operand)
  | .gt => ordered .gt v operand
  | .gte => ordered .ge v operand
  | .lt => ordered .lt v operand
  | .lte => ordered .le v operand
  | .among => v.isIn operand
  | .amongAlso => v.isIn operand
  | .notAmong => do return !(← v.isIn operand)
  | .between => isBetween v operand
  | .like => matchesPattern Wildcard.matchesExactly v operand
  | .ilike => matchesPattern Wildcard.matchesBlindly v operand

/-- The operators and operands of the entries, if every key names an operator. -/
def ofEntries? : List (Scalar × Value) → Option (List (Operator × Value))
  | [] => some []
  | (k, v) :: rest => do return (← ofKey? k, v) :: (← ofEntries? rest)

/-- The conditions on one field: those of a mapping of operators, or equality with the value. -/
def conditions (v : Value) : List (Operator × Value) :=
  match v with
  | .map [] => [(.eq, v)]
  | .map entries => (ofEntries? entries).getD [(.eq, v)]
  | v => [(.eq, v)]

end Operator

end Semijoin
