import Semijoin.Where.Operator

/-!
# Where conditions

A where is a mapping from fields to conditions, all of which must hold; under `and` and `or` stand groups of
wheres. What counts as false (null, an empty mapping) holds of every row. Evaluation stops at the first part
that decides, so a later part that would be a fault is not met.
-/

set_option autoImplicit false

namespace Semijoin.Where

/-- Whether all conditions hold of a field. -/
def conditionsHold (v : Value) : List (Operator × Value) → Except Fault Bool
  | [] => .ok true
  | (op, operand) :: rest => do if ← op.apply v operand then conditionsHold v rest else return false

variable [Attributes]

/-- Whether the condition on one field of a row holds. -/
def fieldHolds (row : Value) (key : Scalar) (condition : Value) : Except Fault Bool := do
  conditionsHold (← row.field (.scalar key)) (Operator.conditions condition)

/-- What a where that is no mapping gives: it holds if it counts as false. -/
def scalarHolds (s : Scalar) : Except Fault Bool :=
  if (Value.scalar s).truthy then .error (.noMethod (.scalar s) "items") else .ok true

/-- Whether all scalars hold as wheres. -/
def allScalars : List Scalar → Except Fault Bool
  | [] => .ok true
  | s :: rest => do if ← scalarHolds s then allScalars rest else return false

/-- Whether some scalar holds as a where. -/
def anyScalar : List Scalar → Except Fault Bool
  | [] => .ok false
  | s :: rest => do if ← scalarHolds s then return true else anyScalar rest

/-- The characters of a text, as the wheres of a group. -/
def characters (s : String) : List Scalar := s.toList.map fun c => .text (String.singleton c)

mutual

/-- Whether a where holds of a row. -/
def holds (row : Value) : Value → Except Fault Bool
  | .map entries => entriesHold row entries
  | .scalar s => scalarHolds s
  | .list [] => .ok true
  | v => .error (.noMethod v "items")

/-- Whether all entries of a where hold of a row. -/
def entriesHold (row : Value) : List (Scalar × Value) → Except Fault Bool
  | [] => .ok true
  | (key, v) :: rest => do
    let here ←
      if key = .text "and" then groupHolds row v
      else if key = .text "or" then alternativeHolds row v
      else fieldHolds row key v
    if here then entriesHold row rest else return false

/-- Whether every member of a group holds of a row. -/
def groupHolds (row : Value) : Value → Except Fault Bool
  | .list members => allHold row members
  | .map entries => allScalars (entries.map (·.1))
  | .text s => allScalars (characters s)
  | v => .error (.notIterable v.kind)

/-- Whether some member of a group holds of a row. -/
def alternativeHolds (row : Value) : Value → Except Fault Bool
  | .list members => someHolds row members
  | .map entries => anyScalar (entries.map (·.1))
  | .text s => anyScalar (characters s)
  | v => .error (.notIterable v.kind)

def allHold (row : Value) : List Value → Except Fault Bool
  | [] => .ok true
  | v :: rest => do if ← holds row v then allHold row rest else return false

def someHolds (row : Value) : List Value → Except Fault Bool
  | [] => .ok false
  | v :: rest => do if ← holds row v then return true else someHolds row rest

end

/-- The rows of a table that a where selects. -/
def select (condition : Value) : List Value → Except Fault (List Value)
  | [] => .ok []
  | row :: rest => do
    if ← holds row condition then return row :: (← select condition rest) else select condition rest

end Semijoin.Where
