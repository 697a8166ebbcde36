import Semijoin.Value.Text

/-!
# Faults

What goes wrong when an operation meets a value of a kind that it is not defined for, or one that has no text
where it is to be written. A fault is a cause; its wording is in one place.
-/

set_option autoImplicit false

namespace Semijoin

/-- The four ordering comparisons. -/
inductive Comparison where
  | lt | le | gt | ge
  deriving DecidableEq, Inhabited

def Comparison.symbol : Comparison → String
  | .lt => "<"
  | .le => "<="
  | .gt => ">"
  | .ge => ">="

/-- Why an operation on values has no result. -/
inductive Fault where
  | unordered (op : Comparison) (left right : Kind)
  | unhashable (kind : Kind)
  | notIterable (kind : Kind)
  | noMembers (kind : Kind)
  | textSoughtIn (kind : Kind)
  | notIndexable (kind : Kind)
  | slicedMapping
  | notJoinable (position : Nat) (kind : Kind)
  | notText (kind : Kind)
  | attributeName (kind : Kind)
  | badInclude (spec : Value)
  | noAttribute (owner member : String)
  | listIndex
  | textIndex
  | missingKey (key : Scalar)
  | longInteger
  deriving Inhabited, BEq

namespace Fault

/-- A mapping operation on a value that is no mapping. -/
def noMethod (v : Value) (method : String) : Fault := .noAttribute v.kind.name method

/-- The wording of a fault. -/
def message : Fault → String
  | .unordered op left right =>
    "'" ++ op.symbol ++ "' not supported between instances of '" ++ left.name ++ "' and '" ++ right.name ++ "'"
  | .unhashable kind => "unhashable type: '" ++ kind.name ++ "'"
  | .notIterable kind => "'" ++ kind.name ++ "' object is not iterable"
  | .noMembers kind => "argument of type '" ++ kind.name ++ "' is not iterable"
  | .textSoughtIn kind => "'in <string>' requires string as left operand, not " ++ kind.name
  | .notIndexable kind => "'" ++ kind.name ++ "' object is not subscriptable"
  | .slicedMapping => "unhashable type: 'slice'"
  | .notJoinable position kind =>
    "sequence item " ++ toString position ++ ": expected str instance, " ++ kind.name ++ " found"
  | .notText kind => "expected string or bytes-like object, got '" ++ kind.name ++ "'"
  | .attributeName kind => "attribute name must be string, not '" ++ kind.name ++ "'"
  | .badInclude spec => "Unsupported include specification: " ++ spec.quoted
  | .noAttribute owner member => "'" ++ owner ++ "' object has no attribute '" ++ member ++ "'"
  | .listIndex => "list index out of range"
  | .textIndex => "string index out of range"
  | .missingKey key => key.quoted
  | .longInteger => "Exceeds the limit (" ++ toString Text.maxDigits ++
    " digits) for integer string conversion; use sys.set_int_max_str_digits() to increase the limit"

/-- The fault of an include specification of no known form, which its message shows. -/
def ofInclude (spec : Value) : Fault := if spec.isWritable then .badInclude spec else .longInteger

end Fault

/-- The plain text of a value, if it has one. -/
def Value.written (v : Value) : Except Fault String := if v.isWritable then .ok v.shown else .error .longInteger

end Semijoin
