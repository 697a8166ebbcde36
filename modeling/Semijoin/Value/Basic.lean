import Semijoin.Numeric.Binary64

/-!
# Dynamic values

Rows, filters and graphs are dynamic values: scalars, lists, mappings with ordered entries, and records,
whose attributes are read by name but which are no mappings. The keys of a mapping are scalars; a list or a
mapping can not be a key. A mapping read from a document has text keys only.
-/

set_option autoImplicit false

namespace Semijoin

/-- A value without parts, which may be the key of a mapping. -/
inductive Scalar where
  | null
  | bool (b : Bool)
  | int (n : Int)
  | float (x : Binary64)
  | text (s : String)
  deriving DecidableEq, Inhabited

/-- A dynamic value. -/
inductive Value where
  | scalar (s : Scalar)
  | list (items : List Value)
  | map (entries : List (Scalar × Value))
  | record (fields : List (String × Value))
  deriving Inhabited, BEq

/-- The kinds of values that error messages tell apart. -/
inductive Kind where
  | null | bool | int | float | text | list | map | record
  deriving DecidableEq, Inhabited

/-- The name of a kind in messages. -/
def Kind.name : Kind → String
  | .null => "NoneType"
  | .bool => "bool"
  | .int => "int"
  | .float => "float"
  | .text => "str"
  | .list => "list"
  | .map => "dict"
  | .record => "object"

def Scalar.kind : Scalar → Kind
  | .null => .null
  | .bool _ => .bool
  | .int _ => .int
  | .float _ => .float
  | .text _ => .text

namespace Value

@[match_pattern] abbrev null : Value := .scalar .null
@[match_pattern] abbrev bool (b : Bool) : Value := .scalar (.bool b)
@[match_pattern] abbrev int (n : Int) : Value := .scalar (.int n)
@[match_pattern] abbrev float (x : Binary64) : Value := .scalar (.float x)
@[match_pattern] abbrev text (s : String) : Value := .scalar (.text s)

def kind : Value → Kind
  | .scalar s => s.kind
  | .list _ => .list
  | .map _ => .map
  | .record _ => .record

/-- Whether a value is null. -/
def isNull : Value → Bool
  | .null => true
  | _ => false

/-- A mapping with text keys. -/
def ofFields (fields : List (String × Value)) : Value :=
  .map (fields.map fun f => (.text f.1, f.2))

/-- Whether a value counts as true: null, false, zero and what is empty do not. -/
def truthy : Value → Bool
  | .null => false
  | .bool b => b
  | .int n => n != 0
  | .float x => !x.isZero
  | .text s => s != ""
  | .list items => !items.isEmpty
  | .map entries => !entries.isEmpty
  | .record _ => true

/-- A value as the key of a mapping, if it can be one. -/
def asKey? : Value → Option Scalar
  | .scalar s => some s
  | _ => none

end Value

end Semijoin
