import Semijoin.Failure
import Semijoin.Value.Access

/-!
# Filters as they arrive

A filter arrives as JSON text or bytes, as a value, or as a checked filter whose `where` and `require` are
known to be mappings or null. `FilterSource.parse` gives the mapping that all of them stand for. Everything
that is no filter fails as malformed; only an integer literal with too many digits is a fault of its own.
-/

set_option autoImplicit false

namespace Semijoin

/-- A filter whose sections have been checked. -/
structure CheckedFilter where
  condition : Option Value
  require : Option Value
  extra : List (Scalar × Value)
  deriving Inhabited, BEq

namespace CheckedFilter

/-- Checks the fields of a filter. -/
def ofValue (fields : Value) : Except (List Issue) CheckedFilter :=
  match Shape.filterIssues fields with
  | [] =>
    let extra := match fields with
      | .map entries => entries.filter fun e => e.1 != .text "where" && e.1 != .text "require"
      | _ => []
    .ok ⟨fields.get? "where", fields.get? "require", extra⟩
  | issues => .error issues

/-- The filter as a mapping: the sections that were given, and then what else was. -/
def toValue (f : CheckedFilter) : Value :=
  .map ((f.condition.toList.map fun v => (.text "where", v)) ++
    (f.require.toList.map fun v => (.text "require", v)) ++ f.extra)

end CheckedFilter

/-- A filter as it arrives. -/
inductive FilterSource where
  | text (s : String)
  | bytes (content : List UInt8)
  | value (v : Value)
  | checked (f : CheckedFilter)
  deriving Inhabited, BEq

namespace FilterSource

/-- What a document that can not be read fails with. -/
def unreadable : Json.BytesFault → Failure
  | .undecodable f => .malformedFilter f.message
  | .document (.malformed problem place) => .malformedFilter (Json.Fault.malformed problem place).message
  | .document (.tooLong digits) => .cause (.document (.document (.tooLong digits)))

/-- A value as a filter, if it is a mapping with well-formed sections. -/
def checkedValue (v : Value) : Except Failure Value :=
  if !v.isMap then .error (.malformedFilter ("expected an object, got " ++ v.kind.name))
  else
    match Shape.filterIssues v with
    | [] => .ok v
    | issues => .error (.invalidFilter issues)

/-- A text as a filter. -/
def parseText (s : String) : Except Failure Value :=
  match Json.read s with
  | .ok v => checkedValue v
  | .error f => .error (unreadable (.document f))

/-- The mapping that a filter stands for. -/
def parse : FilterSource → Except Failure Value
  | .text s => parseText s
  | .bytes content =>
    match Json.readBytes content with
    | .ok v => checkedValue v
    | .error f => .error (unreadable f)
  | .value (.text s) => parseText s
  | .value v => checkedValue v
  | .checked f => .ok f.toValue

end FilterSource

end Semijoin
