import Semijoin.Value.Equality
import Semijoin.Value.Fault

/-!
# Reading values

The parts of values: fields of mappings and records, members, items at an index, and the items that an
iteration visits. A field that is absent reads as null. A value that is no mapping also has the attributes of its
kind, such as the parts of a number or the methods of a text; which these are is left open.
-/

set_option autoImplicit false

namespace Semijoin

/-- The attributes that values have by their kind: what is read under a name, null where there is nothing. -/
class Attributes where
  read : Value → String → Value

/-- No attributes but the own fields of records. -/
instance (priority := low) Attributes.plain : Attributes where
  read _ _ := .null

namespace Value

/-- A value as the key of a mapping. -/
def asKey (v : Value) : Except Fault Scalar :=
  match v with
  | .scalar s => .ok s
  | v => .error (.unhashable v.kind)

/-- The values that iterating visits: items, characters or keys. -/
def iterate : Value → Except Fault (List Value)
  | .list items => .ok items
  | .map entries => .ok (entries.map fun e => .scalar e.1)
  | .text s => .ok (s.toList.map fun c => .text (String.singleton c))
  | v => .error (.notIterable v.kind)

/-- The value under a key of a mapping, or null; only mappings have keys. -/
def getKey (v key : Value) : Except Fault Value :=
  match v with
  | .map entries => do return (Entries.find? (← key.asKey) entries).getD .null
  | v => .error (.noMethod v "get")

/-- An attribute of a value: an own field of a record, or what the value has by its kind. -/
def getAttribute [Attributes] (node : Value) (name : String) : Value :=
  match node with
  | .record fields => (fields.lookup name).getD (Attributes.read node name)
  | _ => Attributes.read node name

/-- A field of a node: an entry of a mapping, and an attribute of anything else. -/
def field [Attributes] (node key : Value) : Except Fault Value :=
  match node with
  | .map _ => node.getKey key
  | _ =>
    match key with
    | .text name => .ok (node.getAttribute name)
    | key => .error (.attributeName key.kind)

/-- Sets a field of a mapping. -/
def setField (v : Value) (name : String) (x : Value) : Value :=
  match v with
  | .map entries => .map (Entries.insert (.text name) x entries)
  | v => v

/-- Whether one text occurs in another. -/
def occursIn (s : List Char) : List Char → Bool
  | [] => s.isEmpty
  | t@(_ :: rest) => s.isPrefixOf t || occursIn s rest

/-- Whether a container holds a value: as an item, as a key, or a text within a text. -/
def isIn (v container : Value) : Except Fault Bool :=
  match container with
  | .list items => .ok (items.any fun item => item.same v)
  | .map entries => do return (Entries.find? (← v.asKey) entries).isSome
  | .text t =>
    match v with
    | .text s => .ok (occursIn s.toList t.toList)
    | v => .error (.textSoughtIn v.kind)
  | c => .error (.noMembers c.kind)

/-- The item at an index: of a list, of a text, or under the number as a key. -/
def item (v : Value) (index : Nat) : Except Fault Value :=
  match v with
  | .list items =>
    match items[index]? with
    | some x => .ok x
    | none => .error .listIndex
  | .text s =>
    match s.toList[index]? with
    | some c => .ok (.text (String.singleton c))
    | none => .error .textIndex
  | .map entries =>
    match Entries.find? (.int index) entries with
    | some x => .ok x
    | none => .error (.missingKey (.int index))
  | v => .error (.notIndexable v.kind)

/-- The texts of a list that holds only texts; the position of the first other item is reported. -/
def textsFrom (position : Nat) : List Value → Except Fault (List String)
  | [] => .ok []
  | .text s :: rest => do return s :: (← textsFrom (position + 1) rest)
  | v :: _ => .error (.notJoinable position v.kind)

/-- Joins texts with points. -/
def joinPoints (path : List Value) : Except Fault String := do
  return ".".intercalate (← textsFrom 0 path)

end Value

end Semijoin
