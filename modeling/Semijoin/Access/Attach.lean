import Semijoin.Access.Basic
import Semijoin.Include

/-!
# Attaching related rows

An include tree is resolved with one select for each relation: the keys of the rows at hand are collected
without nulls and duplicates, the related rows are selected together, get their own includes, and are handed
out to the rows by key. Where there is no key there is no select, but the includes below are still read. A
`belongsTo` row gets the last related row under its key; a `hasMany` row gets all, a `hasOne` row the first.
-/

set_option autoImplicit false

namespace Semijoin

variable {σ : Type}

/-- The value of a row's field as a key. -/
def rowKey (field row : Value) : Except Fault Scalar := do (← row.getKey field).asKey

/-- The keys of rows after those already seen: nulls and repetitions left out, in the order met. -/
def distinctKeysFrom (field : Value) (seen : List Scalar) : List Value → Except Fault (List Scalar)
  | [] => .ok []
  | row :: rest => do
    let v ← row.getKey field
    if v.isNull then distinctKeysFrom field seen rest
    else
      let key ← v.asKey
      if key.isIn seen then distinctKeysFrom field seen rest
      else return key :: (← distinctKeysFrom field (key :: seen) rest)

/-- The keys of rows. -/
def distinctKeys (field : Value) (rows : List Value) : Except Fault (List Scalar) :=
  distinctKeysFrom field [] rows

/-- The rows of an entity whose field is among keys, if there are any keys. -/
def selectAmong (selector : Selector σ) (target : Entity) (field : Value) (keys : List Scalar) :
    Action σ (List Value) :=
  if keys.isEmpty then pure []
  else do
    let key ← Action.ofValues field.asKey
    selector.select target (membership key (keys.map .scalar))

/-- Related rows under their keys. -/
def keyed (field : Value) (rows : List Value) : Except Fault (List (Scalar × Value)) :=
  rows.mapM fun row => do return (← rowKey field row, row)

/-- All rows under a key, in order. -/
def rowsUnder (key : Scalar) (index : List (Scalar × Value)) : List Value :=
  (index.filter (·.1.same key)).map (·.2)

/-- What a row gets of the related rows under its key. -/
def handOut (kind : RelationKind) (related : List Value) : Value :=
  match kind with
  | .belongsTo => related.getLast?.getD .null
  | .hasOne => related.head?.getD .null
  | _ => .list related

/-- Gives every row its related rows, in the field named by the relation. -/
def handOutAll (relation : Relation) (rowField childField : Value) (rows children : List Value) :
    Except Fault (List Value) := do
  let index ← keyed childField children
  rows.mapM fun row => do
    let key ← rowKey rowField row
    return row.setField relation.name (handOut relation.kind (rowsUnder key index))

/-- The fields that hold the common key of a relation: on the owner's rows and on the target's. -/
def keyFields (owner target : Entity) (relation : Relation) : Option (Value × Value) :=
  match relation.kind with
  | .belongsTo => some (relation.foreignKey, target.primaryKey)
  | .hasMany => some (owner.primaryKey, relation.foreignKey)
  | .hasOne => some (owner.primaryKey, relation.foreignKey)
  | .hasAndBelongsToMany => none

mutual

/-- Attaches an include tree to the rows of an entity. -/
def attach (schema : Schema) (selector : Selector σ) (owner : Entity) (rows : List Value) :
    IncludeTree → Action σ (List Value)
  | .node branches fault => do
    let rows ← attachAll schema selector owner rows branches
    match fault with
    | some f => throw (.ofFault f)
    | none => return rows

/-- Attaches the branches of an include tree one after the other. -/
def attachAll (schema : Schema) (selector : Selector σ) (owner : Entity) (rows : List Value) :
    List (Value × IncludeTree) → Action σ (List Value)
  | [] => return rows
  | (name, nested) :: rest => do
    let relation ← Action.ofExcept (schema.relation (.text owner.name) name)
    let target ← Action.ofExcept (schema.entity (.text relation.target))
    match keyFields owner target relation with
    | none => throw (.unsupportedKind owner.name relation.name (.text relation.kind.name))
    | some (rowField, childField) =>
      let keys ← Action.ofValues (distinctKeys rowField rows)
      let selected ← selectAmong selector target childField keys
      let children ← attach schema selector target selected nested
      let rows ← Action.ofValues (handOutAll relation rowField childField rows children)
      attachAll schema selector owner rows rest

end

/-- A data access that selects plain rows and attaches includes. -/
def Selector.access (selector : Selector σ) (schema : Schema) : Access σ where
  find entity condition include_ := do
    let e ← Action.ofExcept (schema.entity (.text entity))
    let rows ← selector.select e condition
    return .list (← attach schema selector e rows (IncludeTree.ofValue include_))

end Semijoin
