import Semijoin.Failure
import Semijoin.Value.Access

/-!
# Schemas

A schema declares entities and, on each, the relations that lead to other entities. A `belongsTo` relation
keeps its foreign key on the owner's rows, a `hasMany` or `hasOne` relation on the target's. Entities and
relations keep the order of declaration, which decides between relations to the same target. Keys and field
names come from documents and may be any values; lookups accept any value as a name.
-/

set_option autoImplicit false

namespace Semijoin

inductive RelationKind where
  | hasMany | belongsTo | hasOne | hasAndBelongsToMany
  deriving DecidableEq, Inhabited

namespace RelationKind

def name : RelationKind → String
  | .hasMany => "hasMany"
  | .belongsTo => "belongsTo"
  | .hasOne => "hasOne"
  | .hasAndBelongsToMany => "hasAndBelongsToMany"

def all : List RelationKind := [.belongsTo, .hasAndBelongsToMany, .hasMany, .hasOne]

def ofName? (s : String) : Option RelationKind := all.find? (·.name == s)

theorem ofName?_name (k : RelationKind) : ofName? k.name = some k := by cases k <;> decide

end RelationKind

/-- A directed edge from its owner to a target entity. -/
structure Relation where
  name : String
  kind : RelationKind
  target : String
  foreignKey : Value
  deriving Inhabited, BEq

structure Entity where
  name : String
  primaryKey : Value
  fields : List Value
  relations : List Relation
  deriving Inhabited, BEq

structure Schema where
  version : Value
  entities : List Entity
  deriving Inhabited, BEq

/-- The relation of a name. -/
def Entity.find? (e : Entity) (name : String) : Option Relation := e.relations.find? (·.name == name)

/-- The relations to a target, in declaration order. -/
def Entity.relationsTo (e : Entity) (target : String) : List Relation :=
  e.relations.filter (·.target == target)

namespace Schema

/-- The entity of a name. -/
def find? (s : Schema) (name : String) : Option Entity := s.entities.find? (·.name == name)

/-- Whether a value names an entity. -/
def contains (s : Schema) (name : Value) : Except Failure Bool := do
  match ← name.asKey with
  | .text n => return (s.find? n).isSome
  | _ => return false

/-- The failure of looking up an unknown entity, whose message shows the name. -/
def unknownEntity (name : Value) : Failure :=
  if name.isWritable then .invalidGraph ["[" ++ name.shown ++ "] Unknown entity"] else .ofFault .longInteger

/-- The failure of looking up an unknown relation, whose message shows the name. -/
def unknownRelation (entity : String) (name : Value) : Failure :=
  if name.isWritable then .unknownRelation entity name else .ofFault .longInteger

/-- The entity that a value names. -/
def entity (s : Schema) (name : Value) : Except Failure Entity := do
  match ← name.asKey with
  | .text n =>
    match s.find? n with
    | some e => return e
    | none => throw (unknownEntity name)
  | _ => throw (unknownEntity name)

/-- The relation that a value names on an entity. -/
def relation (s : Schema) (owner name : Value) : Except Failure Relation := do
  let e ← s.entity owner
  match ← name.asKey with
  | .text n =>
    match e.find? n with
    | some r => return r
    | none => throw (unknownRelation e.name name)
  | _ => throw (unknownRelation e.name name)

/-- All relations of an entity to a target, in declaration order. -/
def relationsTo (s : Schema) (owner target : Value) : Except Failure (List Relation) := do
  let e ← s.entity owner
  match target with
  | .text t => return e.relationsTo t
  | _ => return []

/-- The first relation of an entity to a target. -/
def firstTo? (s : Schema) (owner target : Value) : Except Failure (Option Relation) := do
  return (← s.relationsTo owner target).head?

/-- A relation as a document. -/
def relationValue (r : Relation) : Value :=
  .ofFields [("kind", .text r.kind.name), ("target", .text r.target), ("foreign_key", r.foreignKey)]

/-- An entity as a document. -/
def entityValue (e : Entity) : Value :=
  .ofFields [("primary_key", e.primaryKey), ("fields", .list e.fields),
    ("relations", .ofFields (e.relations.map fun r => (r.name, relationValue r)))]

/-- A schema as a document. -/
def toValue (s : Schema) : Value :=
  .ofFields [("version", s.version), ("entities", .ofFields (s.entities.map fun e => (e.name, entityValue e)))]

end Schema

end Semijoin
