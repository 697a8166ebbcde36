import Semijoin.Schema.Basic

/-!
# Declaring a schema by models

A model maps an entity to a table. Its columns become the fields, the first key column the primary key, and
each relationship to another model a relation, whose kind and foreign key follow from the one column that
refers from one of the two tables to the other. A relationship over a link table is a `hasAndBelongsToMany`.
A mapping that leaves this column open, or that names what is not there, is refused as a whole.
-/

set_option autoImplicit false

namespace Semijoin

inductive ColumnType where
  | int | text | float
  deriving DecidableEq, Inhabited

/-- A place in a table or on a model: the name of either, and a column. -/
structure ColumnRef where
  owner : String
  column : String
  deriving DecidableEq, Inhabited

/-- A column, the column that it refers to, and the member that holds it on the model's instances. -/
structure Column where
  name : String
  type : ColumnType
  isKey : Bool
  refersTo : Option ColumnRef
  member : String
  deriving DecidableEq, Inhabited

/-- A relationship of a model: to many unless said otherwise, over a link table or over a column, which may
be given together with the far side. -/
structure Relationship where
  name : String
  target : String
  many : Option Bool
  link : Option String
  foreignKey : Option ColumnRef
  farSide : Option ColumnRef
  deriving DecidableEq, Inhabited

structure Model where
  name : String
  table : String
  columns : List Column
  relationships : List Relationship
  deriving DecidableEq, Inhabited

/-- A table of pairs of references. -/
structure LinkTable where
  table : String
  columns : List (String × ColumnRef)
  deriving DecidableEq, Inhabited

/-- Why models can not be mapped. -/
inductive MappingFault where
  | noKey (model : String)
  | unknownModel (name : String)
  | unknownColumn (ref : ColumnRef)
  | unknownLink (table : String)
  | unrelated (model relationship : String)
  | ambiguous (model relationship : String)
  deriving DecidableEq, Inhabited

namespace Model

def find? (models : List Model) (name : String) : Option Model := models.find? (·.name == name)

/-- The column that a member holds. -/
def member? (m : Model) (name : String) : Option Column := m.columns.find? (·.member == name)

/-- The columns of an owner's model that refer to a column of another model. -/
def columnsTo (source target : Model) : List Column :=
  source.columns.filter fun c =>
    match c.refersTo with
    | some ref => ref.owner == target.table && target.columns.any (·.name == ref.column)
    | none => false

/-- A column by which two models are related, and whether it is the first model's. -/
structure Bond where
  column : Column
  mine : Bool
  deriving DecidableEq, Inhabited

/-- The columns by which two models are related: the target's first. -/
def bonds (owner target : Model) : List Bond :=
  (columnsTo target owner).map (⟨·, false⟩) ++
    (if owner.table == target.table then [] else (columnsTo owner target).map (⟨·, true⟩))

/-- The model and column that a reference to a member names. -/
def resolveRef (models : List Model) (ref : ColumnRef) : Except MappingFault (Model × Column) :=
  match find? models ref.owner with
  | none => .error (.unknownModel ref.owner)
  | some m =>
    match m.member? ref.column with
    | some c => .ok (m, c)
    | none => .error (.unknownColumn ref)

/-- Whether a bond is by a column of a model. -/
def Bond.isBy (bond : Bond) (owner target m : Model) (column : Column) : Bool :=
  m.table == (if bond.mine then owner.table else target.table) && column.name == bond.column.name

/-- The bonds that a relationship allows. -/
def allowedBonds (models : List Model) (owner target : Model) (r : Relationship) :
    Except MappingFault (List Bond) :=
  match r.foreignKey with
  | none => .ok (bonds owner target)
  | some ref => do
    let (m, column) ← resolveRef models ref
    return (bonds owner target).filter fun bond => bond.isBy owner target m column

/-- Whether the far side of a relationship of a model to itself is the key that its column refers to. -/
def leadsUp (models : List Model) (r : Relationship) (bond : Bond) : Except MappingFault Bool :=
  match r.farSide with
  | none => .ok false
  | some ref => do
    let (_, column) ← resolveRef models ref
    return bond.column.refersTo.any fun ref => ref.column == column.name

/-- The relation over a column. -/
def directRelation (models : List Model) (owner target : Model) (r : Relationship) :
    Except MappingFault Relation := do
  match ← allowedBonds models owner target r with
  | [] => throw (.unrelated owner.name r.name)
  | [bond] =>
    let key := Value.text bond.column.name
    if bond.mine || (owner.table == target.table && (← leadsUp models r bond)) then
      return ⟨r.name, .belongsTo, target.name, key⟩
    else return ⟨r.name, if r.many.getD true then .hasMany else .hasOne, target.name, key⟩
  | _ => throw (.ambiguous owner.name r.name)

/-- The column of a link table that refers to a model. -/
def linkColumn (link : LinkTable) (m : Model) (owner r : String) : Except MappingFault String :=
  match link.columns.filter fun c => c.2.owner == m.table && m.columns.any (·.name == c.2.column) with
  | [] => .error (.unrelated owner r)
  | [c] => .ok c.1
  | _ => .error (.ambiguous owner r)

/-- The relation over a link table. -/
def linkRelation (links : List LinkTable) (table : String) (owner target : Model) (r : Relationship) :
    Except MappingFault Relation := do
  match links.find? (·.table == table) with
  | none => throw (.unknownLink table)
  | some link =>
    let key ← linkColumn link owner owner.name r.name
    discard (linkColumn link target owner.name r.name)
    return ⟨r.name, .hasAndBelongsToMany, target.name, .text key⟩

/-- The relation that a relationship stands for. -/
def relation (models : List Model) (links : List LinkTable) (owner : Model) (r : Relationship) :
    Except MappingFault Relation :=
  match find? models r.target with
  | none => .error (.unknownModel r.target)
  | some target =>
    match r.link with
    | some table => linkRelation links table owner target r
    | none => directRelation models owner target r

/-- The entity that a model stands for; every relationship must be mapped. -/
def entity (models : List Model) (links : List LinkTable) (m : Model) : Except MappingFault Entity := do
  match m.columns.filter (·.isKey) with
  | [] => throw (.noKey m.name)
  | key :: _ =>
    let relations ← m.relationships.mapM (relation models links m)
    return ⟨m.name, .text key.name, m.columns.map fun c => .text c.name, relations⟩

end Model

namespace Schema

/-- An entity without the relations to entities that are not registered. -/
def restrict (registered : List String) (e : Entity) : Entity :=
  { e with relations := e.relations.filter fun r => registered.contains r.target }

/-- The version of schemas declared by models. -/
def modelVersion : Int := 1

/-- The schema of the registered ones among mapped models. -/
def ofModels (models : List Model) (links : List LinkTable) (registered : List String) :
    Except MappingFault Schema := do
  let entities ← models.mapM (Model.entity models links)
  return ⟨.int modelVersion,
    registered.eraseDups.filterMap fun name => (entities.find? (·.name == name)).map (restrict registered)⟩

end Schema

end Semijoin
