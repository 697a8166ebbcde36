import Semijoin.Schema.Basic

/-!
# Declaring a schema by a document

A graph document declares a schema if it violates none of the rules: entities, each with a mapping of
relations; and relations, each of a known kind, with a declared target and with a foreign key. All
violations are collected, in the order of the document. A kind or target that is a list or a mapping, and
field lists that can not be iterated, are faults of the document's values and end the check.
-/

set_option autoImplicit false

namespace Semijoin

/-- A rule that a graph document violates, and where. -/
structure Violation where
  entity : Option String
  relation : Option String
  message : String
  deriving DecidableEq, Inhabited

/-- The place of a violation: the names that are not empty. -/
def Violation.place (v : Violation) : String :=
  let names := (v.entity.toList ++ v.relation.toList).filter (· != "")
  if names.isEmpty then "global" else ".".intercalate names

def Violation.text (v : Violation) : String := "[" ++ v.place ++ "] " ++ v.message

namespace Schema

/-- The kinds in messages. -/
def kindNames : String := (Value.list (RelationKind.all.map fun k => .text k.name)).quoted

/-- The relation kind that a value names. -/
def kindOf? : Scalar → Option RelationKind
  | .text s => RelationKind.ofName? s
  | _ => none

/-- What is wrong with the target of a relation, if anything is. -/
def targetProblem? (entities : List (Scalar × Value)) (target : Value) : Except Fault (Option String) :=
  if !target.truthy then .ok (some "Missing target")
  else do
    if (Entries.find? (← target.asKey) entities).isSome then return none
    return some ("Unknown target entity '" ++ target.shown ++ "'")

/-- The violations of one relation, kind before target before foreign key. -/
def relationViolations (entities : List (Scalar × Value)) (owner name : String) (rel : Value) :
    Except Fault (List Violation) := do
  let violation (message : String) : Violation := ⟨some owner, some name, message⟩
  if !rel.isMap then return [violation "Relation definition must be a mapping"]
  let kind := (rel.get? "kind").getD .null
  let target := (rel.get? "target").getD .null
  let ofKind := match kindOf? (← kind.asKey) with
    | some _ => []
    | none => [violation ("Invalid kind '" ++ kind.shown ++ "', must be one of " ++ kindNames)]
  let ofTarget := (← targetProblem? entities target).toList.map violation
  let ofKey :=
    if ((rel.get? "foreign_key").getD .null).truthy then [] else [violation "Missing foreign_key"]
  return ofKind ++ ofTarget ++ ofKey

/-- The violations of the relations of one entity. -/
def relationsViolations (entities : List (Scalar × Value)) (owner : String) :
    List (Scalar × Value) → Except Fault (List Violation)
  | [] => .ok []
  | (name, rel) :: rest => do
    let here ← relationViolations entities owner name.shown rel
    return here ++ (← relationsViolations entities owner rest)

/-- The declared relations of an entity document, none by default. -/
def relationsOf (entity : Value) : Value := (entity.get? "relations").getD (.map [])

/-- The violations of one entity. -/
def entityViolations (entities : List (Scalar × Value)) (name : String) (entity : Value) :
    Except Fault (List Violation) :=
  if !entity.isMap then .ok [⟨some name, none, "Entity definition must be a mapping"⟩]
  else
    match relationsOf entity with
    | .map relations => relationsViolations entities name relations
    | _ => .ok [⟨some name, none, "'relations' must be a mapping"⟩]

/-- The violations of several entities. -/
def entitiesViolations (entities : List (Scalar × Value)) :
    List (Scalar × Value) → Except Fault (List Violation)
  | [] => .ok []
  | (name, entity) :: rest => do
    let here ← entityViolations entities name.shown entity
    return here ++ (← entitiesViolations entities rest)

/-- The relation that a document without violations declares. -/
def buildRelation (name : String) (rel : Value) : Relation :=
  let kind := match rel.get? "kind" with
    | some (.scalar s) => (kindOf? s).getD .hasMany
    | _ => .hasMany
  ⟨name, kind, ((rel.get? "target").getD .null).shown, (rel.get? "foreign_key").getD .null⟩

/-- The entity that a document without violations declares. -/
def buildEntity (name : String) (entity : Value) : Except Fault Entity := do
  let fields ← match entity.get? "fields" with
    | some v => v.iterate
    | none => pure []
  let relations := match relationsOf entity with
    | .map relations => relations.map fun r => buildRelation r.1.shown r.2
    | _ => []
  return ⟨name, (entity.get? "primary_key").getD (.text "id"), fields, relations⟩

/-- The entities that documents without violations declare. -/
def buildEntities : List (Scalar × Value) → Except Fault (List Entity)
  | [] => .ok []
  | (name, entity) :: rest => do
    let e ← buildEntity name.shown entity
    return e :: (← buildEntities rest)

/-- Checks a graph document and builds its schema, or gives all its violations. -/
def declare (graph : Value) : Except Fault (Except (List Violation) Schema) := do
  match ← graph.getKey (.text "entities") with
  | .map entities =>
    let violations ← entitiesViolations entities entities
    if violations.isEmpty then
      return .ok ⟨(graph.get? "version").getD (.int 1), ← buildEntities entities⟩
    else return .error violations
  | _ => return .error [⟨none, none, "'entities' must be a mapping"⟩]

/-- The schema of a graph document. -/
def ofValue (graph : Value) : Except Failure Schema := do
  match ← declare graph with
  | .ok schema => return schema
  | .error violations => throw (.invalidGraph (violations.map Violation.text))

end Schema

end Semijoin
