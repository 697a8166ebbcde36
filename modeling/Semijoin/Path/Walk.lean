import Semijoin.Path.Steps
import Semijoin.Schema.Basic

/-!
# Walking a schema

A path walks from an entity along named relations. Backwards, the relations between given entities are found
by their targets: the first declared one counts. The names found are nested into an include specification,
the first outermost.
-/

set_option autoImplicit false

namespace Semijoin.Path

/-- The entities that steps visit from an entity on. -/
def walk (schema : Schema) (current : String) : List Value → Except Failure (List Entity)
  | [] => .ok []
  | step :: rest => do
    let relation ← schema.relation (.text current) step
    let entity ← schema.entity (.text relation.target)
    return entity :: (← walk schema relation.target rest)

/-- The default bound on the steps of a path. -/
def defaultMaxDepth : Int := 16

/-- The entities that a path visits, one a step; at least one and at most `maxDepth` steps are allowed. -/
def resolve (schema : Schema) (root : String) (path : List Value) (maxDepth : Int) :
    Except Failure (List Entity) := do
  if path.isEmpty then throw (.unknownRelation root (.text ""))
  if maxDepth < path.length then throw (.pathTooDeep (← Value.joinPoints path) maxDepth)
  walk schema root path

/-- The entities that a path visits, which is given as a dotted text or as a list of steps. -/
def resolveGiven (schema : Schema) (root : String) (given : Value) (maxDepth : Int) :
    Except Failure (List Entity) := do
  resolve schema root (← steps given) maxDepth

/-- The names of the first relations that lead from `start` to each entity in turn. -/
def relationNames (schema : Schema) (start : String) : List Entity → Except Failure (List String)
  | [] => .ok []
  | e :: rest => do
    match ← schema.firstTo? (.text start) (.text e.name) with
    | some r => return r.name :: (← relationNames schema e.name rest)
    | none => throw (.missingRelation start e.name)

/-- Nests relation names into an include specification. -/
def includeScope : List Value → Value
  | [] => .null
  | [name] => .ofFields [("relation", name)]
  | name :: rest => .ofFields [("relation", name), ("scope", .ofFields [("include", includeScope rest)])]

end Semijoin.Path
