import Semijoin.Access.Basic
import Semijoin.Path.Leaves
import Semijoin.Path.Walk

/-!
# Reversing a condition

A condition on the far end of a path becomes a condition on its root. The furthest entity's rows that satisfy
it are fetched together with the relations that lead back to the entity next to the root, and from that
entity's rows the values are collected that the root's key field must be among.

A reversal is announced before anything else, for which its path is joined and its condition written out.
`Reversal.route` then decides from the schema alone what to fetch and what to collect. Both make the plan, so a
failure there comes before any find; `Reversal.run` makes the one find of a plan.
-/

set_option autoImplicit false

namespace Semijoin

/-- How a reversal treats missing nodes, repeated ids and long paths. -/
structure Reversal.Options where
  missing : MissingPolicy := .skip
  deduplicate : Bool := true
  maxDepth : Int := Path.defaultMaxDepth
  deriving Inhabited

/-- What a reversal fetches, and what it makes of the rows. -/
structure Reversal.Plan where
  rootField : Value
  idField : Value
  furthest : String
  back : List String
  deriving Inhabited, BEq

namespace Reversal

variable {σ : Type}

/-- The include specification of a plan. -/
def Plan.include_ (p : Plan) : Value := Path.includeScope (p.back.map .text)

/-- The root's key field, and the field collected from the adjacent entity, for a first relation. -/
def keyPair (schema : Schema) (root adjacent : Entity) (relation : Relation) :
    Except Failure (Value × Value) := do
  match relation.kind with
  | .hasMany =>
    match ← schema.firstTo? (.text adjacent.name) (.text root.name) with
    | some back => return (root.primaryKey, back.foreignKey)
    | none => throw (.missingRelation adjacent.name root.name)
  | .belongsTo => return (relation.foreignKey, adjacent.primaryKey)
  | kind => throw (.unsupportedKind root.name relation.name (.text kind.name))

/-- What the schema plans for a path from a root. -/
def route (schema : Schema) (maxDepth : Int) (root : String) (path : List Value) : Except Failure Plan := do
  let rootEntity ← schema.entity (.text root)
  let visited ← Path.resolve schema root path maxDepth
  match path, visited, visited.reverse with
  | first :: _, adjacent :: _, furthest :: before =>
    let relation ← schema.relation (.text root) first
    let (rootField, idField) ← keyPair schema rootEntity adjacent relation
    let back ← Path.relationNames schema furthest.name before
    return ⟨rootField, idField, furthest.name, back⟩
  | _, _, _ => throw (.unknownRelation root (.text ""))

/-- Announces a reversal: joins the steps of its path and writes out its condition. -/
def announce (path : List Value) (condition : Value) : Except Fault Unit := do
  discard (Value.joinPoints path)
  discard condition.written

/-- The plan for reversing a condition along a path from a root, made once it is announced. -/
def plan (schema : Schema) (maxDepth : Int) (root : String) (path : List Value) (condition : Value) :
    Except Failure Plan := do
  announce path condition
  route schema maxDepth root path

/-- A failure of a find as one of the library's own. -/
def wrap (entity : String) : Failure → Failure
  | .cause c => .accessFailed entity c.message none (some c)
  | f => f

/-- The condition that is fetched: what counts as false is the empty condition. -/
def fetched (condition : Value) : Value := if condition.truthy then condition else .map []

/-- Makes the find of a plan. -/
def Plan.fetch (p : Plan) (access : Access σ) (condition : Value) : Action σ Value :=
  ExceptT.adapt (wrap p.furthest) (access.find p.furthest (fetched condition) p.include_)

variable [Attributes]

/-- The ids collected from the rows of a find, before repetitions are dropped. -/
def Plan.ids (p : Plan) (missing : MissingPolicy) (found : Value) : Except Failure (List Value) := do
  let rows ← found.iterate
  return (← rows.mapM (Path.leaves missing (p.back.map .text) p.idField)).flatten

/-- Keeps the first of equal ids. -/
def distinctIds (ids : List Value) : Except Fault (List Value) := do
  return (Scalar.distinct (← ids.mapM Value.asKey)).map .scalar

/-- The key of the condition on the root; both fields of the plan are written out before it is formed. -/
def Plan.key (p : Plan) : Except Fault Scalar := do
  discard p.idField.written
  discard p.rootField.written
  p.rootField.asKey

/-- The condition on the root that the rows of a find give. -/
def Plan.condition (p : Plan) (options : Options) (found : Value) : Except Failure Value := do
  let ids ← p.ids options.missing found
  let ids ← if options.deduplicate then distinctIds ids else pure ids
  return membership (← p.key) ids

/-- Carries out a plan. -/
def Plan.run (p : Plan) (access : Access σ) (options : Options) (condition : Value) : Action σ Value := do
  let found ← p.fetch access condition
  Action.ofExcept (p.condition options found)

/-- Reverses a condition on the far end of a path. -/
def run (access : Access σ) (schema : Schema) (options : Options) (root : String) (path : List Value)
    (condition : Value) : Action σ Value := do
  let p ← Action.ofExcept (plan schema options.maxDepth root path condition)
  p.run access options condition

end Reversal

end Semijoin
