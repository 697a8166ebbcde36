import Semijoin.Filter.Window
import Semijoin.Http.Intercept
import Semijoin.Http.Message

/-!
# Find endpoints

Every resource is a path at which the records of one entity are found: the filter of the request is compiled,
its where and include are fetched, and its window is cut out. The schema is served too, before all resources.
A failure of the library is answered with its text and name; any other error, and anything that is no list of
mappings, is a crash.
-/

set_option autoImplicit false

namespace Semijoin

/-- What serves find requests. -/
structure Endpoints (σ : Type) where
  schema : Schema
  access : Access σ
  settings : Settings
  resources : List (String × String)

namespace Endpoints

variable {σ : Type}

/-- The first resource whose entity is not declared. -/
def undeclared? (schema : Schema) (resources : List (String × String)) : Option (String × String) :=
  resources.find? fun r => (schema.find? r.2).isNone

/-- Endpoints for resources, all of whose entities must be declared. -/
def create (schema : Schema) (access : Access σ) (settings : Settings) (resources : List (String × String)) :
    Except Failure (Endpoints σ) :=
  match undeclared? schema resources with
  | some (path, entity) => .error (.cause (.unregistered entity path))
  | none => .ok ⟨schema, access, settings, resources⟩

/-- The path at which the schema is served. -/
def schemaPath : String := "/__graph"

/-- Whether a path is served. -/
def serves (e : Endpoints σ) (path : String) : Bool := path == schemaPath || (e.resources.lookup path).isSome

variable [Attributes]

/-- Finds the records of an entity for a request. -/
def find (e : Endpoints σ) (entity : String) (parameters : Query.Parameters) : Action σ Value := do
  let filter := (← Intercept.compiled e.access e.schema e.settings entity parameters).getD (.map [])
  let items ← e.access.find entity (Filter.part filter "where") (Filter.part filter "include")
  Action.ofExcept (Window.apply items filter)

/-- Records as the body of an answer. -/
def ofRecords (v : Value) : Response :=
  match v with
  | .list items => if items.all Value.isMap then .ofValue v else .crash
  | _ => .crash

/-- The answer to a find. -/
def answer : Except Failure Value → Response
  | .ok v => ofRecords v
  | .error f =>
    if f.isOwn then .ofFields f.status [("error", .text f.message), ("type", .text f.name)] else .crash

/-- Answers a request. -/
def handle (e : Endpoints σ) (request : Request) : StateM σ Response :=
  if !e.serves request.path then return missed e.serves request.path
  else if request.verb != "GET" then return .notAllowed
  else if request.path == schemaPath then return .ofValue e.schema.toValue
  else
    match e.resources.lookup request.path with
    | some entity => do return answer (← (e.find entity request.parameters).outcome)
    | none => return .notFound

end Endpoints

end Semijoin
