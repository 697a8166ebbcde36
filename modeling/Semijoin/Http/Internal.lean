import Semijoin.Access.Basic
import Semijoin.Http.Message

/-!
# Finds between services

A service finds the records of its entities for other services. The request names the entity, and may give a
where and an include; the answer holds the items. A request of the wrong shape is answered with its issues.
-/

set_option autoImplicit false

namespace Semijoin

/-- What serves finds to other services, below a path of its own. -/
structure InternalRouter (σ : Type) where
  schema : Schema
  access : Access σ
  base : String

namespace InternalRouter

variable {σ : Type}

/-- A step of a place in a document. -/
def stepValue : Step → Value
  | .key name => .text name
  | .index n => .int n

/-- An issue as a document. -/
def issueValue (i : Issue) : Value :=
  .ofFields [("type", .text i.defect.name), ("loc", .list (i.place.map stepValue))]

/-- The answer to a request of the wrong shape. -/
def rejected (issues : List Issue) : Response := .ofFields 422 [("detail", .list (issues.map issueValue))]

/-- The answer with an error text. -/
def failed (status : Nat) (text : String) : Response :=
  .ofFields status [("detail", .ofFields [("error", .text text)])]

/-- The place of a request's content. -/
def bodyPlace : Step := .key "body"

/-- The answer to content that is no JSON. -/
def unreadable : Json.BytesFault → Response
  | .document (.malformed _ place) => rejected [⟨[bodyPlace, .index place.offset], .invalidJson⟩]
  | _ => .ofFields 400 [("detail", .text "There was an error parsing the body")]

/-- The value that a request carries; none is null. -/
def contentValue (content : Option Body) : Except Json.BytesFault Value :=
  match content with
  | none => .ok .null
  | some (.text "") => .ok .null
  | some body => body.read

/-- The issues of a value as a find request. -/
def requestIssues (v : Value) : List Issue :=
  match v with
  | .null => [⟨[bodyPlace], .missing⟩]
  | .map _ => Shape.findRequestIssues [bodyPlace] v
  | _ => [⟨[bodyPlace], .notObject⟩]

/-- Items as the body of an answer. -/
def ofItems (v : Value) : Response :=
  match v with
  | .list items => if items.all Value.isMap then .ofValue (.ofFields [("items", v)]) else .crash
  | _ => .crash

/-- The answer to a find. -/
def answer : Except Failure Value → Response
  | .ok v => ofItems v
  | .error f => if f.isOwn then failed f.status f.message else .crash

/-- Finds what a well-formed request asks for. -/
def find (r : InternalRouter σ) (v : Value) : StateM σ Response :=
  match v.get? "entity" with
  | some (.text entity) =>
    if (r.schema.find? entity).isNone then return failed 404 ("Entity '" ++ entity ++ "' not found")
    else do
      let condition := (v.get? "where").getD .null
      let include_ := (v.get? "include").getD .null
      return answer (← (r.access.find entity condition include_).outcome)
  | _ => return .crash

/-- The path that is served. -/
def path (r : InternalRouter σ) : String := r.base ++ "/internal/find"

/-- Answers a request. -/
def handle (r : InternalRouter σ) (request : Request) : StateM σ Response :=
  if request.path != r.path then return missed (· == r.path) request.path
  else if request.verb != "POST" then return .notAllowed
  else
    match contentValue request.content with
    | .error f => return unreadable f
    | .ok v =>
      match requestIssues v with
      | [] => r.find v
      | issues => return rejected issues

end InternalRouter

end Semijoin
