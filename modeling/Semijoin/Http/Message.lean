import Semijoin.Failure
import Semijoin.Http.Query
import Semijoin.Json.Write

/-!
# Requests and responses

The content of a request and the body of a response are JSON values or text. JSON arrives as the value that
was sent; the text of a JSON body is its compact form.
-/

set_option autoImplicit false

namespace Semijoin

/-- What a request or a response carries. -/
inductive Body where
  | json (v : Value)
  | text (s : String)
  deriving Inhabited, BEq

/-- A body as text. -/
def Body.shown : Body → String
  | .json v => Json.write Json.compact v
  | .text s => s

/-- The value that a body holds. -/
def Body.read : Body → Except Json.BytesFault Value
  | .json v => .ok v
  | .text s => Json.readBytes (Text.Utf8.encode s)

structure Request where
  verb : String
  path : String
  parameters : Query.Parameters := []
  content : Option Body := none
  deriving Inhabited

structure Response where
  status : Nat
  body : Body
  deriving Inhabited, BEq

namespace Response

/-- A response with a mapping. -/
def ofFields (status : Nat) (fields : List (String × Value)) : Response := ⟨status, .json (.ofFields fields)⟩

def notFound : Response := .ofFields 404 [("detail", .text "Not Found")]

def notAllowed : Response := .ofFields 405 [("detail", .text "Method Not Allowed")]

/-- The answer to a path that only differs in a final slash from one that is served. -/
def redirect : Response := ⟨307, .text ""⟩

def crash : Response := ⟨500, .text "Internal Server Error"⟩

/-- A value as the body of an answer; infinite numbers can not be sent. -/
def ofValue (v : Value) : Response := if Json.isStrict v then ⟨200, .json v⟩ else crash

end Response

/-- The name under which a failure of the library is reported. -/
def Failure.name : Failure → String
  | .cause _ => ""
  | .malformedFilter _ => "MalformedFilter"
  | .invalidFilter _ => "MalformedFilter"
  | .unknownRelation _ _ => "UnknownRelation"
  | .missingRelation _ _ => "AmbiguousOrMissingRelation"
  | .unsupportedKind _ _ _ => "UnsupportedRelationKind"
  | .pathTooDeep _ _ => "RelationPathTooDeep"
  | .missingNode _ _ => "MissingRelationNode"
  | .accessFailed _ _ _ _ => "DataAccessFailure"
  | .invalidGraph _ => "GraphConfigError"

/-- The status of a failure of the library: a failed fetch is not the client's error. -/
def Failure.status : Failure → Nat
  | .accessFailed _ _ _ _ => 502
  | _ => 400

/-- A path with its final slashes removed, or with one added if it has none. -/
def flipSlash (path : String) : String :=
  match path.toList.reverse with
  | '/' :: rest => String.ofList (rest.dropWhile (· == '/')).reverse
  | _ => path ++ "/"

/-- The answer to a path that is not served. -/
def missed (serves : String → Bool) (path : String) : Response :=
  if path != "/" && serves (flipSlash path) then .redirect else .notFound

end Semijoin
