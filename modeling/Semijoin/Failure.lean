import Semijoin.Json.Bytes
import Semijoin.Shape
import Semijoin.Value.Fault

/-!
# Failures

What a compilation, a fetch or a request fails with. A failure is either one of the library's own or a cause
from below: a fault of a value, a document that can not be read or has the wrong shape, or an error of the
host, the transport or the database. A failed fetch keeps the cause that it was made from.
-/

set_option autoImplicit false

namespace Semijoin

/-- Errors that a host's data access may raise itself. -/
inductive HostError where
  | runtime | value | key | timeout
  deriving DecidableEq, Inhabited

/-- An error from below the library. -/
inductive Cause where
  | fault (fault : Fault)
  | document (fault : Json.BytesFault)
  | shape (shape : Shape) (issues : List Issue)
  | notStrict
  | infiniteInteger
  | unregistered (entity resource : String)
  | host (error : HostError) (text : String)
  | transport (error text : String)
  | database
  deriving Inhabited, BEq

def Cause.message : Cause → String
  | .fault f => f.message
  | .document (.undecodable f) => f.message
  | .document (.document f) => f.message
  | .shape s issues => s.summary issues
  | .notStrict => "Out of range float values are not JSON compliant"
  | .infiniteInteger => "cannot convert float infinity to integer"
  | .unregistered entity resource =>
    "Entity '" ++ entity ++ "' for resource '" ++ resource ++ "' is not registered"
  | .host .key text => quotedText text
  | .host _ text => text
  | .transport _ text => text
  | .database => ""

/-- Why there is no result. -/
inductive Failure where
  | cause (cause : Cause)
  | malformedFilter (reason : String)
  | invalidFilter (issues : List Issue)
  | unknownRelation (entity : String) (relation : Value)
  | missingRelation (entity target : String)
  | unsupportedKind (entity relation : String) (kind : Value)
  | pathTooDeep (path : String) (maxDepth : Int)
  | missingNode (path : List String) (segment : Option String)
  | accessFailed (entity reason : String) (status : Option Int) (cause : Option Cause)
  | invalidGraph (errors : List String)
  deriving Inhabited, BEq

namespace Failure

def ofFault (f : Fault) : Failure := .cause (.fault f)

/-- The place named by a missing node: its segment, or the leaf. -/
def nodePlace : Option String → String
  | some segment => if segment = "" then "leaf" else "'" ++ segment ++ "'"
  | none => "leaf"

/-- The wording of a failure. -/
def message : Failure → String
  | .cause c => c.message
  | .malformedFilter reason => "Malformed filter: " ++ reason
  | .invalidFilter issues => "Malformed filter: " ++ Shape.filter.summary issues
  | .unknownRelation entity relation => "Entity '" ++ entity ++ "' has no relation '" ++ relation.shown ++ "'"
  | .missingRelation entity target => "No relation from '" ++ entity ++ "' to '" ++ target ++ "'"
  | .unsupportedKind entity relation kind =>
    "Relation '" ++ entity ++ "." ++ relation ++ "' of kind '" ++ kind.shown ++ "' can not be reversed"
  | .pathTooDeep path maxDepth => "Relation path '" ++ path ++ "' exceeds " ++ toString maxDepth ++ " steps"
  | .missingNode path segment =>
    let walked := ".".intercalate path
    "Missing node at " ++ nodePlace segment ++ " while walking " ++ (if walked = "" then "<leaf>" else walked)
  | .accessFailed entity reason status _ =>
    let code := match status with
      | some n => " (" ++ toString n ++ ")"
      | none => ""
    "Fetching '" ++ entity ++ "' failed" ++ code ++ ": " ++ reason
  | .invalidGraph errors => "Graph compilation failed:\n" ++ "\n".intercalate errors

/-- Whether a failure is one of the library's own, which pass through a reversal unchanged. -/
def isOwn : Failure → Bool
  | .cause _ => false
  | _ => true

end Failure

/-- A computation on values as one that may fail. -/
def liftFault {α : Type} (x : Except Fault α) : Except Failure α := x.mapError .ofFault

instance : MonadLift (Except Fault) (Except Failure) := ⟨liftFault⟩

end Semijoin
