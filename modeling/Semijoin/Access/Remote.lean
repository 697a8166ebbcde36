import Semijoin.Http.Internal

/-!
# Finds in other services

An entity may be served elsewhere: a find is sent to the service registered for it, and the items of the
answer are the records. An answer with another status than 200, or none at all, fails the fetch; an answer
that can not be read is an error of its own.
-/

set_option autoImplicit false

namespace Semijoin

/-- What sending a request comes to: a response, one whose body is given as the bytes that arrived, or an error of
the transport. -/
inductive Delivery where
  | response (r : Response)
  | raw (status : Nat) (bytes : List UInt8)
  | lost (error text : String)
  deriving Inhabited

/-- What carries requests to services. -/
structure Transport (σ : Type) where
  send : (url : String) → (content : Value) → StateM σ Delivery

namespace Remote

variable {σ : Type}

/-- A text without the slashes at its end. -/
def withoutSlashes (s : String) : String := String.ofList (s.toList.reverse.dropWhile (· == '/')).reverse

/-- The address at which a service finds records. -/
def address (service : String) : String := withoutSlashes service ++ "/internal/find"

/-- The document of a find. -/
def request (entity : String) (condition include_ : Value) : Value :=
  .ofFields [("entity", .text entity), ("where", condition), ("include", include_)]

/-- Why a document can not be sent as a find, if it can not. -/
def unsendable? (content : Value) : Option Cause :=
  match Shape.findRequestIssues [] content with
  | [] => if Json.isStrict content then none else some .notStrict
  | issues => some (.shape .findRequest issues)

/-- The records in what the body of a good answer was read as. -/
def records (read : Except Json.BytesFault Value) : Except Failure Value :=
  match read with
  | .error f => .error (.cause (.document f))
  | .ok v =>
    match Shape.findResponseIssues v with
    | [] => .ok (.list (Shape.responseItems v))
    | issues => .error (.cause (.shape .findResponse issues))

/-- The records that a delivery brings. -/
def received (entity : String) : Delivery → Except Failure Value
  | .lost error text => .error (.accessFailed entity text (some 0) (some (.transport error text)))
  | .response r =>
    if r.status = 200 then records r.body.read else .error (.accessFailed entity r.body.shown (some r.status) none)
  | .raw status bytes =>
    if status = 200 then records (Json.readBytes bytes)
    else .error (.accessFailed entity (Text.Utf8.repair bytes) (some status) none)

/-- Finds records in the services registered for their entities. -/
def access (services : List (String × String)) (transport : Transport σ) : Access σ where
  find entity condition include_ := do
    match (services.lookup entity).filter (· != "") with
    | none => throw (.accessFailed entity "No service registered" none none)
    | some service =>
      let content := request entity condition include_
      match unsendable? content with
      | some c => throw (.cause c)
      | none => Action.ofExcept (received entity (← ExceptT.lift (transport.send (address service) content)))

/-- The path of an address: what follows the host. -/
def pathOf (url : String) : String :=
  let afterScheme (cs : List Char) : List Char := (cs.dropWhile (· != '/')).drop 2
  String.ofList ((afterScheme url.toList).dropWhile (· != '/'))

/-- Carries every request to one router, whatever the host. -/
def toRouter (router : InternalRouter σ) : Transport σ where
  send url content := do
    return .response (← router.handle ⟨"POST", pathOf url, [], some (.json content)⟩)

/-- A request as it was sent. -/
structure Sent where
  url : String
  content : Value
  deriving Inhabited

/-- Deliveries still to come, and the requests sent so far. -/
structure Script where
  deliveries : List Delivery
  sent : List Sent
  deriving Inhabited

/-- Answers requests by deliveries, one after the other. -/
def scripted : Transport Script where
  send url content := do
    let script ← get
    set (⟨script.deliveries.drop 1, script.sent ++ [⟨url, content⟩]⟩ : Script)
    return script.deliveries.headD (.lost "ConnectError" "")

end Remote

end Semijoin
