import Semijoin.Value.Equality

/-!
# Shapes of requests

A document that is a mapping may still not have the shape of a filter, a find request or a find response.
Checking a shape reports every place that is wrong, fields in the order of the shape and entries and items
in their own.
-/

set_option autoImplicit false

namespace Semijoin

/-- One step toward a place inside a document. -/
inductive Step where
  | key (name : String)
  | index (n : Nat)
  deriving DecidableEq, Inhabited

/-- What is wrong at a place of a document. -/
inductive Defect where
  | notMapping
  | notList
  | notText
  | notModel
  | notObject
  | missing
  | invalidJson
  | unreadableBool
  | notBool
  | unreadableInt
  | longInt
  | notInt
  | fractional
  | notFinite
  | unreadableFloat
  | notFloat
  | notAmong
  deriving DecidableEq, Inhabited

/-- The name under which a defect is reported. -/
def Defect.name : Defect → String
  | .notMapping => "dict_type"
  | .notList => "list_type"
  | .notText => "string_type"
  | .notModel => "model_type"
  | .notObject => "model_attributes_type"
  | .missing => "missing"
  | .invalidJson => "json_invalid"
  | .unreadableBool => "bool_parsing"
  | .notBool => "bool_type"
  | .unreadableInt => "int_parsing"
  | .longInt => "int_parsing_size"
  | .notInt => "int_type"
  | .fractional => "int_from_float"
  | .notFinite => "finite_number"
  | .unreadableFloat => "float_parsing"
  | .notFloat => "float_type"
  | .notAmong => "literal_error"

/-- A defect and its place. -/
structure Issue where
  place : List Step
  defect : Defect
  deriving DecidableEq, Inhabited

/-- The shapes that documents are checked against. -/
inductive Shape where
  | filter
  | findRequest
  | findResponse
  | settings
  deriving DecidableEq, Inhabited

def Shape.name : Shape → String
  | .filter => "RequireFilter"
  | .findRequest => "FindRequest"
  | .findResponse => "FindResponse"
  | .settings => "Settings"

/-- The first line of a report on a shape. -/
def Shape.summary (shape : Shape) (issues : List Issue) : String :=
  toString issues.length ++ (if issues.length = 1 then " validation error for " else " validation errors for ") ++
    shape.name

namespace Value

def isMap : Value → Bool
  | .map _ => true
  | _ => false

def isText : Value → Bool
  | .text _ => true
  | _ => false

def isList : Value → Bool
  | .list _ => true
  | _ => false

end Value

namespace Shape

/-- An optional mapping at a place. -/
def mappingIssues (place : List Step) : Option Value → List Issue
  | none => []
  | some v => if v.isNull || v.isMap then [] else [⟨place, .notMapping⟩]

/-- The issues of a `require` section: an optional mapping of optional mappings. -/
def requireIssues : Option Value → List Issue
  | some (.map entries) => entries.flatMap fun e =>
      match e.1 with
      | .text path => mappingIssues [.key "require", .key path] (some e.2)
      | _ => []
  | other => mappingIssues [.key "require"] other

/-- The issues of a mapping as a filter; further keys are free. -/
def filterIssues (v : Value) : List Issue :=
  mappingIssues [.key "where"] (v.get? "where") ++ requireIssues (v.get? "require")

/-- The issues of an include specification in a request: null, or one of three kinds. -/
def includeIssues (place : List Step) : Option Value → List Issue
  | none => []
  | some v =>
    if v.isNull || v.isMap || v.isList || v.isText then []
    else
      [⟨place ++ [.key "dict[str,any]"], .notMapping⟩, ⟨place ++ [.key "list[any]"], .notList⟩,
        ⟨place ++ [.key "str"], .notText⟩]

/-- The issues of a mapping as a find request. -/
def findRequestIssues (place : List Step) (v : Value) : List Issue :=
  (match v.get? "entity" with
    | none => [⟨place ++ [.key "entity"], .missing⟩]
    | some entity => if entity.isText then [] else [⟨place ++ [.key "entity"], .notText⟩]) ++
  mappingIssues (place ++ [.key "where"]) (v.get? "where") ++
  includeIssues (place ++ [.key "include"]) (v.get? "include")

/-- The issues of a list of records, counted from an index on. -/
def itemsIssuesFrom (index : Nat) : List Value → List Issue
  | [] => []
  | v :: rest =>
    (if v.isMap then [] else [⟨[.key "items", .index index], .notMapping⟩]) ++ itemsIssuesFrom (index + 1) rest

/-- The issues of a value as a find response, whose items default to none. -/
def findResponseIssues (v : Value) : List Issue :=
  match v with
  | .map _ =>
    match v.get? "items" with
    | none => []
    | some (.list items) => itemsIssuesFrom 0 items
    | some _ => [⟨[.key "items"], .notList⟩]
  | _ => [⟨[], .notModel⟩]

/-- The items of a find response. -/
def responseItems (v : Value) : List Value :=
  match v.get? "items" with
  | some (.list items) => items
  | _ => []

end Shape

end Semijoin
