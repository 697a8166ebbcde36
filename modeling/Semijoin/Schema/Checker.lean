import Semijoin.Access.Basic
import Semijoin.Schema.Declaration

/-!
# Checking one graph document after another

A checker adds the violations that it comes upon to a list, which the result of the check shares with it. Every check
begins a list of its own: what an earlier one gave stays as it is, and what was noted before a fault is in no result.
-/

set_option autoImplicit false

namespace Semijoin

/-- A checker: all lists that were begun, and the number of the one in use. -/
structure Checker where
  lists : List (List Violation)
  current : Nat
  deriving DecidableEq, Inhabited

namespace Checker

/-- A checker before its first check. -/
def new : Checker := ⟨[[]], 0⟩

/-- What a check gives: a schema if there is no violation, and the number of a list. -/
structure Result where
  schema : Option Schema
  errors : Nat
  deriving Inhabited, BEq

/-- The violations in a list. -/
def errors (c : Checker) (number : Nat) : List Violation := c.lists[number]?.getD []

/-- Begins a list, which is put to use. -/
def begun (c : Checker) : Checker := ⟨c.lists ++ [[]], c.lists.length⟩

/-- Begins a list that stays empty. -/
def spared (c : Checker) : Checker := { c with lists := c.lists ++ [[]] }

/-- Adds violations to the list in use. -/
def extended (vs : List Violation) (c : Checker) : Checker :=
  { c with lists := c.lists.modify c.current (· ++ vs) }

/-- Adds one violation. -/
def note (v : Violation) : Action Checker Unit := .update (extended [v])

/-- Adds the violation of a relation by a problem, if there is one. -/
def report (owner name : String) : Option String → Action Checker Unit
  | some problem => note ⟨some owner, some name, problem⟩
  | none => pure ()

/-- Checks one relation: its kind, then its target, then its foreign key. -/
def relation (entities : List (Scalar × Value)) (owner name : String) (rel : Value) : Action Checker Unit :=
  if !rel.isMap then report owner name (some "Relation definition must be a mapping")
  else do
    let kind := (rel.get? "kind").getD .null
    let known := Schema.kindOf? (← Action.ofValues kind.asKey)
    report owner name
      (if known.isSome then none else some ("Invalid kind '" ++ kind.shown ++ "', must be one of " ++ Schema.kindNames))
    report owner name (← Action.ofValues (Schema.targetProblem? entities ((rel.get? "target").getD .null)))
    report owner name
      (if ((rel.get? "foreign_key").getD .null).truthy then none else some "Missing foreign_key")

/-- Checks the relations of one entity. -/
def relations (entities : List (Scalar × Value)) (owner : String) : List (Scalar × Value) → Action Checker Unit
  | [] => pure ()
  | (name, rel) :: rest => do
    relation entities owner name.shown rel
    relations entities owner rest

/-- Checks one entity. -/
def entity (entities : List (Scalar × Value)) (name : String) (doc : Value) : Action Checker Unit :=
  if !doc.isMap then note ⟨some name, none, "Entity definition must be a mapping"⟩
  else
    match Schema.relationsOf doc with
    | .map declared => relations entities name declared
    | _ => note ⟨some name, none, "'relations' must be a mapping"⟩

/-- Checks several entities. -/
def entities (all : List (Scalar × Value)) : List (Scalar × Value) → Action Checker Unit
  | [] => pure ()
  | (name, doc) :: rest => do
    entity all name.shown doc
    entities all rest

/-- The state of a checker. -/
def state : Action Checker Checker := ExceptT.lift get

/-- Checks a graph document. -/
def check (graph : Value) : Action Checker Result := do
  Action.update begun
  match ← Action.ofValues (graph.getKey (.text "entities")) with
  | .map all =>
    entities all all
    let c ← state
    if (c.errors c.current).isEmpty then
      let built ← Action.ofValues (Schema.buildEntities all)
      Action.update spared
      return ⟨some ⟨(graph.get? "version").getD (.int 1), built⟩, c.lists.length⟩
    else return ⟨none, c.current⟩
  | _ =>
    note ⟨none, none, "'entities' must be a mapping"⟩
    let c ← state
    return ⟨none, c.current⟩

/-- Checks graph documents in turn, whatever comes of each. -/
def checkAll (graphs : List Value) : StateM Checker (List (Except Failure Result)) :=
  graphs.mapM fun graph => (check graph).outcome

/-- What a result shows: its schema, and the violations that its list holds. -/
def Result.shown (c : Checker) (r : Result) : Option Schema × List Violation := (r.schema, c.errors r.errors)

end Checker

end Semijoin
