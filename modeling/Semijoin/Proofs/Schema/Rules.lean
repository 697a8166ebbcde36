import Semijoin.Proofs.Place
import Semijoin.Proofs.Schema.Accepted

/-!
# The rules of graph documents

What a graph document must be, and where and how it may break a rule. A place is the number of an entity, followed by
the number of one of its relations and of a rule for relations; places are ordered as they are read. The violations of
a document are exactly its broken rules, each once and in the order of their places.
-/

namespace Semijoin
set_option autoImplicit false

/-- An entry of a mapping that stands under a name, and its number there. -/
def Value.EntryAt (v : Value) (under : String) (i : Nat) (name : String) (part : Value) : Prop :=
  ∃ entries, v.get? under = some (.map entries) ∧ entries[i]? = some (.text name, part)

section EntryAt

variable {v : Value} {under : String} {entries : List (Scalar × Value)}

theorem Value.entryAt_iff (given : v.get? under = some (.map entries)) {i : Nat} {name : String} {part : Value} :
    v.EntryAt under i name part ↔ entries[i]? = some (.text name, part) := by
  refine ⟨?_, fun at_ => ⟨entries, given, at_⟩⟩
  rintro ⟨entries', given', at_⟩
  rw [given] at given'
  cases given'
  exact at_

/-- Where there is no mapping, nothing stands. -/
theorem Value.not_entryAt (none : ∀ entries, v.get? under ≠ some (.map entries)) {i : Nat} {name : String}
    {part : Value} : ¬ v.EntryAt under i name part :=
  fun ⟨entries, given, _⟩ => none entries given

/-- Each entry of a mapping in a document has a number there, and a name. -/
theorem Value.exists_entryAt (document : v.isDocument = true) (given : v.get? under = some (.map entries))
    {e : Scalar × Value} (mem : e ∈ entries) :
    ∃ i name part, e = (.text name, part) ∧ v.EntryAt under i name part := by
  obtain ⟨name, part, rfl⟩ := (isDocument_map.1 (isDocument_get? document given)).exists_text mem
  obtain ⟨i, at_⟩ := List.mem_iff_getElem?.1 mem
  exact ⟨i, name, part, rfl, entries, given, at_⟩

end EntryAt

namespace Schema

/-- The rules for a relation, given what is an entity. -/
structure LawfulRelation (isEntity : String → Prop) (rel : Value) : Prop where
  mapping : rel.isMap = true
  kind : ∃ k : RelationKind, rel.get? "kind" = some (.text k.name)
  target : ∃ s, rel.get? "target" = some (.text s) ∧ s ≠ "" ∧ isEntity s
  foreignKey : ∃ v, rel.get? "foreign_key" = some v ∧ v.truthy = true

/-- A name under which a graph document declares an entity. -/
def IsEntity (graph : Value) (name : String) : Prop := ∃ i doc, graph.EntryAt "entities" i name doc

/-- The rules for a graph document. -/
structure Lawful (graph : Value) : Prop where
  entities : ∃ entries, graph.get? "entities" = some (.map entries)
  entity : ∀ i name doc, graph.EntryAt "entities" i name doc → doc.isMap = true
  relations : ∀ i name doc, graph.EntryAt "entities" i name doc → ∀ v, doc.get? "relations" = some v → v.isMap = true
  relation : ∀ i name doc, graph.EntryAt "entities" i name doc → ∀ j relation rel,
    doc.EntryAt "relations" j relation rel → LawfulRelation (IsEntity graph) rel

/-- The rules that a relation breaks, by number and wording. -/
inductive RelationBreaks (isEntity : String → Prop) (rel : Value) : List Nat → String → Prop
  | notMapping (bad : rel.isMap = false) : RelationBreaks isEntity rel [] "Relation definition must be a mapping"
  | kind (mapping : rel.isMap = true) (unknown : ∀ k : RelationKind, rel.get? "kind" ≠ some (.text k.name)) :
      RelationBreaks isEntity rel [0]
        ("Invalid kind '" ++ ((rel.get? "kind").getD .null).shown ++ "', must be one of " ++ kindNames)
  | noTarget (mapping : rel.isMap = true) (missing : ((rel.get? "target").getD .null).truthy = false) :
      RelationBreaks isEntity rel [1] "Missing target"
  | target (mapping : rel.isMap = true) (given : ((rel.get? "target").getD .null).truthy = true)
      (undeclared : ∀ s, rel.get? "target" = some (.text s) → ¬ isEntity s) :
      RelationBreaks isEntity rel [1] ("Unknown target entity '" ++ ((rel.get? "target").getD .null).shown ++ "'")
  | foreignKey (mapping : rel.isMap = true) (missing : ((rel.get? "foreign_key").getD .null).truthy = false) :
      RelationBreaks isEntity rel [2] "Missing foreign_key"

/-- The rules that an entity and its relations break. -/
inductive EntityBreaks (isEntity : String → Prop) (doc : Value) : List Nat → Option String → String → Prop
  | notMapping (bad : doc.isMap = false) : EntityBreaks isEntity doc [] none "Entity definition must be a mapping"
  | relations {v : Value} (given : doc.get? "relations" = some v) (bad : v.isMap = false) :
      EntityBreaks isEntity doc [] none "'relations' must be a mapping"
  | relation {j : Nat} {name message : String} {rel : Value} {place : List Nat}
      (declared : doc.EntryAt "relations" j name rel) (breaks : RelationBreaks isEntity rel place message) :
      EntityBreaks isEntity doc (j :: place) (some name) message

/-- The rules that a graph document breaks: where, and the violation of each. -/
inductive Breaks (graph : Value) : List Nat → Violation → Prop
  | entities (bad : ∀ entries, graph.get? "entities" ≠ some (.map entries)) :
      Breaks graph [] ⟨none, none, "'entities' must be a mapping"⟩
  | entity {i : Nat} {name message : String} {relation : Option String} {doc : Value} {place : List Nat}
      (declared : graph.EntryAt "entities" i name doc)
      (breaks : EntityBreaks (IsEntity graph) doc place relation message) :
      Breaks graph (i :: place) ⟨some name, relation, message⟩

section Lawful

variable {isEntity : String → Prop} {graph rel : Value}

theorem lawfulRelation_iff :
    LawfulRelation isEntity rel ↔ ∀ place message, ¬ RelationBreaks isEntity rel place message := by
  constructor
  · intro lawful place message breaks
    obtain ⟨mapping, ⟨kind, isKind⟩, ⟨target, isTarget, some_, entity⟩, key, isKey, given⟩ := lawful
    cases breaks with
    | notMapping bad => exact absurd mapping (by simp [bad])
    | kind _ unknown => exact unknown kind isKind
    | noTarget _ missing => simp [isTarget, Value.truthy, some_] at missing
    | target _ _ undeclared => exact undeclared target isTarget entity
    | foreignKey _ missing => simp [isKey, given] at missing
  · intro none
    have mapping : rel.isMap = true := by
      by_contra bad
      exact none _ _ (.notMapping (by simpa using bad))
    refine ⟨mapping, ?_, ?_, ?_⟩
    · by_contra unknown
      exact none _ _ (.kind mapping fun k eq => unknown ⟨k, eq⟩)
    · have given : ((rel.get? "target").getD .null).truthy = true := by
        by_contra missing
        exact none _ _ (.noTarget mapping (by simpa using missing))
      by_contra undeclared
      refine none _ _ (.target mapping given fun s eq entity => undeclared ⟨s, eq, ?_, entity⟩)
      rintro rfl
      simp [eq, Value.truthy] at given
    · have given : ((rel.get? "foreign_key").getD .null).truthy = true := by
        by_contra missing
        exact none _ _ (.foreignKey mapping (by simpa using missing))
      cases found : rel.get? "foreign_key" with
      | none => simp [found, Value.truthy] at given
      | some v => exact ⟨v, rfl, by simpa [found] using given⟩

/-- A graph document is lawful if it breaks no rule. -/
theorem lawful_iff : Lawful graph ↔ ∀ place violation, ¬ Breaks graph place violation := by
  constructor
  · intro lawful place violation breaks
    cases breaks with
    | entities bad =>
      obtain ⟨entries, eq⟩ := lawful.entities
      exact bad entries eq
    | entity declared breaks =>
      cases breaks with
      | notMapping bad => exact absurd (lawful.entity _ _ _ declared) (by simp [bad])
      | relations given bad => exact absurd (lawful.relations _ _ _ declared _ given) (by simp [bad])
      | relation related breaks =>
        exact lawfulRelation_iff.1 (lawful.relation _ _ _ declared _ _ _ related) _ _ breaks
  · intro none
    refine ⟨?_, fun i name doc declared => ?_, fun i name doc declared v given => ?_,
      fun i name doc declared j relation rel related => lawfulRelation_iff.2 fun place message breaks => ?_⟩
    · by_contra bad
      exact none _ _ (.entities fun entries eq => bad ⟨entries, eq⟩)
    · by_contra bad
      exact none _ _ (.entity declared (.notMapping (by simpa using bad)))
    · by_contra bad
      exact none _ _ (.entity declared (.relations given (by simpa using bad)))
    · exact none _ _ (.entity declared (.relation related breaks))

end Lawful

end Schema

end Semijoin
