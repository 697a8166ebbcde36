import Semijoin.Proofs.Schema.Exact

/-!
# A lawful document declares its schema

A document that breaks no rule is built to a schema that has its entities and relations, in their order and with what
is written for each, or by default. A document that breaks one gives the list of its violations.
-/

namespace Semijoin
set_option autoImplicit false

namespace Schema

/-- A relation as its document declares it. -/
structure DeclaresRelation (entry : Scalar × Value) (r : Relation) : Prop where
  name : entry.1 = .text r.name
  kind : entry.2.get? "kind" = some (.text r.kind.name)
  target : entry.2.get? "target" = some (.text r.target)
  foreignKey : entry.2.get? "foreign_key" = some r.foreignKey

/-- An entity as its document declares it; the key and what it has of fields and relations have defaults. -/
structure DeclaresEntity (entry : Scalar × Value) (e : Entity) : Prop where
  name : entry.1 = .text e.name
  primaryKey : e.primaryKey = (entry.2.get? "primary_key").getD (.text "id")
  fields : (entry.2.get? "fields").getD (.list []) = .list e.fields
  relations : ∃ relations, (entry.2.get? "relations").getD (.map []) = .map relations ∧
    List.Forall₂ DeclaresRelation relations e.relations

/-- A schema as a graph document declares it. -/
structure DeclaresSchema (graph : Value) (schema : Schema) : Prop where
  version : schema.version = (graph.get? "version").getD (.int 1)
  entities : ∃ entities, graph.get? "entities" = some (.map entities) ∧
    List.Forall₂ DeclaresEntity entities schema.entities
  closed : ∀ e ∈ schema.entities, ∀ r ∈ e.relations, ∃ t ∈ schema.entities, t.name = r.target

section Build

variable {isEntity : String → Prop}

theorem buildRelation_declares {name : String} {rel : Value} (lawful : LawfulRelation isEntity rel) :
    DeclaresRelation (.text name, rel) (buildRelation name rel) ∧ isEntity (buildRelation name rel).target := by
  obtain ⟨-, ⟨kind, isKind⟩, ⟨target, isTarget, -, entity⟩, key, isKey, -⟩ := lawful
  have known : kindOf? (.text kind.name) = some kind := kindOf?_eq_some.2 rfl
  have built : buildRelation name rel = ⟨name, kind, target, key⟩ := by
    rw [buildRelation, isKind, isTarget, isKey]
    simp only [known]
    rfl
  rw [built]
  exact ⟨⟨rfl, isKind, isTarget, isKey⟩, entity⟩

/-- The relations of a lawful entity are built one for each entry. -/
theorem buildRelations_declare {relations : List (Scalar × Value)} (document : Value.DocumentEntries relations)
    (lawful : ∀ r ∈ relations, LawfulRelation isEntity r.2) :
    List.Forall₂ DeclaresRelation relations (relations.map fun r => buildRelation r.1.shown r.2) ∧
      ∀ r ∈ relations.map fun r => buildRelation r.1.shown r.2, isEntity r.target := by
  constructor
  · rw [List.forall₂_map_right_iff, List.forall₂_same]
    intro r mem
    obtain ⟨name, rel, rfl⟩ := document.exists_text mem
    exact (buildRelation_declares (lawful _ mem)).1
  · exact List.forall_mem_map.2 fun r mem => (buildRelation_declares (lawful r mem)).2

/-- A lawful entity whose fields are a list is built as it is declared. -/
theorem buildEntity_declares {name : String} {doc : Value} (document : doc.isDocument = true)
    (relations : ∀ v, doc.get? "relations" = some v → v.isMap = true)
    (lawful : ∀ j relation rel, doc.EntryAt "relations" j relation rel → LawfulRelation isEntity rel)
    (fields : ∀ v, doc.get? "fields" = some v → v.isList = true) :
    ∃ e, buildEntity name doc = .ok e ∧ DeclaresEntity (.text name, doc) e ∧
      ∀ r ∈ e.relations, isEntity r.target := by
  obtain ⟨declared, given, each⟩ : ∃ declared, relationsOf doc = .map declared ∧
      ∀ r ∈ declared, LawfulRelation isEntity r.2 := by
    unfold relationsOf
    cases found : doc.get? "relations" with
    | none => exact ⟨[], rfl, by simp⟩
    | some v =>
      obtain ⟨declared, rfl⟩ := Value.isMap_iff.1 (relations v found)
      refine ⟨declared, rfl, fun r mem => ?_⟩
      obtain ⟨j, relation, rel, rfl, at_⟩ := Value.exists_entryAt document found mem
      exact lawful j relation rel at_
  obtain ⟨items, listed, built⟩ : ∃ items, (doc.get? "fields").getD (.list []) = .list items ∧
      buildEntity name doc = .ok ⟨name, (doc.get? "primary_key").getD (.text "id"), items,
        declared.map fun r => buildRelation r.1.shown r.2⟩ := by
    unfold buildEntity
    rw [given]
    cases found : doc.get? "fields" with
    | none => exact ⟨[], rfl, rfl⟩
    | some v =>
      cases v with
      | list items => exact ⟨items, rfl, rfl⟩
      | _ => cases fields _ found
  obtain ⟨all, entities⟩ :=
    buildRelations_declare (Value.isDocument_map.1 (isDocument_relationsOf document given)) each
  exact ⟨_, built, ⟨rfl, rfl, listed, declared, given, all⟩, entities⟩

theorem buildEntities_declare {entries : List (Scalar × Value)} (each : ∀ x ∈ entries, ∃ e,
      buildEntity x.1.shown x.2 = .ok e ∧ DeclaresEntity x e ∧ ∀ r ∈ e.relations, isEntity r.target) :
    ∃ built, buildEntities entries = .ok built ∧ List.Forall₂ DeclaresEntity entries built ∧
      ∀ e ∈ built, ∀ r ∈ e.relations, isEntity r.target := by
  induction entries with
  | nil => exact ⟨[], rfl, .nil, by simp⟩
  | cons x rest ih =>
    obtain ⟨⟨e, here, declares, targets⟩, later⟩ := List.forall_mem_cons.1 each
    obtain ⟨built, more, all, entities⟩ := ih later
    refine ⟨e :: built, ?_, .cons declares all, List.forall_mem_cons.2 ⟨targets, entities⟩⟩
    rw [buildEntities, here, more]
    rfl

end Build

variable {graph : Value}

section Declare

variable {all : List (Scalar × Value)} (key : graph.getKey (.text "entities") = .ok (.map all))

include key

theorem declare_of_fault {f : Fault} (collected : entitiesViolations all all = .error f) :
    declare graph = .error f := by
  rw [declare, key]
  simp only [bind, Except.bind, collected]

theorem declare_of_violations {vs : List Violation} (collected : entitiesViolations all all = .ok vs)
    (some_ : vs ≠ []) : declare graph = .ok (.error vs) := by
  rw [declare, key]
  simp only [bind, Except.bind, collected, List.isEmpty_iff, if_neg some_]
  rfl

/-- Entities without violations are built. -/
theorem declare_of_no_violations (collected : entitiesViolations all all = .ok []) :
    declare graph = (buildEntities all).map fun built => .ok ⟨(graph.get? "version").getD (.int 1), built⟩ := by
  rw [declare, key]
  simp only [bind, Except.bind, collected, List.isEmpty_nil, if_true]
  cases buildEntities all <;> rfl

end Declare

/-- A document without entities has one violation. -/
theorem declare_of_no_entities (mapping : graph.isMap = true)
    (bad : ∀ entities, graph.get? "entities" ≠ some (.map entities)) :
    declare graph = .ok (.error [⟨none, none, "'entities' must be a mapping"⟩]) := by
  rw [declare, Value.getKey_get? mapping]
  cases given : graph.get? "entities" with
  | none => rfl
  | some v =>
    cases v with
    | map entities => exact absurd given (bad entities)
    | _ => rfl

/-- What is declared under a name is an entity of the schema. -/
theorem exists_of_among {entities : List (Scalar × Value)} {built : List Entity}
    (declares : List.Forall₂ DeclaresEntity entities built) {name : String} (among : Among entities name) :
    ∃ t ∈ built, t.name = name := by
  obtain ⟨i, doc, at_⟩ := among
  induction declares generalizing i with
  | nil => cases at_
  | @cons entry e rest more declares _ ih =>
    cases i with
    | zero =>
      cases at_
      have named := declares.name
      exact ⟨e, by simp, (Scalar.text.inj named).symm⟩
    | succ i =>
      obtain ⟨t, mem, eq⟩ := ih i at_
      exact ⟨t, List.mem_cons_of_mem _ mem, eq⟩

/-- **A lawful document declares its schema.** -/
theorem declare_of_lawful (plain : Plain graph) (lawful : Lawful graph) :
    ∃ schema, declare graph = .ok (.ok schema) ∧ DeclaresSchema graph schema := by
  obtain ⟨entities, given⟩ := lawful.entities
  have document := Value.isDocument_map.1 (Value.isDocument_get? plain.document given)
  obtain ⟨found, collected, exact_⟩ := entitiesViolations_exact plain.document plain.scalars given
  obtain rfl : found = [] := exact_.eq_nil_iff.2 (lawful_iff.1 lawful)
  have each : ∀ x ∈ entities, ∃ e, buildEntity x.1.shown x.2 = .ok e ∧ DeclaresEntity x e ∧
      ∀ r ∈ e.relations, IsEntity graph r.target := by
    intro x mem
    obtain ⟨i, name, doc, rfl, declared⟩ := Value.exists_entryAt plain.document given mem
    exact buildEntity_declares (document.below _ mem) (lawful.relations i name doc declared)
      (lawful.relation i name doc declared) (plain.fields i name doc declared)
  obtain ⟨built, all, declares, targets⟩ := buildEntities_declare each
  have closed : ∀ e ∈ built, ∀ r ∈ e.relations, ∃ t ∈ built, t.name = r.target :=
    fun e mem r held => exists_of_among declares (isEntity_eq given ▸ targets e mem r held)
  refine ⟨⟨(graph.get? "version").getD (.int 1), built⟩, ?_, rfl, ⟨entities, given, declares⟩, closed⟩
  rw [declare_of_no_violations (Value.getKey_of_get? plain.mapping given) collected, all]
  rfl

/-- **A document that breaks a rule gives its violations.** -/
theorem declare_of_not_lawful (plain : Plain graph) (unlawful : ¬ Lawful graph) :
    ∃ violations, declare graph = .ok (.error violations) ∧ Exactly (Breaks graph) violations ∧ violations.Nodup ∧
      violations ≠ [] := by
  obtain ⟨violations, declared, exact_⟩ : ∃ violations, declare graph = .ok (.error violations) ∧
      Exactly (Breaks graph) violations := by
    by_cases mapping : ∃ entities, graph.get? "entities" = some (.map entities)
    · obtain ⟨entities, given⟩ := mapping
      obtain ⟨found, collected, exact_⟩ := entitiesViolations_exact plain.document plain.scalars given
      have some_ : found ≠ [] := fun none => unlawful (lawful_iff.2 (exact_.eq_nil_iff.1 none))
      exact ⟨found, declare_of_violations (Value.getKey_of_get? plain.mapping given) collected some_, exact_⟩
    · have bad (entities : List (Scalar × Value)) : graph.get? "entities" ≠ some (.map entities) :=
        fun given => mapping ⟨entities, given⟩
      refine ⟨_, declare_of_no_entities plain.mapping bad, .one [] fun p v => ⟨fun breaks => ?_, ?_⟩⟩
      · cases breaks with
        | entities => exact ⟨rfl, rfl⟩
        | entity declared => exact absurd declared (Value.not_entryAt bad)
      · rintro ⟨rfl, rfl⟩
        exact .entities bad
  refine ⟨violations, declared, exact_, exact_.nodup fun p p' v => Breaks.told plain.document, fun none => unlawful ?_⟩
  exact lawful_iff.2 (exact_.eq_nil_iff.1 none)

end Schema

end Semijoin
