import Semijoin.Proofs.Access.Find
import Semijoin.Proofs.Schema.Accepted
import Semijoin.Reversal

/-!
# A schema as a document

The document of a schema spells out every default, so it need not be the document that declared the schema.
It still declares the same schema, in the same order. An accepted graph gives what this needs: every relation
has a declared target and a foreign key, and every part is a document.
-/

namespace Semijoin
set_option autoImplicit false

namespace Value

/-- What iterating a document visits are documents. -/
theorem isDocument_iterate {v : Value} {items : List Value} (document : v.isDocument = true)
    (h : v.iterate = .ok items) : ∀ x ∈ items, x.isDocument = true := by
  cases v with
  | scalar s =>
    cases s with
    | text s =>
      cases h
      exact List.forall_mem_map.2 fun _ _ => rfl
    | _ => cases h
  | list xs =>
    cases h
    exact isDocument_list.1 document
  | map entries =>
    cases h
    refine List.forall_mem_map.2 fun e mem => ?_
    obtain ⟨name, part, rfl⟩ := (isDocument_map.1 document).exists_text mem
    rfl
  | record fields => cases h

theorem isDocument_getD {v other : Value} (document : v.isDocument = true) (fallback : other.isDocument = true)
    (key : String) : ((v.get? key).getD other).isDocument = true := by
  cases found : v.get? key with
  | none => exact fallback
  | some w => exact isDocument_get? document found

end Value

namespace Schema

/-- What an accepted graph declares: a sound schema, made of documents, whose relations have targets and keys. -/
structure Declared (schema : Schema) : Prop where
  sound : schema.Sound
  version : schema.version.isDocument = true
  primaryKey : ∀ e ∈ schema.entities, e.primaryKey.isDocument = true
  fields : ∀ e ∈ schema.entities, ∀ f ∈ e.fields, f.isDocument = true
  target : ∀ e ∈ schema.entities, ∀ r ∈ e.relations, r.target ≠ ""
  foreignKey : ∀ e ∈ schema.entities, ∀ r ∈ e.relations,
    r.foreignKey.truthy = true ∧ r.foreignKey.isDocument = true

/-- The key and the fields of an entity are parts of its document. -/
theorem isDocument_buildEntity {name : String} {source : Value} {e : Entity} (document : source.isDocument = true)
    (h : buildEntity name source = .ok e) :
    e.primaryKey.isDocument = true ∧ ∀ f ∈ e.fields, f.isDocument = true := by
  unfold buildEntity at h
  have key : ((source.get? "primary_key").getD (.text "id")).isDocument = true :=
    Value.isDocument_getD document rfl "primary_key"
  cases listed : source.get? "fields" with
  | none =>
    rw [listed] at h
    cases h
    exact ⟨key, by simp⟩
  | some v =>
    rw [listed] at h
    obtain ⟨fields, iterated, h⟩ := bind_eq_ok.1 h
    cases h
    exact ⟨key, Value.isDocument_iterate (Value.isDocument_get? document listed) iterated⟩

theorem declared_of_ofValue {graph : Value} {schema : Schema} (document : graph.isDocument = true)
    (accepted : ofValue graph = .ok schema) : schema.Declared := by
  obtain ⟨entries, found, lawful, built, version⟩ := declare_eq_ok (ofValue_eq_ok accepted)
  have doc : Value.DocumentEntries entries := Value.documentEntries_of (Value.isDocument_get? document found)
  -- every relation of an entity is built from a document that violates no rule
  have relation {e : Entity} (he : e ∈ schema.entities) {r : Relation} (hr : r ∈ e.relations) :
      ∃ name source, r = buildRelation name source ∧ source.isDocument = true ∧
        relationViolations entries e.name name source = .ok [] := by
    obtain ⟨-, relations, -, -, eq, doc', none⟩ := declared_source doc lawful built he
    rw [eq] at hr
    obtain ⟨entry, mem, rfl⟩ := List.mem_map.1 hr
    exact ⟨_, entry.2, rfl, doc'.below entry mem, none entry mem⟩
  refine ⟨sound_of_ofValue document accepted, ?_, fun e he => ?_, fun e he => ?_, fun e he r hr => ?_,
    fun e he r hr => ?_⟩
  · rw [version]
    exact Value.isDocument_getD document rfl _
  · obtain ⟨source, -, isDocument, eq, -⟩ := declared_source doc lawful built he
    exact (isDocument_buildEntity isDocument eq).1
  · obtain ⟨source, -, isDocument, eq, -⟩ := declared_source doc lawful built he
    exact (isDocument_buildEntity isDocument eq).2
  · obtain ⟨name, source, rfl, -, none⟩ := relation he hr
    exact (target_of_lawful doc none).1
  · obtain ⟨name, source, rfl, isDocument, none⟩ := relation he hr
    exact ⟨(relationViolations_eq_nil none).1, Value.isDocument_getD isDocument rfl _⟩

section Written

variable {entries : List (Scalar × Value)}

theorem relationViolations_relationValue {r : Relation} (owner name : String) (given : r.target ≠ "")
    (declared : (Entries.find? (.text r.target) entries).isSome = true) (key : r.foreignKey.truthy = true) :
    relationViolations entries owner name (relationValue r) = .ok [] := by
  have kind : (relationValue r).get? "kind" = some (.text r.kind.name) := rfl
  have target : (relationValue r).get? "target" = some (.text r.target) := rfl
  have foreignKey : (relationValue r).get? "foreign_key" = some r.foreignKey := rfl
  have known : kindOf? (.text r.kind.name) = some r.kind := RelationKind.ofName?_name r.kind
  have noProblem : targetProblem? entries (.text r.target) = .ok none := by
    have truthy : (Value.text r.target).truthy = true := by simpa [Value.truthy] using given
    simp only [targetProblem?, truthy, Value.asKey, bind, Except.bind, declared]
    rfl
  unfold relationViolations
  rw [kind, target, foreignKey]
  simp only [Option.getD_some, Value.asKey, bind, Except.bind, noProblem, known, key]
  rfl

theorem buildRelation_relationValue (r : Relation) : buildRelation r.name (relationValue r) = r := by
  have kind : (relationValue r).get? "kind" = some (.text r.kind.name) := rfl
  have known : kindOf? (.text r.kind.name) = some r.kind := RelationKind.ofName?_name r.kind
  rw [buildRelation, kind]
  simp only [known]
  rfl

theorem relationsOf_entityValue (e : Entity) :
    relationsOf (entityValue e) = .map (e.relations.map fun r => (.text r.name, relationValue r)) := by
  have written : (entityValue e).get? "relations" =
      some (.ofFields (e.relations.map fun r => (r.name, relationValue r))) := rfl
  rw [relationsOf, written, Value.ofFields, List.map_map]
  rfl

theorem buildEntity_entityValue (e : Entity) : buildEntity e.name (entityValue e) = .ok e := by
  have again : (e.relations.map fun r => (Scalar.text r.name, relationValue r)).map
      (fun r => buildRelation r.1.shown r.2) = e.relations := by
    rw [List.map_map]
    exact (List.map_congr_left fun r _ => buildRelation_relationValue r).trans (List.map_id _)
  have fields : (entityValue e).get? "fields" = some (.list e.fields) := rfl
  have key : (entityValue e).get? "primary_key" = some e.primaryKey := rfl
  rw [buildEntity, fields, relationsOf_entityValue]
  simp only [again, key]
  rfl

theorem buildEntities_entityValues (es : List Entity) :
    buildEntities (es.map fun e => (.text e.name, entityValue e)) = .ok es := by
  induction es with
  | nil => rfl
  | cons e rest ih =>
    have here : buildEntity (Scalar.text e.name).shown (entityValue e) = .ok e := buildEntity_entityValue e
    rw [List.map_cons, buildEntities, here, ih]
    rfl

end Written

/-- The entries of a schema's document name its entities. -/
theorem find?_entityValues {es : List Entity} {name : String} (h : name ∈ es.map (·.name)) :
    (Entries.find? (.text name) (es.map fun e => (Scalar.text e.name, entityValue e))).isSome = true := by
  induction es with
  | nil => cases h
  | cons e rest ih =>
    rw [List.map_cons, Entries.find?_cons, Scalar.same_text]
    rcases List.mem_cons.1 h with rfl | later
    · simp
    · split
      · rfl
      · exact ih later

/-- The document of a declared schema violates no rule. -/
theorem Declared.entitiesViolations_eq {schema : Schema} (declared : schema.Declared) :
    entitiesViolations (schema.entities.map fun e => (.text e.name, entityValue e))
      (schema.entities.map fun e => (.text e.name, entityValue e)) = .ok [] := by
  refine entitiesViolations_nil (List.forall_mem_map.2 fun e mem => ?_)
  rw [entityViolations, relationsOf_entityValue]
  refine relationsViolations_nil (List.forall_mem_map.2 fun r memR => ?_)
  obtain ⟨t, found⟩ := declared.sound.closed e mem r memR
  have named : r.target ∈ schema.entities.map (·.name) := List.mem_map.2 ⟨t, find?_eq_some found⟩
  exact relationViolations_relationValue _ _ (declared.target e mem r memR) (find?_entityValues named)
    (declared.foreignKey e mem r memR).1

/-- **The document of a declared schema declares it.** -/
theorem Declared.ofValue_toValue {schema : Schema} (declared : schema.Declared) :
    ofValue schema.toValue = .ok schema := by
  have entities : schema.toValue.getKey (.text "entities") =
      .ok (.map (schema.entities.map fun e => (.text e.name, entityValue e))) := by
    rw [toValue, Value.ofFields, Value.ofFields, List.map_map]
    rfl
  have version : schema.toValue.get? "version" = some schema.version := rfl
  have lawful := declared.entitiesViolations_eq
  have declares : declare schema.toValue = .ok (.ok schema) := by
    rw [declare, entities]
    show ((entitiesViolations _ _) >>= _) = _
    rw [lawful]
    simp only [bind, Except.bind, List.isEmpty_nil, if_true, buildEntities_entityValues, version]
    rfl
  rw [ofValue, declares]
  rfl

/-- The document of a declared schema is one: every name stands in it once. -/
theorem Declared.isDocument_toValue {schema : Schema} (declared : schema.Declared) :
    schema.toValue.isDocument = true := by
  have relation (r : Relation) (key : r.foreignKey.isDocument = true) : (relationValue r).isDocument = true := by
    refine Value.isDocument_ofFields (by simp) ?_
    simp [Value.isDocument, Scalar.isWritable, key]
  have entity (e : Entity) (mem : e ∈ schema.entities) : (entityValue e).isDocument = true := by
    have relations : (Value.ofFields (e.relations.map fun r => (r.name, relationValue r))).isDocument = true := by
      refine Value.isDocument_ofFields ?_ (List.forall_mem_map.2 fun r memR =>
        relation r (declared.foreignKey e mem r memR).2)
      rw [List.map_map]
      exact declared.sound.relationsOnce e mem
    refine Value.isDocument_ofFields (by simp) ?_
    simp [declared.primaryKey e mem, Value.isDocument_list.2 (declared.fields e mem), relations]
  have entities : (Value.ofFields (schema.entities.map fun e => (e.name, entityValue e))).isDocument = true := by
    refine Value.isDocument_ofFields ?_ (List.forall_mem_map.2 entity)
    rw [List.map_map]
    exact declared.sound.entitiesOnce
  refine Value.isDocument_ofFields (by simp) ?_
  simp [declared.version, entities]

/-- **A schema survives being written as a document.** The document of an accepted graph's schema is accepted
and declares the same schema, so nothing that depends on the schema can tell the two apart, and writing it once
more gives the same document. -/
theorem toValue_declares_same [Attributes] {graph : Value} {schema : Schema} (document : graph.isDocument = true)
    (accepted : ofValue graph = .ok schema) :
    schema.toValue.isDocument = true ∧ ofValue schema.toValue = .ok schema ∧
    ∀ again, ofValue schema.toValue = .ok again →
      again.toValue = schema.toValue ∧
      (∀ root path maxDepth, Path.resolve again root path maxDepth = Path.resolve schema root path maxDepth) ∧
      (∀ start visited, Path.relationNames again start visited = Path.relationNames schema start visited) ∧
      (∀ owner target, again.firstTo? owner target = schema.firstTo? owner target) ∧
      ∀ (σ : Type) (access : Schema → Access σ) options root path condition,
        Reversal.run (access again) again options root path condition =
          Reversal.run (access schema) schema options root path condition := by
  have declared := declared_of_ofValue document accepted
  refine ⟨declared.isDocument_toValue, declared.ofValue_toValue, fun again acceptedAgain => ?_⟩
  rw [declared.ofValue_toValue] at acceptedAgain
  obtain rfl := Except.ok.inj acceptedAgain
  exact ⟨rfl, fun _ _ _ => rfl, fun _ _ => rfl, fun _ _ => rfl, fun _ _ _ _ _ _ => rfl⟩

end Schema

namespace Loose

/-- A graph that leaves out what has a default, gives nulls where others have values, and lists fields by a text
and by the names of a mapping. -/
def graph : Value := .ofFields [("version", .null), ("entities", .ofFields [
  ("Parent", .ofFields [("primary_key", .int 5), ("fields", .text "xy"), ("relations", .ofFields [
    ("second", Sample.relation "hasMany" "Child" "b"), ("first", Sample.relation "hasMany" "Child" "a")])]),
  ("Child", .ofFields [("fields", .ofFields [("b", .null), ("a", .null)])])])]

def schema : Schema := ⟨.null, [
  ⟨"Parent", .int 5, [.text "x", .text "y"],
    [⟨"second", .hasMany, "Child", .text "b"⟩, ⟨"first", .hasMany, "Child", .text "a"⟩]⟩,
  ⟨"Child", .text "id", [.text "b", .text "a"], []⟩]⟩

end Loose

namespace Schema

set_option maxRecDepth 2000 in
/-- The document of a schema whose graph leaves defaults out. -/
theorem toValue_declares_same_loose :
    ofValue Loose.graph = .ok Loose.schema ∧ Loose.schema.toValue.isDocument = true ∧
      ofValue Loose.schema.toValue = .ok Loose.schema :=
  have again := toValue_declares_same (by decide : Loose.graph.isDocument = true)
    (rfl : ofValue Loose.graph = .ok Loose.schema)
  ⟨rfl, again.1, again.2.1⟩

end Schema

end Semijoin
