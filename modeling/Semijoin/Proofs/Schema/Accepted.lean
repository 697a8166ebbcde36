import Semijoin.Proofs.Value.Document
import Semijoin.Schema.Declaration

/-!
# What an accepted graph guarantees

A graph document that is accepted declares every entity that a relation targets, and each entity and each
relation of an entity once. `sound_of_ofValue` reads this off the rules of declaration.
-/

namespace Semijoin
set_option autoImplicit false

theorem bind_eq_ok {ε α β : Type} {x : Except ε α} {f : α → Except ε β} {b : β} :
    (x >>= f) = .ok b ↔ ∃ a, x = .ok a ∧ f a = .ok b := by
  cases x <;> simp [bind, Except.bind]

theorem bind_eq_error {ε α β : Type} {x : Except ε α} {f : α → Except ε β} {e : ε} :
    (x >>= f) = .error e ↔ x = .error e ∨ ∃ a, x = .ok a ∧ f a = .error e := by
  cases x <;> simp [bind, Except.bind]

namespace Schema

/-- A schema is closed under its relations and names nothing twice. -/
structure Sound (schema : Schema) : Prop where
  closed : ∀ e ∈ schema.entities, ∀ r ∈ e.relations, ∃ t, schema.find? r.target = some t
  entitiesOnce : (schema.entities.map (·.name)).Nodup
  relationsOnce : ∀ e ∈ schema.entities, (e.relations.map (·.name)).Nodup

/-- A relation of an entity is found under its name. -/
theorem Sound.find?_relation {schema : Schema} (sound : schema.Sound) {e : Entity} (declared : e ∈ schema.entities)
    {r : Relation} (mem : r ∈ e.relations) : e.find? r.name = some r := by
  obtain ⟨found, h⟩ := Option.isSome_iff_exists.1
    (List.find?_isSome.2 ⟨r, mem, by simp⟩ : (e.find? r.name).isSome = true)
  have name : found.name = r.name := by simpa using List.find?_some h
  rw [Entity.find?, h, List.inj_on_of_nodup_map (sound.relationsOnce e declared) (List.mem_of_find?_eq_some h) mem name]

theorem ofValue_eq_ok {graph : Value} {schema : Schema} (h : ofValue graph = .ok schema) :
    declare graph = .ok (.ok schema) := by
  unfold ofValue at h
  obtain ⟨declared, eq, h⟩ := bind_eq_ok.1 h
  cases hd : declare graph with
  | error f => rw [hd] at eq; cases eq
  | ok d =>
    rw [hd] at eq
    cases eq
    cases declared with
    | error violations => cases h
    | ok s => cases h; rfl

/-- An accepted graph has a mapping of entities without violations, from which its entities are built, and the
version that it gives. -/
theorem declare_eq_ok {graph : Value} {schema : Schema} (h : declare graph = .ok (.ok schema)) :
    ∃ entities, graph.get? "entities" = some (.map entities) ∧ entitiesViolations entities entities = .ok [] ∧
      buildEntities entities = .ok schema.entities ∧ schema.version = (graph.get? "version").getD (.int 1) := by
  unfold declare at h
  obtain ⟨found, eq, h⟩ := bind_eq_ok.1 h
  cases found with
  | map entities =>
    obtain ⟨violations, none, h⟩ := bind_eq_ok.1 h
    cases violations with
    | nil =>
      obtain ⟨built, hb, h⟩ := bind_eq_ok.1 h
      cases h
      exact ⟨entities, Value.get?_of_getKey eq (by simp), none, hb, rfl⟩
    | cons v rest => cases h
  | _ => cases h

/-- A built entity has the name it is declared under and the relations of its document. -/
theorem buildEntity_eq_ok {name : String} {doc : Value} {e : Entity} (h : buildEntity name doc = .ok e) :
    e.name = name ∧ ∀ relations, relationsOf doc = .map relations →
      e.relations = relations.map fun r => buildRelation r.1.shown r.2 := by
  unfold buildEntity at h
  cases listed : doc.get? "fields" with
  | none =>
    rw [listed] at h
    cases h
    exact ⟨rfl, fun relations declared => by simp only [declared]⟩
  | some v =>
    rw [listed] at h
    obtain ⟨fields, -, eq⟩ := bind_eq_ok.1 h
    cases eq
    exact ⟨rfl, fun relations declared => by simp only [declared]⟩

/-- Entities are built one for each entry. -/
theorem buildEntities_eq_ok {entries : List (Scalar × Value)} {built : List Entity}
    (h : buildEntities entries = .ok built) :
    built.map (·.name) = entries.map (·.1.shown) ∧
      ∀ e ∈ built, ∃ entry ∈ entries, buildEntity entry.1.shown entry.2 = .ok e := by
  induction entries generalizing built with
  | nil => cases h; exact ⟨rfl, by simp⟩
  | cons entry rest ih =>
    obtain ⟨name, doc⟩ := entry
    obtain ⟨e, he, h⟩ := bind_eq_ok.1 h
    obtain ⟨more, hm, h⟩ := bind_eq_ok.1 h
    cases h
    obtain ⟨names, sources⟩ := ih hm
    refine ⟨by simp [(buildEntity_eq_ok he).1, names], ?_⟩
    intro x hx
    rcases List.mem_cons.1 hx with rfl | hx
    · exact ⟨(name, doc), by simp, he⟩
    · obtain ⟨entry, mem, eq⟩ := sources x hx
      exact ⟨entry, by simp [mem], eq⟩

/-- If nothing was collected from a list then nothing was from any of its members. -/
theorem collected_eq_nil {ε α β : Type} {one : α → Except ε (List β)} {all : List α → Except ε (List β)}
    (step : ∀ x rest, all (x :: rest) = do return (← one x) ++ (← all rest)) {l : List α} (h : all l = .ok []) :
    ∀ x ∈ l, one x = .ok [] := by
  induction l with
  | nil => simp
  | cons x rest ih =>
    rw [step] at h
    obtain ⟨here, eq, h⟩ := bind_eq_ok.1 h
    obtain ⟨later, eq', h⟩ := bind_eq_ok.1 h
    obtain ⟨rfl, rfl⟩ := List.append_eq_nil_iff.1 (Except.ok.inj h)
    intro y hy
    rcases List.mem_cons.1 hy with rfl | hy
    · exact eq
    · exact ih eq' y hy

/-- If nothing is collected from any member of a list then nothing is from the list. -/
theorem collected_nil {ε α β : Type} {one : α → Except ε (List β)} {all : List α → Except ε (List β)}
    {l : List α} (h : ∀ x ∈ l, one x = .ok []) (none : all [] = .ok [])
    (step : ∀ x rest, all (x :: rest) = do return (← one x) ++ (← all rest)) : all l = .ok [] := by
  induction l with
  | nil => exact none
  | cons x rest ih =>
    obtain ⟨here, later⟩ := List.forall_mem_cons.1 h
    rw [step, here, ih later]
    rfl

theorem entitiesViolations_eq_nil {all entries : List (Scalar × Value)}
    (h : entitiesViolations all entries = .ok []) :
    ∀ entry ∈ entries, entityViolations all entry.1.shown entry.2 = .ok [] :=
  collected_eq_nil (fun _ _ => rfl) h

theorem entitiesViolations_nil {all entries : List (Scalar × Value)}
    (h : ∀ entry ∈ entries, entityViolations all entry.1.shown entry.2 = .ok []) :
    entitiesViolations all entries = .ok [] :=
  collected_nil h rfl fun _ _ => rfl

theorem relationsViolations_eq_nil {all entries : List (Scalar × Value)} {owner : String}
    (h : relationsViolations all owner entries = .ok []) :
    ∀ entry ∈ entries, relationViolations all owner entry.1.shown entry.2 = .ok [] :=
  collected_eq_nil (fun _ _ => rfl) h

theorem relationsViolations_nil {all entries : List (Scalar × Value)} {owner : String}
    (h : ∀ entry ∈ entries, relationViolations all owner entry.1.shown entry.2 = .ok []) :
    relationsViolations all owner entries = .ok [] :=
  collected_nil h rfl fun _ _ => rfl

/-- An entity without violations has a mapping of relations without violations. -/
theorem entityViolations_eq_nil {all : List (Scalar × Value)} {name : String} {doc : Value}
    (h : entityViolations all name doc = .ok []) :
    ∃ relations, relationsOf doc = .map relations ∧ relationsViolations all name relations = .ok [] := by
  unfold entityViolations at h
  split at h
  · cases h
  · cases hr : relationsOf doc with
    | map relations => rw [hr] at h; exact ⟨relations, rfl, h⟩
    | _ => rw [hr] at h; cases h

/-- A relation without violations has a target, which is a key of the entities, and a foreign key. -/
theorem relationViolations_eq_nil {all : List (Scalar × Value)} {owner name : String} {rel : Value}
    (h : relationViolations all owner name rel = .ok []) :
    ((rel.get? "foreign_key").getD .null).truthy = true ∧ ∃ key, (rel.get? "target").getD .null = .scalar key ∧
      (Value.scalar key).truthy = true ∧ (Entries.find? key all).isSome = true := by
  unfold relationViolations at h
  split at h
  · cases h
  · obtain ⟨kind, -, h⟩ := bind_eq_ok.1 h
    obtain ⟨problem, eq, h⟩ := bind_eq_ok.1 h
    have nothing := Except.ok.inj h
    simp only [List.append_eq_nil_iff, List.map_eq_nil_iff, Option.toList_eq_nil_iff, ite_eq_left_iff] at nothing
    obtain ⟨⟨-, none⟩, key⟩ := nothing
    refine ⟨by by_contra missing; simpa using key missing, ?_⟩
    subst none
    unfold targetProblem? at eq
    split at eq
    · cases eq
    · rename_i given
      obtain ⟨key, hk, eq⟩ := bind_eq_ok.1 eq
      split at eq
      · rename_i found
        cases ht : (rel.get? "target").getD .null <;> rw [ht] at hk given <;> cases hk
        exact ⟨key, rfl, by simpa using given, found⟩
      · cases eq

/-- The relations of a document are a document. -/
theorem isDocument_relationsOf {doc v : Value} (document : doc.isDocument = true) (h : relationsOf doc = v) :
    v.isDocument = true := by
  subst h
  unfold relationsOf
  cases found : doc.get? "relations" with
  | none => rfl
  | some w => exact Value.isDocument_get? document found

theorem find?_isSome {schema : Schema} {name : String} (h : name ∈ schema.entities.map (·.name)) :
    ∃ e, schema.find? name = some e := by
  obtain ⟨e, mem, eq⟩ := List.mem_map.1 h
  exact Option.isSome_iff_exists.1 (List.find?_isSome.2 ⟨e, mem, by simp [eq]⟩)

/-- The target of a relation without violations is not empty and names an entity. -/
theorem target_of_lawful {entries : List (Scalar × Value)} (doc : Value.DocumentEntries entries) {owner name : String}
    {rel : Value} (h : relationViolations entries owner name rel = .ok []) :
    (buildRelation name rel).target ≠ "" ∧ (buildRelation name rel).target ∈ entries.map (·.1.shown) := by
  obtain ⟨-, key, target, given, declared⟩ := relationViolations_eq_nil h
  obtain ⟨v, hv⟩ := Option.isSome_iff_exists.1 declared
  obtain ⟨k, entry, same⟩ := Entries.mem_of_find? hv
  obtain ⟨s, rfl⟩ := doc.text _ entry
  have text : key = .text s := by simpa [Scalar.same_comm _ key, Scalar.same_text] using same
  subst text
  have named : (buildRelation name rel).target = s := by rw [buildRelation, target]; rfl
  rw [named]
  exact ⟨by simpa [Value.truthy] using given, List.mem_map.2 ⟨_, entry, rfl⟩⟩

/-- Where a declared entity comes from: a document whose relations violate no rule. -/
theorem declared_source {entries : List (Scalar × Value)} {entities : List Entity}
    (doc : Value.DocumentEntries entries) (lawful : entitiesViolations entries entries = .ok [])
    (built : buildEntities entries = .ok entities) {e : Entity} (he : e ∈ entities) :
    ∃ source relations, source.isDocument = true ∧ buildEntity e.name source = .ok e ∧
      e.relations = relations.map (fun r => buildRelation r.1.shown r.2) ∧ Value.DocumentEntries relations ∧
      ∀ r ∈ relations, relationViolations entries e.name r.1.shown r.2 = .ok [] := by
  obtain ⟨entry, mem, eq⟩ := (buildEntities_eq_ok built).2 e he
  obtain ⟨relations, declared, none⟩ := entityViolations_eq_nil (entitiesViolations_eq_nil lawful entry mem)
  obtain ⟨name, relationsEq⟩ := buildEntity_eq_ok eq
  refine ⟨entry.2, relations, doc.below entry mem, by rw [name, eq], relationsEq relations declared, ?_,
    name ▸ relationsViolations_eq_nil none⟩
  exact Value.documentEntries_of (isDocument_relationsOf (doc.below entry mem) declared)

/-- **Accepted graphs are sound**: every target is declared, and nothing is declared twice. -/
theorem sound_of_ofValue {graph : Value} {schema : Schema} (document : graph.isDocument = true)
    (accepted : ofValue graph = .ok schema) : schema.Sound := by
  obtain ⟨entries, found, lawful, built, -⟩ := declare_eq_ok (ofValue_eq_ok accepted)
  have doc : Value.DocumentEntries entries := Value.documentEntries_of (Value.isDocument_get? document found)
  have names := (buildEntities_eq_ok built).1
  refine ⟨?_, ?_, ?_⟩
  · intro e he r hr
    obtain ⟨-, relations, -, -, eq, -, none⟩ := declared_source doc lawful built he
    rw [eq] at hr
    obtain ⟨rel, mem, rfl⟩ := List.mem_map.1 hr
    refine find?_isSome ?_
    rw [names]
    exact (target_of_lawful doc (none rel mem)).2
  · rw [names]
    exact doc.shownOnce
  · intro e he
    obtain ⟨-, relations, -, -, eq, doc', -⟩ := declared_source doc lawful built he
    rw [eq, List.map_map]
    exact doc'.shownOnce

end Schema

end Semijoin
