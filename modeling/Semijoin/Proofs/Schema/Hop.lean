import Semijoin.Proofs.Value.Columns
import Semijoin.Schema.Basic

/-!
# Hops

A hop goes along one relation, from its owner to its target; a path from an entity is a list of hops. On
rows a hop is a join of two columns: a `belongsTo` relation has its foreign key on the owner's rows, where
it holds the target's primary key, and the others have it on the target's rows, where it holds the owner's.
-/

namespace Semijoin
set_option autoImplicit false

/-- One step along a relation. -/
structure Hop where
  owner : Entity
  relation : Relation
  target : Entity

/-- The column of the owner's rows that a hop compares. -/
def Hop.ownerColumn (hop : Hop) : Value :=
  match hop.relation.kind with
  | .belongsTo => hop.relation.foreignKey
  | _ => hop.owner.primaryKey

/-- The column of the target's rows that a hop compares. -/
def Hop.targetColumn (hop : Hop) : Value :=
  match hop.relation.kind with
  | .belongsTo => hop.target.primaryKey
  | _ => hop.relation.foreignKey

/-- A hop of a kind that reversals follow. -/
def Hop.Followed (hop : Hop) : Prop := hop.relation.kind = .hasMany ∨ hop.relation.kind = .belongsTo

theorem Hop.Followed.kind_ne {hop : Hop} (h : hop.Followed) : hop.relation.kind ≠ .hasAndBelongsToMany := by
  rcases h with kind | kind <;> simp [kind]

/-- The name of a column that a where can compare. -/
def Value.PlainName (v : Value) : Prop := ∃ s, v = .text s ∧ s ≠ "and" ∧ s ≠ "or"

instance (v : Value) : Decidable v.PlainName :=
  decidable_of_iff ((match v with | .text s => decide (s ≠ "and" ∧ s ≠ "or") | _ => false) = true) (by
    unfold Value.PlainName
    split <;> simp_all)

/-- Whether two keys meet: the one is not null and equals the other. -/
def Value.meets (v w : Value) : Bool := !v.isNull && v.same w

theorem Value.meets_scalar (a b : Scalar) : (Value.scalar a).meets (.scalar b) = (a != .null && a.same b) := by
  rw [meets, isNull_scalar, same_scalar]
  rfl

/-- Keys meet whichever is asked. -/
theorem Value.meets_comm (a b : Scalar) : (Value.scalar a).meets (.scalar b) = (Value.scalar b).meets (.scalar a) := by
  rw [meets_scalar, meets_scalar, Scalar.same_comm b a]
  by_cases same : a.same b = true
  · have null : (a == .null) = (b == .null) := by
      rw [← Scalar.same_null, ← Scalar.same_null, Scalar.same_congr same]
    rw [bne, bne, null]
  · simp [same]

/-- Keys that a key meets meet one another. -/
theorem Value.meets_of_meets {a b c : Scalar} (h : (Value.scalar a).meets (.scalar b) = true)
    (h' : (Value.scalar a).meets (.scalar c) = true) : (Value.scalar b).meets (.scalar c) = true := by
  rw [meets_comm] at h
  rw [meets_scalar, Bool.and_eq_true] at h h' ⊢
  exact ⟨h.1, Scalar.same_trans h.2 h'.2⟩

/-- Whether a row of the owner is related to a row of the target. -/
def Hop.links (hop : Hop) (row other : Value) : Bool :=
  (row.column hop.ownerColumn).meets (other.column hop.targetColumn)

namespace Schema

/-- The hop along the relation that a value names on an entity. -/
def hop? (schema : Schema) (owner : Entity) (name : Value) : Option Hop :=
  match name with
  | .text n => (owner.find? n).bind fun r => (schema.find? r.target).map fun t => ⟨owner, r, t⟩
  | _ => none

/-- A path of relation names goes from one entity along hops to another. -/
inductive Walks (schema : Schema) : Entity → List String → List Hop → Entity → Prop
  | done (e : Entity) : Walks schema e [] [] e
  | step {e e' : Entity} {name : String} {path : List String} {hop : Hop} {hops : List Hop}
      (here : schema.hop? e (.text name) = some hop) (more : Walks schema hop.target path hops e') :
      Walks schema e (name :: path) (hop :: hops) e'

/-- The names of all primary and foreign keys. -/
def keyNames (schema : Schema) : List Value :=
  schema.entities.flatMap fun e => e.primaryKey :: e.relations.map (·.foreignKey)

/-- The columns that hold keys on the rows of an entity: its own key, those of the entities it belongs to,
and those of the entities that have it. -/
def keyColumns (schema : Schema) (e : Entity) : List Value :=
  e.primaryKey :: (e.relations.filter (·.kind == .belongsTo)).map (·.foreignKey) ++
    ((schema.entities.flatMap (·.relations)).filter fun r =>
      r.target == e.name && (r.kind == .hasMany || r.kind == .hasOne)).map (·.foreignKey)

/-- The names of keys are texts, and none of them is a group of a where. -/
def PlainKeys (schema : Schema) : Prop := ∀ k ∈ schema.keyNames, k.PlainName

/-- A row of an entity is a mapping whose key columns hold keys. -/
structure IsRow (schema : Schema) (e : Entity) (row : Value) : Prop where
  mapping : row.isMap = true
  keys : ∀ k ∈ schema.keyColumns e, row.HoldsKey k

instance (schema : Schema) (e : Entity) (row : Value) : Decidable (schema.IsRow e row) :=
  decidable_of_iff (row.isMap = true ∧ ∀ k ∈ schema.keyColumns e, row.HoldsKey k)
    ⟨fun h => ⟨h.1, h.2⟩, fun h => ⟨h.mapping, h.keys⟩⟩

/-- A row fits an entity: it is a mapping whose key columns hold scalars, NaN among them. -/
structure Fits (schema : Schema) (e : Entity) (row : Value) : Prop where
  mapping : row.isMap = true
  scalars : ∀ k ∈ schema.keyColumns e, row.HoldsScalar k

instance (schema : Schema) (e : Entity) (row : Value) : Decidable (schema.Fits e row) :=
  decidable_of_iff (row.isMap = true ∧ ∀ k ∈ schema.keyColumns e, row.HoldsScalar k)
    ⟨fun h => ⟨h.1, h.2⟩, fun h => ⟨h.mapping, h.scalars⟩⟩

theorem IsRow.fits {schema : Schema} {e : Entity} {row : Value} (h : schema.IsRow e row) : schema.Fits e row :=
  ⟨h.mapping, fun k mem => (h.keys k mem).scalar⟩

theorem find?_eq_some {schema : Schema} {name : String} {e : Entity} (h : schema.find? name = some e) :
    e ∈ schema.entities ∧ e.name = name :=
  ⟨List.mem_of_find?_eq_some h, by simpa using List.find?_some h⟩

/-- An entity that is found under a name is found under its own. -/
theorem find?_name {schema : Schema} {name : String} {e : Entity} (h : schema.find? name = some e) :
    schema.find? e.name = some e := by rw [(find?_eq_some h).2, h]

/-- A text is a key, also as a step of a computation that may fail. -/
theorem asKey_text (name : String) : (liftM (Value.asKey (.text name)) : Except Failure Scalar) = .ok (.text name) :=
  rfl

theorem entity_text {schema : Schema} {name : String} {e : Entity} (h : schema.find? name = some e) :
    schema.entity (.text name) = .ok e := by
  rw [entity, asKey_text]
  simp only [bind, Except.bind, h]
  rfl

/-- An entity that a value names is found under its own name. -/
theorem find?_of_entity {schema : Schema} {name : Value} {e : Entity} (h : schema.entity name = .ok e) :
    schema.find? e.name = some e := by
  unfold entity at h
  cases name with
  | scalar k =>
    cases k with
    | text n =>
      cases found : schema.find? n with
      | none =>
        simp only [asKey_text, bind, Except.bind, found] at h
        cases h
      | some e' =>
        simp only [asKey_text, bind, Except.bind, found] at h
        cases h
        exact find?_name found
    | _ => cases h
  | _ => cases h

theorem entity_undeclared {schema : Schema} {name : String} (undeclared : schema.find? name = none) :
    schema.entity (.text name) = .error (.invalidGraph ["[" ++ name ++ "] Unknown entity"]) := by
  rw [entity, asKey_text]
  simp only [bind, Except.bind, undeclared]
  rfl

theorem find?_of_entity_text {schema : Schema} {name : String} {e : Entity} (h : schema.entity (.text name) = .ok e) :
    schema.find? name = some e := by
  cases found : schema.find? name with
  | none =>
    rw [entity_undeclared found] at h
    cases h
  | some e' =>
    rw [entity_text found] at h
    cases h
    rfl

theorem name_of_entity {schema : Schema} {name : String} {e : Entity} (h : schema.entity (.text name) = .ok e) :
    e.name = name := (find?_eq_some (find?_of_entity_text h)).2

theorem relation_undeclared {schema : Schema} {e : Entity} (declared : schema.find? e.name = some e) {step : String}
    (undeclared : e.find? step = none) :
    schema.relation (.text e.name) (.text step) = .error (.unknownRelation e.name (.text step)) := by
  rw [relation, entity_text declared, asKey_text]
  simp only [bind, Except.bind, undeclared]
  rfl

/-- A relation that a value names on an entity is one of the entity's. -/
theorem mem_of_relation {schema : Schema} {owner name : Value} {e : Entity} {r : Relation}
    (named : schema.entity owner = .ok e) (h : schema.relation owner name = .ok r) : r ∈ e.relations := by
  unfold relation at h
  rw [named] at h
  cases name with
  | scalar k =>
    cases k with
    | text n =>
      cases found : e.find? n with
      | none =>
        simp only [asKey_text, bind, Except.bind, found] at h
        cases h
      | some r' =>
        simp only [asKey_text, bind, Except.bind, found] at h
        cases h
        exact List.mem_of_find?_eq_some found
    | _ => cases h
  | _ => cases h

/-- A relation that a value names on a declared entity and its target make a hop. -/
theorem hop?_of_relation {schema : Schema} {owner target : Entity} {name : Value} {r : Relation}
    (declared : schema.find? owner.name = some owner) (named : schema.relation (.text owner.name) name = .ok r)
    (found : schema.entity (.text r.target) = .ok target) : schema.hop? owner name = some ⟨owner, r, target⟩ := by
  have targetFound := find?_of_entity_text found
  rw [relation, entity_text declared] at named
  cases name with
  | scalar k =>
    cases k with
    | text n =>
      cases held : owner.find? n with
      | none =>
        simp only [asKey_text, bind, Except.bind, held] at named
        cases named
      | some r' =>
        simp only [asKey_text, bind, Except.bind, held] at named
        cases named
        simp [hop?, held, targetFound]
    | _ => cases named
  | _ => cases named

/-- A relation that is found is declared. -/
theorem exists_of_relation {schema : Schema} {owner name : Value} {r : Relation} (h : schema.relation owner name = .ok r) :
    ∃ e ∈ schema.entities, r ∈ e.relations := by
  cases named : schema.entity owner with
  | error f =>
    unfold relation at h
    rw [named] at h
    cases h
  | ok e => exact ⟨e, (find?_eq_some (find?_of_entity named)).1, mem_of_relation named h⟩

/-- What a hop from an entity is made of. -/
structure HopFrom (schema : Schema) (owner : Entity) (name : Value) (hop : Hop) : Prop where
  owner_eq : hop.owner = owner
  name_eq : name = .text hop.relation.name
  found : owner.find? hop.relation.name = some hop.relation
  mem : hop.relation ∈ owner.relations
  target : schema.find? hop.relation.target = some hop.target

theorem hop?_eq_some {schema : Schema} {owner : Entity} {name : Value} {hop : Hop}
    (h : schema.hop? owner name = some hop) : schema.HopFrom owner name hop := by
  unfold hop? at h
  split at h
  · rename_i n
    obtain ⟨r, found, h⟩ := Option.bind_eq_some_iff.1 h
    obtain ⟨t, target, rfl⟩ := Option.map_eq_some_iff.1 h
    have named : r.name = n := by simpa using List.find?_some found
    subst named
    exact ⟨rfl, rfl, found, List.mem_of_find?_eq_some found, target⟩
  · cases h

theorem exists_hop {schema : Schema} {owner target : Entity} {r : Relation} (named : owner.find? r.name = some r)
    (found : schema.find? r.target = some target) :
    ∃ hop, schema.hop? owner (.text r.name) = some hop ∧ hop.relation = r ∧ hop.target = target :=
  ⟨⟨owner, r, target⟩, by simp [hop?, named, found], rfl, rfl⟩

namespace HopFrom

variable {schema : Schema} {owner : Entity} {name : Value} {hop : Hop}

theorem relation_eq (h : schema.HopFrom owner name hop) (declared : schema.find? owner.name = some owner) :
    schema.relation (.text owner.name) name = .ok hop.relation := by
  rw [relation, entity_text declared, h.name_eq, asKey_text]
  simp only [bind, Except.bind, h.found]
  rfl

theorem entity_eq (h : schema.HopFrom owner name hop) :
    schema.entity (.text hop.relation.target) = .ok hop.target := entity_text h.target

theorem target_found (h : schema.HopFrom owner name hop) : schema.find? hop.target.name = some hop.target :=
  find?_name h.target

theorem target_name (h : schema.HopFrom owner name hop) : hop.target.name = hop.relation.target :=
  (find?_eq_some h.target).2

theorem relation_mem (h : schema.HopFrom owner name hop) (declared : owner ∈ schema.entities) :
    hop.relation ∈ schema.entities.flatMap (·.relations) :=
  List.mem_flatMap.2 ⟨owner, declared, h.mem⟩

/-- A hop compares key columns of its owner and of its target. -/
theorem ownerColumn_mem (h : schema.HopFrom owner name hop) : hop.ownerColumn ∈ schema.keyColumns owner := by
  obtain ⟨rfl, -, -, mem, -⟩ := h
  unfold Hop.ownerColumn
  split
  · rename_i kind
    exact List.mem_append_left _ (List.mem_cons_of_mem _ (List.mem_map.2 ⟨_, by simp [mem, kind], rfl⟩))
  · exact List.mem_append_left _ List.mem_cons_self

theorem targetColumn_mem (h : schema.HopFrom owner name hop) (declared : owner ∈ schema.entities)
    (kind : hop.relation.kind ≠ .hasAndBelongsToMany) : hop.targetColumn ∈ schema.keyColumns hop.target := by
  unfold Hop.targetColumn
  split
  · exact List.mem_append_left _ List.mem_cons_self
  · rename_i other
    refine List.mem_append_right _ (List.mem_map.2 ⟨hop.relation, List.mem_filter.2 ⟨h.relation_mem declared, ?_⟩, rfl⟩)
    cases k : hop.relation.kind <;> simp_all [h.target_name]

end HopFrom

theorem primaryKey_mem_keyNames {schema : Schema} {e : Entity} (declared : e ∈ schema.entities) :
    e.primaryKey ∈ schema.keyNames := List.mem_flatMap.2 ⟨e, declared, by simp⟩

theorem foreignKey_mem_keyNames {schema : Schema} {e : Entity} (declared : e ∈ schema.entities) {r : Relation}
    (mem : r ∈ e.relations) : r.foreignKey ∈ schema.keyNames :=
  List.mem_flatMap.2 ⟨e, declared, List.mem_cons_of_mem _ (List.mem_map.2 ⟨r, mem, rfl⟩)⟩

/-- Key columns have the names of keys. -/
theorem keyNames_of_keyColumns {schema : Schema} {e : Entity} (declared : e ∈ schema.entities) {k : Value}
    (h : k ∈ schema.keyColumns e) : k ∈ schema.keyNames := by
  rcases List.mem_append.1 h with own | others
  · rcases List.mem_cons.1 own with rfl | foreign
    · exact primaryKey_mem_keyNames declared
    · obtain ⟨r, mem, rfl⟩ := List.mem_map.1 foreign
      exact foreignKey_mem_keyNames declared (List.mem_filter.1 mem).1
  · obtain ⟨r, mem, rfl⟩ := List.mem_map.1 others
    obtain ⟨owner, declared', mem'⟩ := List.mem_flatMap.1 (List.mem_filter.1 mem).1
    exact foreignKey_mem_keyNames declared' mem'

end Schema

end Semijoin
