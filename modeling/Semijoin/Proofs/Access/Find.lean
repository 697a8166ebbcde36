import Mathlib.Data.List.Nodup
import Semijoin.Proofs.Access.Join

/-!
# A find is a join of what its where selects

A find with includes returns the stored rows that its where selects, in table order, each with its own
columns and after them one field for each included relation. The field holds what a lookup for that single
row finds, at every level of the include.
-/

namespace Semijoin
set_option autoImplicit false

section Find

variable {schema : Schema} {tables : Tables}

namespace IncludeTree

variable (schema : Schema) (tables : Tables)

mutual

/-- An include tree that names no relation twice in one level, and none that is a column of the rows that
it is attached to. -/
def Fresh (owner : Entity) : IncludeTree → Prop
  | .node branches _ => (branches.map (·.1)).Nodup ∧ BranchesFresh owner branches

/-- The branches of an include tree, one by one. -/
def BranchesFresh (owner : Entity) : List (Value × IncludeTree) → Prop
  | [] => True
  | (name, nested) :: rest =>
    (∀ hop, schema.hop? owner name = some hop →
      (∀ row ∈ tables.rows owner.name, row.get? hop.relation.name = none) ∧ nested.Fresh hop.target) ∧
    BranchesFresh owner rest

end

theorem BranchesFresh.cons {schema : Schema} {tables : Tables} {owner : Entity} {name : Value} {hop : Hop}
    (found : schema.hop? owner name = some hop)
    (here : ∀ row ∈ tables.rows owner.name, row.get? hop.relation.name = none) {nested : IncludeTree}
    (below : nested.Fresh schema tables hop.target) {rest : List (Value × IncludeTree)}
    (more : BranchesFresh schema tables owner rest) : BranchesFresh schema tables owner ((name, nested) :: rest) := by
  rw [BranchesFresh]
  refine ⟨fun hop' h => ?_, more⟩
  rw [found] at h
  cases h
  exact ⟨here, below⟩

end IncludeTree

/-- The names of the fields of a joined row are those of the branches. -/
theorem joinedFields_names {extend : Value → List (String × Value) → Value} {owner : Entity} {row : Value}
    {branches : List (Value × IncludeTree)} :
    ((joinedFields extend schema tables owner branches row).map fun f => Value.text f.1).Sublist
      (branches.map (·.1)) := by
  induction branches with
  | nil => simp [joinedFields]
  | cons branch rest ih =>
    obtain ⟨name, nested⟩ := branch
    rw [joinedFields]
    cases found : schema.hop? owner name with
    | none => exact ih.cons _
    | some hop =>
      have := (Schema.hop?_eq_some found).name_eq
      subst this
      exact ih.cons_cons _

theorem joinedFields_once {extend : Value → List (String × Value) → Value} {owner : Entity} (row : Value)
    {branches : List (Value × IncludeTree)} (once : (branches.map (·.1)).Nodup) :
    ((joinedFields extend schema tables owner branches row).map (·.1)).Nodup := by
  have texts : ((joinedFields extend schema tables owner branches row).map fun f => Value.text f.1).Nodup :=
    once.sublist joinedFields_names
  exact List.Nodup.of_map Value.text (by rwa [List.map_map])

/-- No field of a joined row is a column of the stored row. -/
theorem joinedFields_fresh {extend : Value → List (String × Value) → Value} {owner : Entity} {row : Value}
    (stored : row ∈ tables.rows owner.name) {branches : List (Value × IncludeTree)}
    (fresh : IncludeTree.BranchesFresh schema tables owner branches) :
    ∀ f ∈ joinedFields extend schema tables owner branches row, row.get? f.1 = none := by
  induction branches with
  | nil => simp [joinedFields]
  | cons branch rest ih =>
    obtain ⟨name, nested⟩ := branch
    rw [IncludeTree.BranchesFresh] at fresh
    rw [joinedFields]
    cases found : schema.hop? owner name with
    | none => exact ih fresh.2
    | some hop => exact List.forall_mem_cons.2 ⟨(fresh.1 hop found).1 row stored, ih fresh.2⟩

mutual

/-- Fields that are new to the rows at every level go after their columns. -/
theorem joined_assigned_eq {owner : Entity} {row : Value} (stored : row ∈ tables.rows owner.name)
    (tree : IncludeTree) (fresh : tree.Fresh schema tables owner) :
    joined Value.assigned schema tables owner tree row = joined Value.appended schema tables owner tree row := by
  match tree with
  | .node branches fault =>
    rw [IncludeTree.Fresh] at fresh
    rw [joined, joined, ← joinedFields_assigned_eq stored branches fresh.2]
    exact Value.assigned_eq_appended (joinedFields_once row fresh.1) (joinedFields_fresh stored fresh.2)

theorem joinedFields_assigned_eq {owner : Entity} {row : Value} (stored : row ∈ tables.rows owner.name)
    (branches : List (Value × IncludeTree))
    (fresh : IncludeTree.BranchesFresh schema tables owner branches) :
    joinedFields Value.assigned schema tables owner branches row =
      joinedFields Value.appended schema tables owner branches row := by
  match branches with
  | [] => simp only [joinedFields]
  | (name, nested) :: rest =>
    rw [IncludeTree.BranchesFresh] at fresh
    rw [joinedFields, joinedFields, joinedFields_assigned_eq stored rest fresh.2]
    cases found : schema.hop? owner name with
    | none => rfl
    | some hop =>
      have related : (tables.related hop row).map (joined Value.assigned schema tables hop.target nested) =
          (tables.related hop row).map (joined Value.appended schema tables hop.target nested) :=
        List.map_congr_left fun r hr =>
          joined_assigned_eq (List.mem_filter.1 hr).1 nested (fresh.1 hop found).2
      simp only [related]

end

end Find

/-! ## A sample of countries, cities and people -/

namespace Sample

/-- A relation of a graph document. -/
def relation (kind target foreignKey : String) : Value :=
  .ofFields [("kind", .text kind), ("target", .text target), ("foreign_key", .text foreignKey)]

def graph : Value := .ofFields [("entities", .ofFields [
  ("Country", .ofFields [("relations", .ofFields [
    ("cities", relation "hasMany" "City" "country_id"), ("capital", relation "hasOne" "City" "capital_of")])]),
  ("City", .ofFields [("relations", .ofFields [
    ("country", relation "belongsTo" "Country" "country_id"), ("people", relation "hasMany" "Person" "city_id")])]),
  ("Person", .ofFields [("relations", .ofFields [("city", relation "belongsTo" "City" "city_id")])])])]

def country : Entity := ⟨"Country", .text "id", [],
  [⟨"cities", .hasMany, "City", .text "country_id"⟩, ⟨"capital", .hasOne, "City", .text "capital_of"⟩]⟩

def city : Entity := ⟨"City", .text "id", [],
  [⟨"country", .belongsTo, "Country", .text "country_id"⟩, ⟨"people", .hasMany, "Person", .text "city_id"⟩]⟩

def person : Entity := ⟨"Person", .text "id", [], [⟨"city", .belongsTo, "City", .text "city_id"⟩]⟩

def schema : Schema := ⟨.int 1, [country, city, person]⟩

/-- Keys of several kinds: true stands for 1, and some keys are null or missing. -/
def tables : Tables := [
  ("Country", [.ofFields [("id", .int 1), ("name", .text "NZ")], .ofFields [("id", .text "1"), ("name", .text "AUS")]]),
  ("City", [.ofFields [("id", .int 10), ("country_id", .bool true), ("capital_of", .null)],
    .ofFields [("id", .int 20), ("country_id", .text "1"), ("capital_of", .int 1)],
    .ofFields [("id", .int 30), ("country_id", .int 1)]]),
  ("Person", [.ofFields [("id", .int 7), ("city_id", .int 10)], .ofFields [("id", .int 8), ("city_id", .null)],
    .ofFields [("id", .int 9), ("city_id", .int 10)]])]

set_option maxRecDepth 2000 in
theorem document : graph.isDocument = true := by decide

theorem accepted : Schema.ofValue graph = .ok schema := rfl

theorem plain : schema.PlainKeys := by unfold Schema.PlainKeys; decide

theorem keyed : tables.Keyed schema := by unfold Tables.Keyed; decide +kernel

/-- The cities of a country with their people, each with its city, and the capital: in three of the forms. -/
def include_ : Value := .list [
  .ofFields [("relation", .text "cities"), ("scope", .ofFields [("include", .ofFields [("people", .text "city")])])],
  .text "capital"]

theorem include_tree : IncludeTree.ofValue include_ = .node [
    (.text "cities", .node [(.text "people", .node [(.text "city", .node [] none)] none)] none),
    (.text "capital", .node [] none)] none := rfl

theorem apart : ∀ name ∈ ["cities", "capital", "people", "city"], Value.text name ∉ schema.keyNames := by
  simp [Schema.keyNames, schema, country, city, person]

theorem joinable : (IncludeTree.ofValue include_).Joinable schema country := by
  have leaf (e : Entity) : (IncludeTree.node [] none).Joinable schema e := ⟨rfl, trivial⟩
  have people : (IncludeTree.node [(.text "city", .node [] none)] none).Joinable schema person :=
    ⟨rfl, .cons rfl (by decide) (apart _ (by simp)) (leaf _) trivial⟩
  have cities :
      (IncludeTree.node [(.text "people", .node [(.text "city", .node [] none)] none)] none).Joinable schema city :=
    ⟨rfl, .cons rfl (by decide) (apart _ (by simp)) people trivial⟩
  rw [include_tree]
  exact ⟨rfl, .cons rfl (by decide) (apart _ (by simp)) cities
    (.cons rfl (by decide) (apart _ (by simp)) (leaf _) trivial)⟩

theorem fresh : (IncludeTree.ofValue include_).Fresh schema tables country := by
  have leaf (e : Entity) : (IncludeTree.node [] none).Fresh schema tables e := ⟨by simp, trivial⟩
  have people : (IncludeTree.node [(.text "city", .node [] none)] none).Fresh schema tables person :=
    ⟨by simp, .cons rfl (by decide) (leaf _) trivial⟩
  have cities :
      (IncludeTree.node [(.text "people", .node [(.text "city", .node [] none)] none)] none).Fresh schema tables city :=
    ⟨by simp, .cons rfl (by decide) people trivial⟩
  rw [include_tree]
  exact ⟨by simp, .cons rfl (by decide) cities (.cons rfl (by decide) (leaf _) trivial)⟩

end Sample

/-- **Batched includes equal the join row by row.** -/
theorem find_eq_join [Attributes] {schema : Schema} {tables : Tables} {graph : Value} (document : graph.isDocument = true)
    (accepted : Schema.ofValue graph = .ok schema) (plain : schema.PlainKeys) (keyed : tables.Keyed schema)
    {entity : String} {e : Entity} (declared : schema.find? entity = some e) {condition include_ : Value}
    (decides : ∀ row ∈ tables.rows entity, Where.Decides condition row)
    (joinable : (IncludeTree.ofValue include_).Joinable schema e)
    (fresh : (IncludeTree.ofValue include_).Fresh schema tables e) :
    ((tables.access schema).find entity condition include_).Ends
      (.ok (.list (((tables.rows entity).filter (Where.accepts condition)).map
        (joined Value.appended schema tables e (IncludeTree.ofValue include_))))) := by
  obtain ⟨mem, rfl⟩ := Schema.find?_eq_some declared
  have alike : ((tables.rows e.name).filter (Where.accepts condition)).map
      (joined Value.assigned schema tables e (IncludeTree.ofValue include_)) =
      ((tables.rows e.name).filter (Where.accepts condition)).map
        (joined Value.appended schema tables e (IncludeTree.ofValue include_)) :=
    List.map_congr_left fun row hr => joined_assigned_eq (List.mem_filter.1 hr).1 _ fresh
  rw [← alike]
  exact find_ends (Schema.sound_of_ofValue document accepted) plain keyed declared decides joinable

/-- Three levels of an include on one country. -/
theorem find_eq_join_country :
    ((Sample.tables.access Sample.schema).find "Country" (.ofFields [("name", .text "NZ")]) Sample.include_).Ends
      (.ok (.list (((Sample.tables.rows "Country").filter (Where.accepts (.ofFields [("name", .text "NZ")]))).map
        (joined Value.appended Sample.schema Sample.tables Sample.country (IncludeTree.ofValue Sample.include_))))) :=
  find_eq_join Sample.document Sample.accepted Sample.plain Sample.keyed
    (rfl : Sample.schema.find? "Country" = some Sample.country)
    (fun row hr => Where.decides_scalar (Sample.keyed Sample.country (by simp [Sample.schema]) row hr).mapping
      (by decide) _)
    Sample.joinable Sample.fresh

end Semijoin
