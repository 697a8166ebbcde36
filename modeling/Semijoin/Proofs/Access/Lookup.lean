import Semijoin.Access.Tables
import Semijoin.Proofs.Schema.Hop

/-!
# Looking up related rows for one row

The join that includes stand for, without batches: every row looks up its related rows in the tables by
itself, and each of those is joined in turn. `Lookup.joined` says what a row becomes; how a row takes the
fields that it is given is a parameter, since a field may stand beside the row's own columns or replace one.
-/

namespace Semijoin
set_option autoImplicit false

/-- The stored rows that a row is related to along a hop, in table order. -/
def Tables.related (tables : Tables) (hop : Hop) (row : Value) : List Value :=
  (tables.rows hop.target.name).filter (hop.links row)

/-- Every stored row of a declared entity is a row of it. -/
def Tables.Keyed (tables : Tables) (schema : Schema) : Prop :=
  ∀ e ∈ schema.entities, ∀ row ∈ tables.rows e.name, schema.IsRow e row

/-- Every stored row of a declared entity fits it. -/
def Tables.Fit (tables : Tables) (schema : Schema) : Prop :=
  ∀ e ∈ schema.entities, ∀ row ∈ tables.rows e.name, schema.Fits e row

theorem Tables.Keyed.fit {tables : Tables} {schema : Schema} (keyed : tables.Keyed schema) : tables.Fit schema :=
  fun e declared row mem => (keyed e declared row mem).fits

/-- What a hop shows of related rows: a `belongsTo` the last, a `hasOne` the first, and others all. -/
def Hop.shows (hop : Hop) (related : List Value) : Value :=
  match hop.relation.kind with
  | .belongsTo => related.getLast?.getD .null
  | .hasOne => related.head?.getD .null
  | .hasMany => .list related
  | .hasAndBelongsToMany => .list related

namespace Value

/-- A row with fields after its own. -/
def appended (row : Value) (fields : List (String × Value)) : Value :=
  match row with
  | .map entries => .map (entries ++ fields.map fun f => (.text f.1, f.2))
  | v => v

/-- A row with fields set one after the other. -/
def assigned (row : Value) (fields : List (String × Value)) : Value :=
  fields.foldl (fun r f => r.setField f.1 f.2) row

theorem isMap_assigned (row : Value) (fields : List (String × Value)) : (row.assigned fields).isMap = row.isMap := by
  induction fields generalizing row with
  | nil => rfl
  | cons f rest ih => rw [assigned, List.foldl_cons, ← assigned, ih, isMap_setField]

theorem column_assigned_of_ne {column : Value} {fields : List (String × Value)}
    (h : ∀ f ∈ fields, column ≠ .text f.1) (row : Value) : (row.assigned fields).column column = row.column column := by
  induction fields generalizing row with
  | nil => rfl
  | cons f rest ih =>
    rw [assigned, List.foldl_cons, ← assigned, ih fun g hg => h g (by simp [hg])]
    exact column_setField_of_ne (h f (by simp)) row f.2

/-- Fields that are new to a row and differ from one another go after its own. -/
theorem assigned_eq_appended {row : Value} {fields : List (String × Value)} (once : (fields.map (·.1)).Nodup)
    (fresh : ∀ f ∈ fields, row.get? f.1 = none) : row.assigned fields = row.appended fields := by
  induction fields generalizing row with
  | nil => cases row <;> simp [assigned, appended]
  | cons f rest ih =>
    obtain ⟨name, v⟩ := f
    obtain ⟨first, later⟩ := List.nodup_cons.1 once
    rw [assigned, List.foldl_cons, ← assigned]
    cases row with
    | map entries =>
      have apart := Entries.forall_of_find?_eq_none (fresh (name, v) (by simp))
      have step : (Value.map entries).setField name v = .map (entries ++ [(.text name, v)]) := by
        rw [setField, Entries.insert_of_fresh apart]
      have stillFresh : ∀ g ∈ rest, (Value.map (entries ++ [(.text name, v)])).get? g.1 = none := by
        intro g hg
        have ne : name ≠ g.1 := fun e => first (List.mem_map.2 ⟨g, hg, e.symm⟩)
        have absent : Entries.find? (.text g.1) entries = none := fresh g (by simp [hg])
        simp [get?, Entries.find?_append, absent, Entries.find?, Scalar.same_text, ne]
      rw [step, ih later stillFresh]
      simp [appended]
    | _ => exact ih later fun _ _ => rfl

end Value

section Joined

variable (extend : Value → List (String × Value) → Value) (schema : Schema) (tables : Tables)

mutual

/-- A row of an entity with everything that an include tree names, looked up for this row. -/
def joined (owner : Entity) : IncludeTree → Value → Value
  | .node branches _, row => extend row (joinedFields owner branches row)

/-- The fields that the branches of an include tree give a row. -/
def joinedFields (owner : Entity) : List (Value × IncludeTree) → Value → List (String × Value)
  | [], _ => []
  | (name, nested) :: rest, row =>
    match schema.hop? owner name with
    | some hop =>
      (hop.relation.name, hop.shows ((tables.related hop row).map (joined hop.target nested))) ::
        joinedFields owner rest row
    | none => joinedFields owner rest row

end

end Joined

namespace IncludeTree

variable (schema : Schema)

mutual

/-- An include tree without faults, each of whose branches names a declared relation that is kept in keys
and has no key's name. -/
def Joinable (owner : Entity) : IncludeTree → Prop
  | .node branches fault => fault = none ∧ BranchesJoinable owner branches

/-- The branches of an include tree, one by one. -/
def BranchesJoinable (owner : Entity) : List (Value × IncludeTree) → Prop
  | [] => True
  | (name, nested) :: rest =>
    (∃ r, name = .text r.name ∧ owner.find? r.name = some r ∧ r.kind ≠ .hasAndBelongsToMany ∧
      .text r.name ∉ schema.keyNames ∧ ∀ t, schema.find? r.target = some t → nested.Joinable t) ∧
    BranchesJoinable owner rest

end

/-- A branch along a hop can be joined if what it nests can. -/
theorem BranchesJoinable.cons {schema : Schema} {owner : Entity} {name : String} {hop : Hop}
    (found : schema.hop? owner (.text name) = some hop) (kind : hop.relation.kind ≠ .hasAndBelongsToMany)
    (apart : .text name ∉ schema.keyNames) {nested : IncludeTree} (below : nested.Joinable schema hop.target)
    {rest : List (Value × IncludeTree)} (more : BranchesJoinable schema owner rest) :
    BranchesJoinable schema owner ((.text name, nested) :: rest) := by
  have from' := Schema.hop?_eq_some found
  rw [from'.name_eq] at apart ⊢
  rw [BranchesJoinable]
  refine ⟨⟨hop.relation, rfl, from'.found, kind, apart, fun t ht => ?_⟩, more⟩
  rw [from'.target] at ht
  cases ht
  exact below

end IncludeTree

end Semijoin
