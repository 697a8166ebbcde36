import Semijoin.Access.Tables
import Semijoin.Json.Write
import Semijoin.Proofs.Access.Outcome
import Semijoin.Proofs.Schema.Hop
import Semijoin.Proofs.Value.Document
import Semijoin.Proofs.Where.Selection

/-!
# Records

Attaching puts nothing into a row but related rows, lists of them and null, under the names of relations. So what
such a field keeps of rows, every find over tables keeps. A record is a row that JSON can carry as it is; finds over
tables of records return records.
-/

namespace Semijoin
set_option autoImplicit false

namespace Value

/-- A mapping that JSON carries as it is: a document without infinite numbers. -/
structure IsRecord (row : Value) : Prop where
  mapping : row.isMap = true
  document : row.isDocument = true
  strict : Json.isStrict row = true

theorem itemsStrict_iff {items : List Value} : Json.itemsStrict items = true ↔ ∀ v ∈ items, Json.isStrict v = true := by
  induction items with
  | nil => simp [Json.itemsStrict]
  | cons v rest ih => simp [Json.itemsStrict, ih]

theorem isStrict_list {items : List Value} :
    Json.isStrict (.list items) = true ↔ ∀ v ∈ items, Json.isStrict v = true := by
  rw [Json.isStrict, itemsStrict_iff]

theorem entriesStrict_iff {entries : List (Scalar × Value)} :
    Json.entriesStrict entries = true ↔ ∀ e ∈ entries, Json.isStrict e.2 = true := by
  induction entries with
  | nil => simp [Json.entriesStrict]
  | cons e rest ih =>
    obtain ⟨k, v⟩ := e
    simp [Json.entriesStrict, ih]

theorem isStrict_map {entries : List (Scalar × Value)} :
    Json.isStrict (.map entries) = true ↔ ∀ e ∈ entries, Json.isStrict e.2 = true := by
  rw [Json.isStrict, entriesStrict_iff]

/-- A record that is given a field that JSON carries is a record. -/
theorem IsRecord.setField {row : Value} (h : row.IsRecord) (name : String) {x : Value} (document : x.isDocument = true)
    (strict : Json.isStrict x = true) : (row.setField name x).IsRecord := by
  obtain ⟨entries, rfl⟩ := isMap_iff.1 h.mapping
  refine ⟨rfl, isDocument_map.2 ((isDocument_map.1 h.document).insert name document), isStrict_map.2 fun e mem => ?_⟩
  rcases Entries.mem_insert mem with held | rfl
  · exact isStrict_map.1 h.strict e held
  · exact strict

end Value

/-- What is handed out of related rows is all of them, one of them, or null. -/
theorem handOut_cases (kind : RelationKind) (related : List Value) :
    handOut kind related = .list related ∨ handOut kind related ∈ related ∨ handOut kind related = .null := by
  have one {found : Option Value} (mem : ∀ r ∈ found, r ∈ related) :
      found.getD .null ∈ related ∨ found.getD .null = .null := by
    cases found with
    | none => exact .inr rfl
    | some r => exact .inl (mem r rfl)
  cases kind with
  | belongsTo => exact .inr (one fun r mem => List.mem_of_getLast? mem)
  | hasOne => exact .inr (one fun r mem => List.mem_of_mem_head? mem)
  | hasMany => exact .inl rfl
  | hasAndBelongsToMany => exact .inl rfl

theorem keyed_mem {field : Value} {rows : List Value} {index : List (Scalar × Value)} (h : keyed field rows = .ok index) :
    ∀ e ∈ index, e.2 ∈ rows := by
  intro e mem
  obtain ⟨row, held, eq⟩ := mapM_mem h e mem
  obtain ⟨key, -, eq⟩ := bind_eq_ok.1 eq
  cases eq
  exact held

/-! ## What attaching keeps -/

/-- A property of rows that a field for a relation keeps, if what is related has it. -/
def Schema.Keeps (schema : Schema) (P : Value → Prop) : Prop := ∀ e ∈ schema.entities, ∀ r ∈ e.relations,
  ∀ row related, P row → (∀ x ∈ related, P x) → P (row.setField r.name (handOut r.kind related))

variable {σ : Type}

/-- Every select gives rows with a property. -/
def Selector.Gives (selector : Selector σ) (P : Value → Prop) : Prop := ∀ e condition s rows s',
  (selector.select e condition).step s = (.ok rows, s') → ∀ row ∈ rows, P row

section Keeps

variable {P : Value → Prop} {schema : Schema} {selector : Selector σ}

/-- A row that is handed out to has one field more, for the relation, and what it shows there is of the children. -/
theorem handOutAll_mem {relation : Relation} {rowField childField : Value} {rows children results : List Value}
    (h : handOutAll relation rowField childField rows children = .ok results) : ∀ result ∈ results,
      ∃ row ∈ rows, ∃ related : List Value, (∀ x ∈ related, x ∈ children) ∧
        result = row.setField relation.name (handOut relation.kind related) := by
  obtain ⟨index, keyed, h⟩ := bind_eq_ok.1 h
  intro result mem
  obtain ⟨row, stored, eq⟩ := mapM_mem h result mem
  obtain ⟨key, -, eq⟩ := bind_eq_ok.1 eq
  cases eq
  refine ⟨row, stored, _, fun x under => ?_, rfl⟩
  obtain ⟨e, found, rfl⟩ := List.mem_map.1 under
  exact keyed_mem keyed e (List.mem_filter.1 found).1

/-- Handing out keeps what a field for the relation keeps. -/
theorem handOutAll_keeps {relation : Relation}
    (keeps : ∀ row related, P row → (∀ x ∈ related, P x) → P (row.setField relation.name (handOut relation.kind related)))
    {rowField childField : Value} {rows children results : List Value} (held : ∀ row ∈ rows, P row)
    (childHeld : ∀ row ∈ children, P row)
    (h : handOutAll relation rowField childField rows children = .ok results) : ∀ row ∈ results, P row := by
  intro result mem
  obtain ⟨row, stored, related, among, rfl⟩ := handOutAll_mem h result mem
  exact keeps row related (held row stored) fun x under => childHeld x (among x under)

theorem selectAmong_gives (gives : selector.Gives P) {target : Entity} {field : Value} {keys : List Scalar}
    {rows : List Value} {s s' : σ} (h : (selectAmong selector target field keys).step s = (.ok rows, s')) :
    ∀ row ∈ rows, P row := by
  unfold selectAmong at h
  split at h
  · cases h
    simp
  · obtain ⟨key, _, -, h⟩ := Action.step_bind_eq_ok h
    exact gives _ _ _ _ _ h

mutual

/-- **Attaching keeps** what every field for a relation keeps, at every level of an include. -/
theorem attach_keeps (gives : selector.Gives P) (keeps : schema.Keeps P) {owner : Entity} {rows results : List Value}
    (held : ∀ row ∈ rows, P row) (tree : IncludeTree) {s s' : σ}
    (h : (attach schema selector owner rows tree).step s = (.ok results, s')) : ∀ row ∈ results, P row := by
  match tree with
  | .node branches fault =>
    rw [attach] at h
    obtain ⟨attached, _, all, h⟩ := Action.step_bind_eq_ok h
    cases fault with
    | none =>
      cases h
      exact attachAll_keeps gives keeps held branches all
    | some f => cases h

theorem attachAll_keeps (gives : selector.Gives P) (keeps : schema.Keeps P) {owner : Entity}
    {rows results : List Value} (held : ∀ row ∈ rows, P row) (branches : List (Value × IncludeTree)) {s s' : σ}
    (h : (attachAll schema selector owner rows branches).step s = (.ok results, s')) : ∀ row ∈ results, P row := by
  match branches with
  | [] =>
    rw [attachAll] at h
    cases h
    exact held
  | (name, nested) :: rest =>
    rw [attachAll] at h
    obtain ⟨relation, _, named, h⟩ := Action.step_bind_eq_ok h
    obtain ⟨target, _, -, h⟩ := Action.step_bind_eq_ok h
    split at h
    · cases h
    · obtain ⟨keys, _, -, h⟩ := Action.step_bind_eq_ok h
      obtain ⟨selected, _, found, h⟩ := Action.step_bind_eq_ok h
      obtain ⟨children, _, below, h⟩ := Action.step_bind_eq_ok h
      obtain ⟨handed, _, hands, h⟩ := Action.step_bind_eq_ok h
      obtain ⟨e, declared, own⟩ := Schema.exists_of_relation (Action.step_ofExcept_eq_ok named).1
      have childHeld := attach_keeps gives keeps (selectAmong_gives gives found) nested below
      have handedHeld := handOutAll_keeps (keeps e declared relation own) held childHeld
        (Action.step_ofValues_eq_ok hands).1
      exact attachAll_keeps gives keeps handedHeld rest h

end

/-- Every find gives a list of rows with what their selects give and attaching keeps. -/
theorem Selector.access_gives (gives : selector.Gives P) (keeps : schema.Keeps P) {entity : String}
    {condition include_ found : Value} {s s' : σ}
    (h : ((selector.access schema).find entity condition include_).step s = (.ok found, s')) :
    ∃ rows, found = .list rows ∧ ∀ row ∈ rows, P row := by
  obtain ⟨e, _, -, h⟩ := Action.step_bind_eq_ok h
  obtain ⟨rows, _, selected, h⟩ := Action.step_bind_eq_ok h
  obtain ⟨attached, _, attach, h⟩ := Action.step_bind_eq_ok h
  cases h
  exact ⟨attached, rfl, attach_keeps gives keeps (gives _ _ _ _ _ selected) _ attach⟩

/-- The rows of a name are those of a table. -/
theorem Tables.mem_of_rows {tables : Tables} {name : String} {row : Value} (mem : row ∈ tables.rows name) :
    ∃ table ∈ tables, row ∈ table.2 := by
  unfold Tables.rows at mem
  cases found : tables.lookup name with
  | none => simp [found] at mem
  | some rows =>
    obtain ⟨before, after, eq, -⟩ := List.lookup_eq_some_iff.1 found
    exact ⟨(name, rows), by simp [eq], by simpa [found] using mem⟩

/-- Selects from tables give rows of the tables. -/
theorem Tables.selector_gives [Attributes] {tables : Tables} (held : ∀ name, ∀ row ∈ tables.rows name, P row) :
    tables.selector.Gives P := by
  intro e condition s rows s' h
  obtain ⟨_, _, -, h⟩ := Action.step_bind_eq_ok h
  have selected := Where.mem_of_select (Action.step_ofValues_eq_ok h).1
  exact fun row mem => held e.name row (selected mem)

end Keeps

/-! ## Records in, records out -/

/-- Every find gives a list of records. -/
def Access.FindsRecords (access : Access σ) : Prop := ∀ entity condition include_ s found s',
  (access.find entity condition include_).step s = (.ok found, s') → ∃ rows, found = .list rows ∧ ∀ row ∈ rows, row.IsRecord

/-- What is handed out of records can be carried. -/
theorem handOut_records {kind : RelationKind} {related : List Value} (records : ∀ r ∈ related, r.IsRecord) :
    (handOut kind related).isDocument = true ∧ Json.isStrict (handOut kind related) = true := by
  rcases handOut_cases kind related with all | one | none
  · rw [all]
    exact ⟨Value.isDocument_list.2 fun r mem => (records r mem).document,
      Value.isStrict_list.2 fun r mem => (records r mem).strict⟩
  · exact ⟨(records _ one).document, (records _ one).strict⟩
  · rw [none]
    exact ⟨rfl, rfl⟩

theorem Schema.keeps_records (schema : Schema) : schema.Keeps Value.IsRecord := by
  intro e _ r _ row related record records
  obtain ⟨document, strict⟩ := @handOut_records r.kind related records
  exact record.setField r.name document strict

/-- **Tables of records give records**, whatever is attached to them. -/
theorem Tables.access_records [Attributes] {tables : Tables} (records : ∀ name, ∀ row ∈ tables.rows name, row.IsRecord)
    (schema : Schema) : (tables.access schema).FindsRecords := by
  intro entity condition include_ s found s' h
  exact Selector.access_gives (tables.selector_gives records) schema.keeps_records h

end Semijoin
