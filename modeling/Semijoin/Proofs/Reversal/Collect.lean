import Semijoin.Proofs.Access.Join
import Semijoin.Proofs.Path.Retrace
import Semijoin.Reversal

/-!
# Collecting along an include

The include of a reversal is a chain: each relation nests the next. Along it the leaves of a joined row are
the rows that the stored row leads to in the tables, hop by hop. A `belongsTo` hop shows one row only, so
this needs that no two rows of a table share a primary key.
-/

namespace Semijoin
set_option autoImplicit false

variable {schema : Schema} {tables : Tables}

/-- No two rows of a table have the same primary key. -/
def Tables.KeysOnce (tables : Tables) (schema : Schema) : Prop :=
  ∀ e ∈ schema.entities, (tables.rows e.name).Pairwise fun row row' =>
    (row.column e.primaryKey).meets (row'.column e.primaryKey) = false

/-- The rows that a row leads to along hops, in the order met. -/
def Tables.gather (tables : Tables) : List Hop → Value → List Value
  | [], row => [row]
  | hop :: rest, row => (tables.related hop row).flatMap (tables.gather rest)

namespace IncludeTree

/-- The include tree in which each name nests the next. -/
def chain : List String → IncludeTree
  | [] => empty
  | name :: rest => .node [(.text name, chain rest)] none

theorem ofValue_includeScope (names : List String) : ofValue (Path.includeScope (names.map .text)) = chain names := by
  induction names with
  | nil => rfl
  | cons name rest ih =>
    cases rest with
    | nil => rfl
    | cons next more =>
      have scope : ofValue (Path.includeScope ((name :: next :: more).map .text)) =
          .node [(.text name, ofValue (Path.includeScope ((next :: more).map .text)))] none := rfl
      rw [scope, ih]
      rfl

/-- A chain over the relations of a walk can be joined. -/
theorem chain_joinable {e e' : Entity} {path : List String} {hops : List Hop} (walk : schema.Walks e path hops e')
    (kinds : ∀ hop ∈ hops, hop.relation.kind ≠ .hasAndBelongsToMany)
    (apart : ∀ hop ∈ hops, .text hop.relation.name ∉ schema.keyNames) : (chain path).Joinable schema e := by
  induction walk with
  | done e => exact ⟨rfl, trivial⟩
  | step here more ih =>
    obtain ⟨kind, kindsLater⟩ := List.forall_mem_cons.1 kinds
    obtain ⟨fresh, freshLater⟩ := List.forall_mem_cons.1 apart
    rw [← (Schema.hop?_eq_some here).name_eq] at fresh
    exact ⟨rfl, .cons here kind fresh (ih kindsLater freshLater) trivial⟩

end IncludeTree

/-- The id that a row holds in a column, unless it is null. -/
def heldId (field row : Value) : List Value := if (row.column field).isNull then [] else [row.column field]

/-- A `belongsTo` hop relates a row to one row at most. -/
theorem related_of_belongsTo {hop : Hop} (once : tables.KeysOnce schema) (declared : hop.target ∈ schema.entities)
    (keyed : ∀ row ∈ tables.rows hop.target.name, row.HoldsKey hop.targetColumn)
    (kind : hop.relation.kind = .belongsTo) {row : Value} (key : row.HoldsKey hop.ownerColumn) :
    tables.related hop row = [] ∨ ∃ other, tables.related hop row = [other] := by
  have column : hop.target.primaryKey = hop.targetColumn := by rw [Hop.targetColumn, kind]
  have apart := (once _ declared).sublist (List.filter_sublist (p := hop.links row))
  have linked : ∀ other ∈ tables.related hop row, other.HoldsKey hop.targetColumn ∧ hop.links row other = true :=
    fun other mem => ⟨keyed other (List.mem_filter.1 mem).1, (List.mem_filter.1 mem).2⟩
  rw [column, ← Tables.related] at apart
  generalize tables.related hop row = found at apart linked
  match found with
  | [] => exact .inl rfl
  | [a] => exact .inr ⟨a, rfl⟩
  | a :: b :: more =>
    -- both hold the key of the row, so they would share a primary key
    obtain ⟨keyA, linkA⟩ := linked a (by simp)
    obtain ⟨keyB, linkB⟩ := linked b (by simp)
    have differ := (List.pairwise_cons.1 apart).1 b (by simp)
    rw [Hop.links, key.column_eq, keyA.column_eq] at linkA
    rw [Hop.links, key.column_eq, keyB.column_eq] at linkB
    rw [keyA.column_eq, keyB.column_eq, Value.meets_of_meets linkA linkB] at differ
    cases differ

namespace Path

variable [Attributes] {full rest : List Value} {segment idField node child : Value}

theorem leafId_eq {s : String} (mapping : node.isMap = true) : leafId (.text s) node = .ok (heldId (.text s) node) := by
  rw [leafId, Value.field_text mapping]
  rfl

theorem leavesFrom_null (names : List String) (read : node.field segment = .ok .null) :
    leavesFrom .skip (names.map .text) idField (segment :: rest) node = .ok [] := by
  rw [leavesFrom, read]
  show missing .skip (names.map .text) segment = _
  rw [missing, Value.textsFrom_texts]
  rfl

theorem leavesFrom_map {policy : MissingPolicy} (read : node.field segment = .ok child) (mapping : child.isMap = true) :
    leavesFrom policy full idField (segment :: rest) node = leavesFrom policy full idField rest child := by
  obtain ⟨entries, rfl⟩ := Value.isMap_iff.1 mapping
  rw [leavesFrom, read]
  rfl

/-- The leaves below a list are those of its items, one after the other. -/
theorem leavesFrom_list {policy : MissingPolicy} {α : Type} {shown : α → Value} {rows : List α} {ids : α → List Value}
    (read : node.field segment = .ok (.list (rows.map shown))) (mapping : ∀ row ∈ rows, (shown row).isMap = true)
    (below : ∀ row ∈ rows, leavesFrom policy full idField rest (shown row) = .ok (ids row)) :
    leavesFrom policy full idField (segment :: rest) node = .ok (rows.flatMap ids) := by
  have each : ((rows.map shown).mapM fun item =>
      if item.isNull then missing policy full segment else leavesFrom policy full idField rest item) =
        .ok (rows.map ids) := by
    rw [List.mapM_map]
    refine mapM_ok fun row mem => ?_
    obtain ⟨entries, eq⟩ := Value.isMap_iff.1 (mapping row mem)
    rw [Function.comp_apply, if_neg (by simp [eq, Value.isNull]), below row mem]
  rw [leavesFrom, read]
  show (((rows.map shown).mapM _ : Except Failure _) >>= fun found => pure found.flatten) = _
  rw [each]
  rfl

end Path

/-- A row joined along a chain has one field more, which shows what the first hop relates it to. -/
theorem joined_chain {e : Entity} {name : String} {path : List String} {hop : Hop}
    (found : schema.hop? e (.text name) = some hop) (row : Value) :
    joined Value.assigned schema tables e (IncludeTree.chain (name :: path)) row =
      row.setField name (hop.shows ((tables.related hop row).map
        (joined Value.assigned schema tables hop.target (IncludeTree.chain path)))) := by
  have named : name = hop.relation.name := by simpa using (Schema.hop?_eq_some found).name_eq
  simp only [IncludeTree.chain, joined, joinedFields, found, Value.assigned, List.foldl_cons, List.foldl_nil, ← named]

variable [Attributes]

/-- **The leaves of a joined row are the ids of the rows that it leads to.** -/
theorem leavesFrom_joined (keyed : tables.Keyed schema) (once : tables.KeysOnce schema) {e e' : Entity}
    {path : List String} {hops : List Hop} (walk : schema.Walks e path hops e')
    (declared : schema.find? e.name = some e) (followed : ∀ hop ∈ hops, hop.Followed) (full : List String)
    (s : String) {row : Value} (isRow : schema.IsRow e row) :
    Path.leavesFrom .skip (full.map .text) (.text s) (path.map .text)
      (joined Value.assigned schema tables e (IncludeTree.chain path) row) =
        .ok ((tables.gather hops row).flatMap (heldId (.text s))) := by
  induction walk generalizing row with
  | done e =>
    have plain : joined Value.assigned schema tables e (IncludeTree.chain []) row = row := by
      simp only [IncludeTree.chain, IncludeTree.empty, joined, joinedFields, Value.assigned, List.foldl_nil]
    rw [plain, List.map_nil, Path.leavesFrom, Path.leafId_eq isRow.mapping, Tables.gather, List.flatMap_singleton]
  | @step e e' name path hop hops here more ih =>
    have from' := Schema.hop?_eq_some here
    obtain ⟨kind, later⟩ := List.forall_mem_cons.1 followed
    have stored : ∀ other ∈ tables.rows hop.target.name, schema.IsRow hop.target other :=
      keyed _ (Schema.find?_eq_some from'.target).1
    have below : ∀ other ∈ tables.related hop row, Path.leavesFrom .skip (full.map .text) (.text s) (path.map .text)
        (joined Value.assigned schema tables hop.target (IncludeTree.chain path) other) =
          .ok ((tables.gather hops other).flatMap (heldId (.text s))) :=
      fun other mem => ih from'.target_found later (stored other (List.mem_filter.1 mem).1)
    have mapping : ∀ other ∈ tables.related hop row,
        (joined Value.assigned schema tables hop.target (IncludeTree.chain path) other).isMap = true :=
      fun other mem => by rw [isMap_joined, (stored other (List.mem_filter.1 mem).1).mapping]
    have read : (joined Value.assigned schema tables e (IncludeTree.chain (name :: path)) row).field (.text name) =
        .ok (hop.shows ((tables.related hop row).map
          (joined Value.assigned schema tables hop.target (IncludeTree.chain path)))) := by
      rw [Value.field_text (by rw [isMap_joined, isRow.mapping]), joined_chain here,
        Value.column_setField_self isRow.mapping]
    rw [List.map_cons, Tables.gather, List.flatMap_assoc]
    rcases kind with many | one
    · rw [Hop.shows, many] at read
      exact Path.leavesFrom_list read mapping below
    · have key : row.HoldsKey hop.ownerColumn := isRow.keys _ from'.ownerColumn_mem
      have keys : ∀ other ∈ tables.rows hop.target.name, other.HoldsKey hop.targetColumn := fun other mem =>
        (stored other mem).keys _ (from'.targetColumn_mem (Schema.find?_eq_some declared).1 (by simp [one]))
      rcases related_of_belongsTo once (Schema.find?_eq_some from'.target).1 keys one key with none | ⟨other, single⟩
      · have shown : hop.shows [] = .null := by rw [Hop.shows, one]; rfl
        rw [none, List.map_nil, shown] at read
        rw [none]
        exact Path.leavesFrom_null full read
      · have shown (v : Value) : hop.shows [v] = v := by rw [Hop.shows, one]; rfl
        rw [single, List.map_singleton, shown] at read
        rw [single] at below mapping ⊢
        rw [Path.leavesFrom_map read (mapping other (by simp)), below other (by simp), List.flatMap_singleton]

end Semijoin
