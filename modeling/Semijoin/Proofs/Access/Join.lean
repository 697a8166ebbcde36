import Semijoin.Proofs.Access.Batch
import Semijoin.Proofs.Schema.Accepted

/-!
# Attaching is joining row by row

An include tree is attached in batches, over rows that several parents share. `attach_ends` says that every
row still gets what it would have looked up alone. The induction is on the tree; its invariant is that the
rows at hand hold scalars in their key columns, which relations that are not named like a key can not disturb.
-/

namespace Semijoin
set_option autoImplicit false

variable {schema : Schema} {tables : Tables}

theorem links_eq {hop : Hop} {row other : Value} (here : row.HoldsScalar hop.ownerColumn)
    (there : other.HoldsScalar hop.targetColumn) : hop.links row other =
      (row.columnKey hop.ownerColumn != .null &&
        (row.columnKey hop.ownerColumn).same (other.columnKey hop.targetColumn)) := by
  rw [Hop.links, here.column_eq, there.column_eq, Value.meets_scalar]

theorem keyFields_eq {hop : Hop} (kind : hop.relation.kind ≠ .hasAndBelongsToMany) :
    keyFields hop.owner hop.target hop.relation = some (hop.ownerColumn, hop.targetColumn) := by
  unfold keyFields Hop.ownerColumn Hop.targetColumn
  cases k : hop.relation.kind <;> simp_all

theorem handOut_eq (hop : Hop) (related : List Value) : handOut hop.relation.kind related = hop.shows related := by
  unfold Hop.shows
  cases hop.relation.kind <;> rfl

namespace Schema.Fits

variable {e : Entity} {row : Value}

/-- A row that is given a field that is not named like a key still fits. -/
theorem setField (h : schema.Fits e row) (declared : e ∈ schema.entities) {name : String}
    (apart : .text name ∉ schema.keyNames) (x : Value) : schema.Fits e (row.setField name x) := by
  refine ⟨by rw [Value.isMap_setField, h.mapping], fun k hk => ?_⟩
  have ne : k ≠ .text name := fun eq => apart (eq ▸ keyNames_of_keyColumns declared hk)
  exact (h.scalars k hk).congr (Value.column_setField_of_ne ne row x)

end Schema.Fits

/-- Which rows are related depends on the row's key columns only. -/
theorem related_congr {hop : Hop} {row row' : Value} (h : row.column hop.ownerColumn = row'.column hop.ownerColumn) :
    tables.related hop row = tables.related hop row' :=
  List.filter_congr fun other _ => by rw [Hop.links, Hop.links, h]

theorem joinedFields_congr {extend : Value → List (String × Value) → Value} {owner : Entity} {row row' : Value}
    (h : ∀ k ∈ schema.keyColumns owner, row.column k = row'.column k) (branches : List (Value × IncludeTree)) :
    joinedFields extend schema tables owner branches row = joinedFields extend schema tables owner branches row' := by
  induction branches with
  | nil => simp only [joinedFields]
  | cons branch rest ih =>
    obtain ⟨name, nested⟩ := branch
    simp only [joinedFields]
    cases found : schema.hop? owner name with
    | none => exact ih
    | some hop =>
      have same := h _ (Schema.hop?_eq_some found).ownerColumn_mem
      simp only [related_congr same, ih]

/-- No branch sets a field that is named like a key. -/
theorem joinedFields_apart {extend : Value → List (String × Value) → Value} {owner : Entity} {row : Value}
    {branches : List (Value × IncludeTree)} (joinable : IncludeTree.BranchesJoinable schema owner branches) :
    ∀ f ∈ joinedFields extend schema tables owner branches row, .text f.1 ∉ schema.keyNames := by
  induction branches with
  | nil => simp [joinedFields]
  | cons branch rest ih =>
    obtain ⟨name, nested⟩ := branch
    rw [IncludeTree.BranchesJoinable] at joinable
    obtain ⟨⟨r, rfl, -, -, apart, -⟩, more⟩ := joinable
    rw [joinedFields]
    cases found : schema.hop? owner (.text r.name) with
    | none => exact ih more
    | some hop => exact List.forall_mem_cons.2 ⟨(Schema.hop?_eq_some found).name_eq ▸ apart, ih more⟩

theorem joined_column {owner : Entity} {tree : IncludeTree} (joinable : tree.Joinable schema owner) {k : Value}
    (key : k ∈ schema.keyNames) (row : Value) :
    (joined Value.assigned schema tables owner tree row).column k = row.column k := by
  obtain ⟨branches, fault⟩ := tree
  rw [IncludeTree.Joinable] at joinable
  rw [joined]
  exact Value.column_assigned_of_ne (fun f hf e => joinedFields_apart joinable.2 f hf (e ▸ key)) row

theorem isMap_joined {owner : Entity} (tree : IncludeTree) (row : Value) :
    (joined Value.assigned schema tables owner tree row).isMap = row.isMap := by
  obtain ⟨branches, fault⟩ := tree
  rw [joined, Value.isMap_assigned]

/-- Handing out a batch of joined rows gives each row what it finds alone. -/
theorem handOutAll_eq {hop : Hop} {owned target : String} (ownedBy : hop.ownerColumn = .text owned)
    (targetBy : hop.targetColumn = .text target) {rows stored : List Value} {g : Value → Value}
    (keyed : KeyedBy hop.ownerColumn rows) (storedKeyed : KeyedBy hop.targetColumn stored)
    (mapping : ∀ row ∈ stored, (g row).isMap = true)
    (stable : ∀ row ∈ stored, (g row).column hop.targetColumn = row.column hop.targetColumn) :
    handOutAll hop.relation hop.ownerColumn hop.targetColumn rows
        ((rowsAmong hop.targetColumn (Scalar.distinct (heldKeys hop.ownerColumn rows)) stored).map g) =
      .ok (rows.map fun row => row.setField hop.relation.name (hop.shows ((stored.filter (hop.links row)).map g))) := by
  have childrenKeyed : KeyedBy hop.targetColumn
      ((rowsAmong hop.targetColumn (Scalar.distinct (heldKeys hop.ownerColumn rows)) stored).map g) := by
    intro c hc
    obtain ⟨row, hr, rfl⟩ := List.mem_map.1 hc
    have mem := (List.mem_filter.1 hr).1
    exact ⟨mapping row mem, (storedKeyed row mem).2.congr (stable row mem)⟩
  have sameKey : ∀ r ∈ stored, (g r).columnKey hop.targetColumn = r.columnKey hop.targetColumn :=
    fun r hr => by simp only [Value.columnKey, stable r hr]
  have noNull : .null ∉ heldKeys hop.ownerColumn rows := fun h => (mem_heldKeys.1 h).1 rfl
  rw [handOutAll_keyed ownedBy targetBy keyed childrenKeyed]
  refine congrArg Except.ok (List.map_congr_left fun row mem => ?_)
  have held : row.columnKey hop.ownerColumn ≠ .null →
      row.columnKey hop.ownerColumn ∈ heldKeys hop.ownerColumn rows := fun set => mem_heldKeys.2 ⟨set, row, mem, rfl⟩
  have linked : (stored.filter fun other => row.columnKey hop.ownerColumn != .null &&
      (row.columnKey hop.ownerColumn).same (other.columnKey hop.targetColumn)) = stored.filter (hop.links row) :=
    List.filter_congr fun other ho => (links_eq (keyed row mem).2 (storedKeyed other ho).2).symm
  rw [rowsUnder_index sameKey held noNull, handOut_eq, linked]

/-- Along a hop, the rows at hand and the stored rows that they may be related to hold scalars. -/
theorem Schema.HopFrom.keyedBy {owner : Entity} {name : Value} {hop : Hop} (from' : schema.HopFrom owner name hop)
    (fit : tables.Fit schema) (declared : owner ∈ schema.entities) (kind : hop.relation.kind ≠ .hasAndBelongsToMany)
    {rows : List Value} (fits : ∀ row ∈ rows, schema.Fits owner row) :
    KeyedBy hop.ownerColumn rows ∧ KeyedBy hop.targetColumn (tables.rows hop.target.name) := by
  have stored := fit _ (Schema.find?_eq_some from'.target).1
  exact ⟨fun row hr => ⟨(fits row hr).mapping, (fits row hr).scalars _ from'.ownerColumn_mem⟩,
    fun row hr => ⟨(stored row hr).mapping, (stored row hr).scalars _ (from'.targetColumn_mem declared kind)⟩⟩

/-- The columns that a hop compares are plain names. -/
theorem Schema.HopFrom.plainColumns {owner : Entity} {name : Value} {hop : Hop} (from' : schema.HopFrom owner name hop)
    (plain : schema.PlainKeys) (declared : owner ∈ schema.entities) (kind : hop.relation.kind ≠ .hasAndBelongsToMany) :
    hop.ownerColumn.PlainName ∧ hop.targetColumn.PlainName :=
  ⟨plain _ (Schema.keyNames_of_keyColumns declared (from'.owner_eq ▸ from'.ownerColumn_mem)),
    plain _ (Schema.keyNames_of_keyColumns (Schema.find?_eq_some from'.target).1 (from'.targetColumn_mem declared kind))⟩

/-- The select for a branch gives the stored rows that hold one of the keys at hand. -/
theorem branch_selects [Attributes] (plain : schema.PlainKeys) (fit : tables.Fit schema) {owner : Entity}
    (declared : owner ∈ schema.entities) {name : Value} {hop : Hop} (from' : schema.HopFrom owner name hop)
    (kind : hop.relation.kind ≠ .hasAndBelongsToMany) {rows : List Value}
    (fits : ∀ row ∈ rows, schema.Fits owner row) :
    distinctKeys hop.ownerColumn rows = .ok (Scalar.distinct (heldKeys hop.ownerColumn rows)) ∧
    (selectAmong tables.selector hop.target hop.targetColumn (Scalar.distinct (heldKeys hop.ownerColumn rows))).Ends
      (.ok (rowsAmong hop.targetColumn (Scalar.distinct (heldKeys hop.ownerColumn rows))
        (tables.rows hop.target.name))) := by
  obtain ⟨rowsKeyed, storedKeyed⟩ := from'.keyedBy fit declared kind fits
  obtain ⟨⟨owned, ownedBy, -⟩, target, targetBy, notGroup⟩ := from'.plainColumns plain declared kind
  constructor
  · rw [ownedBy] at rowsKeyed ⊢
    exact distinctKeys_eq rowsKeyed
  · rw [targetBy] at storedKeyed ⊢
    exact selectAmong_ends notGroup storedKeyed _

/-- What a branch along a hop comes down to. -/
theorem attachAll_hop {owner : Entity} (declared : schema.find? owner.name = some owner) {name : Value} {hop : Hop}
    (from' : schema.HopFrom owner name hop) (kind : hop.relation.kind ≠ .hasAndBelongsToMany) {σ : Type}
    (selector : Selector σ) (rows : List Value) (nested : IncludeTree) (rest : List (Value × IncludeTree)) :
    attachAll schema selector owner rows ((name, nested) :: rest) = (do
      let keys ← Action.ofValues (distinctKeys hop.ownerColumn rows)
      let selected ← selectAmong selector hop.target hop.targetColumn keys
      let children ← attach schema selector hop.target selected nested
      let handed ← Action.ofValues (handOutAll hop.relation hop.ownerColumn hop.targetColumn rows children)
      attachAll schema selector owner handed rest) := by
  have columns := keyFields_eq kind
  rw [from'.owner_eq] at columns
  rw [attachAll, from'.relation_eq declared, Action.ofExcept_ok_bind, from'.entity_eq, Action.ofExcept_ok_bind, columns]

variable [Attributes]

/-- The rows at hand, once a branch has been attached to them. -/
theorem attachBranch_ends (plain : schema.PlainKeys) (fit : tables.Fit schema) {owner : Entity}
    (declared : schema.find? owner.name = some owner) {name : Value} {hop : Hop}
    (found : schema.hop? owner name = some hop) (kind : hop.relation.kind ≠ .hasAndBelongsToMany)
    {rows : List Value} (fits : ∀ row ∈ rows, schema.Fits owner row) {nested : IncludeTree}
    (joinable : nested.Joinable schema hop.target)
    (below : ∀ selected, (∀ row ∈ selected, schema.Fits hop.target row) →
      (attach schema tables.selector hop.target selected nested).Ends
        (.ok (selected.map (joined Value.assigned schema tables hop.target nested))))
    {rest : List (Value × IncludeTree)} {r : Except Failure (List Value)}
    (more : (attachAll schema tables.selector owner (rows.map fun row => row.setField hop.relation.name (hop.shows
      ((tables.related hop row).map (joined Value.assigned schema tables hop.target nested)))) rest).Ends r) :
    (attachAll schema tables.selector owner rows ((name, nested) :: rest)).Ends r := by
  have from' := Schema.hop?_eq_some found
  have mem := (Schema.find?_eq_some declared).1
  have targetMem := (Schema.find?_eq_some from'.target).1
  obtain ⟨keys, selected⟩ := branch_selects plain fit mem from' kind fits
  obtain ⟨rowsKeyed, storedKeyed⟩ := from'.keyedBy fit mem kind fits
  obtain ⟨⟨owned, ownedBy, -⟩, target, targetBy, -⟩ := from'.plainColumns plain mem kind
  have children := below (rowsAmong hop.targetColumn (Scalar.distinct (heldKeys hop.ownerColumn rows))
    (tables.rows hop.target.name)) fun row hr => fit _ targetMem row (List.mem_filter.1 hr).1
  have handed := handOutAll_eq (g := joined Value.assigned schema tables hop.target nested) ownedBy targetBy
    rowsKeyed storedKeyed (fun row hr => by rw [isMap_joined, (storedKeyed row hr).1])
    (fun row _ => joined_column joinable
      (Schema.keyNames_of_keyColumns targetMem (from'.targetColumn_mem mem kind)) row)
  rw [attachAll_hop declared from' kind]
  exact .bind (Action.ends_ofValues keys) (.bind selected (.bind children (.bind (Action.ends_ofValues handed) more)))

mutual

/-- **Attaching is joining**: every row at hand gets the include tree as if it were the only one. -/
theorem attach_ends (sound : schema.Sound) (plain : schema.PlainKeys) (fit : tables.Fit schema) {owner : Entity}
    (declared : schema.find? owner.name = some owner) {rows : List Value}
    (fits : ∀ row ∈ rows, schema.Fits owner row) (tree : IncludeTree) (joinable : tree.Joinable schema owner) :
    (attach schema tables.selector owner rows tree).Ends
      (.ok (rows.map (joined Value.assigned schema tables owner tree))) := by
  match tree with
  | .node branches fault =>
    rw [IncludeTree.Joinable] at joinable
    obtain ⟨rfl, branchesJoin⟩ := joinable
    rw [attach]
    refine .bind (attachAll_ends sound plain fit declared fits branches branchesJoin) ?_
    have : (joined Value.assigned schema tables owner (.node branches none)) =
        fun row => row.assigned (joinedFields Value.assigned schema tables owner branches row) := by
      funext row
      rw [joined]
    rw [this]
    exact Action.ends_pure _

theorem attachAll_ends (sound : schema.Sound) (plain : schema.PlainKeys) (fit : tables.Fit schema) {owner : Entity}
    (declared : schema.find? owner.name = some owner) {rows : List Value}
    (fits : ∀ row ∈ rows, schema.Fits owner row) (branches : List (Value × IncludeTree))
    (joinable : IncludeTree.BranchesJoinable schema owner branches) :
    (attachAll schema tables.selector owner rows branches).Ends
      (.ok (rows.map fun row => row.assigned (joinedFields Value.assigned schema tables owner branches row))) := by
  match branches with
  | [] =>
    rw [attachAll]
    simpa [joinedFields, Value.assigned] using Action.ends_pure rows
  | (name, nested) :: rest =>
    rw [IncludeTree.BranchesJoinable] at joinable
    obtain ⟨⟨r, rfl, named, kind, apart, below⟩, restJoin⟩ := joinable
    have mem := (Schema.find?_eq_some declared).1
    obtain ⟨t, targetFound⟩ := sound.closed owner mem r (List.mem_of_find?_eq_some named)
    obtain ⟨hop, found, rfl, rfl⟩ := Schema.exists_hop named targetFound
    have nestedJoin := below _ targetFound
    refine attachBranch_ends plain fit declared found kind fits nestedJoin
      (fun selected h => attach_ends sound plain fit (Schema.find?_name targetFound) h nested nestedJoin) ?_
    -- the rest of the branches find the rows with this branch's field set, which none of them reads
    have withField (row : Value) : schema.Fits owner row → schema.Fits owner (row.setField hop.relation.name
        (hop.shows ((tables.related hop row).map (joined Value.assigned schema tables hop.target nested)))) :=
      fun h => h.setField mem apart _
    have later := attachAll_ends sound plain fit declared
      (List.forall_mem_map.2 fun row hr => withField row (fits row hr)) rest restJoin
    rw [List.map_map] at later
    refine (congrArg (fun g => Action.Ends _ (Except.ok (rows.map g))) (funext fun row => ?_)).mp later
    rw [Function.comp_apply, joinedFields_congr (fun k hk => Value.column_setField_of_ne
      (fun e => apart (e ▸ Schema.keyNames_of_keyColumns mem hk)) row _) rest]
    simp only [joinedFields, found, Value.assigned, List.foldl_cons]

end

/-- A find joins the stored rows that its where selects. -/
theorem find_ends_of_fit (sound : schema.Sound) (plain : schema.PlainKeys) (fit : tables.Fit schema) {e : Entity}
    (declared : schema.find? e.name = some e) {condition include_ : Value}
    (decides : ∀ row ∈ tables.rows e.name, Where.Decides condition row)
    (joinable : (IncludeTree.ofValue include_).Joinable schema e) :
    ((tables.access schema).find e.name condition include_).Ends
      (.ok (.list (((tables.rows e.name).filter (Where.accepts condition)).map
        (joined Value.assigned schema tables e (IncludeTree.ofValue include_))))) := by
  have fits : ∀ row ∈ (tables.rows e.name).filter (Where.accepts condition), schema.Fits e row :=
    fun row hr => fit e (Schema.find?_eq_some declared).1 row (List.mem_filter.1 hr).1
  have attached := attach_ends sound plain fit declared fits _ joinable
  exact .bind (Action.ends_ofExcept (Schema.entity_text declared))
    (.bind (Tables.select_ends decides) (.bind attached (Action.ends_pure _)))

theorem find_ends (sound : schema.Sound) (plain : schema.PlainKeys) (keyed : tables.Keyed schema) {e : Entity}
    (declared : schema.find? e.name = some e) {condition include_ : Value}
    (decides : ∀ row ∈ tables.rows e.name, Where.Decides condition row)
    (joinable : (IncludeTree.ofValue include_).Joinable schema e) :
    ((tables.access schema).find e.name condition include_).Ends
      (.ok (.list (((tables.rows e.name).filter (Where.accepts condition)).map
        (joined Value.assigned schema tables e (IncludeTree.ofValue include_))))) :=
  find_ends_of_fit sound plain keyed.fit declared decides joinable

end Semijoin
