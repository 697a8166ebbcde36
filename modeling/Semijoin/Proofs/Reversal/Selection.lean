import Semijoin.Proofs.Reversal.Condition
import Semijoin.Proofs.Reversal.Reaches

/-!
# What a reversed condition selects

A reversal is one find over a chain and a membership condition on what is collected. `run_selects` says that
a row of the root satisfies that condition exactly if it leads, along the steps of the path, to a row of the
furthest entity that satisfies the condition reversed.
-/

namespace Semijoin
set_option autoImplicit false

variable {schema : Schema} {tables : Tables}

/-- The ids that rows hold are their keys, nulls left out. -/
theorem flatMap_heldId {field : Value} {rows : List Value} (keyed : ∀ row ∈ rows, row.HoldsKey field) :
    rows.flatMap (heldId field) = (heldKeys field rows).map .scalar := by
  induction rows with
  | nil => rfl
  | cons row rest ih =>
    obtain ⟨key, keys⟩ := List.forall_mem_cons.1 keyed
    rw [List.flatMap_cons, ih keys, heldId, key.column_eq, Value.isNull_scalar, heldKeys, heldKeys, List.map_cons,
      List.filter_cons]
    by_cases null : row.columnKey field = .null <;> simp [null]

namespace Reversal

/-- The ids collected from a find are the keys of the rows next to the root. -/
theorem ids_eq [Attributes] (keyed : tables.Keyed schema) (once : tables.KeysOnce schema) {e e' : Entity}
    {names : List String} {hops : List Hop} (walk : schema.Walks e names hops e') (declared : schema.find? e.name = some e)
    (followed : ∀ hop ∈ hops, hop.Followed) {rows : List Value} (isRows : ∀ row ∈ rows, schema.IsRow e row) {s : String}
    (keys : ∀ row ∈ rows.flatMap (tables.gather hops), row.HoldsKey (.text s)) (rootField : Value) (furthest : String) :
    Plan.ids ⟨rootField, .text s, furthest, names⟩ .skip
        (.list (rows.map (joined Value.assigned schema tables e (IncludeTree.chain names)))) =
      .ok ((heldKeys (.text s) (rows.flatMap (tables.gather hops))).map .scalar) := by
  have each : (rows.map (joined Value.assigned schema tables e (IncludeTree.chain names))).mapM
      (Path.leaves .skip (names.map .text) (.text s)) =
        .ok (rows.map fun row => (tables.gather hops row).flatMap (heldId (.text s))) := by
    rw [List.mapM_map]
    exact mapM_ok fun row mem => leavesFrom_joined keyed once walk declared followed names s (isRows row mem)
  rw [Plan.ids, ← flatMap_heldId keys, List.flatMap_assoc]
  show ((_ : Except Failure (List (List Value))) >>= fun found => pure found.flatten) = _
  rw [each]
  rfl

theorem Options.isIn_kept (options : Options) (k : Scalar) (keys : List Scalar) :
    k.isIn (options.kept keys) = k.isIn keys := by
  unfold kept
  split
  · exact Scalar.isIn_distinct k keys
  · rfl

variable [Attributes]

/-- What is fetched holds of the same rows as the condition. -/
theorem holds_fetched {condition row : Value} (decides : Where.Decides condition row) :
    Where.Decides (fetched condition) row ∧ Where.accepts (fetched condition) row = Where.accepts condition row := by
  unfold fetched
  cases truthy : condition.truthy with
  | true => exact ⟨decides, rfl⟩
  | false =>
    have all : Where.holds row (.map []) = .ok true := rfl
    exact ⟨⟨true, all⟩, by
      simp only [Bool.false_eq_true, if_false]
      rw [Where.accepts_of_holds all, Where.accepts_of_holds (Where.holds_of_falsy row truthy)]⟩

/-- The find of a reversal gives the furthest rows that match, joined along the way back. -/
theorem fetch_ends (sound : schema.Sound) (plain : schema.PlainKeys)
    (apart : ∀ e ∈ schema.entities, ∀ r ∈ e.relations, .text r.name ∉ schema.keyNames) (keyed : tables.Keyed schema)
    {e e' : Entity} {path : List String} {hops : List Hop} (walk : schema.Walks e path hops e')
    (declared : schema.find? e.name = some e) (returns : ∀ hop ∈ hops, hop.Returns) {condition : Value}
    (decides : ∀ row ∈ tables.rows e'.name, Where.Decides condition row) (rootField idField : Value) :
    (Plan.fetch ⟨rootField, idField, e'.name, backNames hops⟩ (tables.access schema) condition).Ends
      (.ok (.list (((tables.rows e'.name).filter (Where.accepts condition)).map
        (joined Value.assigned schema tables e' (IncludeTree.chain (backNames hops)))))) := by
  have backwards : schema.Walks e' (backNames hops) (retrace hops) e :=
    retrace_walks sound walk declared fun hop mem => (returns hop mem).back?_eq
  have furthest := walk.found declared
  have apartBack : ∀ hop ∈ retrace hops, .text hop.relation.name ∉ schema.keyNames := fun hop mem => by
    obtain ⟨owner, back⟩ := backwards.hops_found furthest hop mem
    exact apart _ (Schema.find?_eq_some owner).1 _ back.mem
  have joinable := IncludeTree.chain_joinable backwards
    (fun hop mem => (followed_of_retrace returns hop mem).kind_ne) apartBack
  rw [← IncludeTree.ofValue_includeScope] at joinable
  have found := find_ends sound plain keyed furthest (fun row mem => (holds_fetched (decides row mem)).1) joinable
  have selected : (tables.rows e'.name).filter (Where.accepts (fetched condition)) =
      (tables.rows e'.name).filter (Where.accepts condition) :=
    List.filter_congr fun row mem => (holds_fetched (decides row mem)).2
  rw [selected, IncludeTree.ofValue_includeScope] at found
  exact found.adapt _

/-- A reversal whose way back is a walk comes to a membership condition on the keys collected. -/
theorem run_ends (sound : schema.Sound) (plain : schema.PlainKeys)
    (apart : ∀ e ∈ schema.entities, ∀ r ∈ e.relations, .text r.name ∉ schema.keyNames) (keyed : tables.Keyed schema)
    (once : tables.KeysOnce schema) {root e' : Entity} (declared : schema.find? root.name = some root)
    {path : List String} {first : Hop} {hops : List Hop} (walk : schema.Walks root path (first :: hops) e')
    (followed : first.Followed) (returnsFirst : first.relation.kind = .hasMany → first.Returns)
    (returns : ∀ hop ∈ hops, hop.Returns) {options : Options} (skips : options.missing = .skip)
    (depth : path.length ≤ options.maxDepth) {condition : Value} (writable : condition.isWritable = true)
    (decides : ∀ row ∈ tables.rows e'.name, Where.Decides condition row) {f : String}
    (rootField : first.ownerColumn = .text f) :
    (run (tables.access schema) schema options root.name (path.map .text) condition).Ends (.ok (membership (.text f)
      ((options.kept (heldKeys first.targetColumn (tables.adjacent hops e'.name condition))).map .scalar))) := by
  cases walk with
  | @step _ _ name path _ _ here more =>
    have from' := Schema.hop?_eq_some here
    have mem := (Schema.find?_eq_some declared).1
    have returnsBack : ∀ hop ∈ hops, hop.back? = some hop.back := fun hop mem => (returns hop mem).back?_eq
    have routed := route_eq sound declared (.step here more) depth followed (fun many => (returnsFirst many).back?_eq)
      returnsBack
    have plan := (plan_eq_route writable (name :: path)).trans routed
    have found := fetch_ends sound plain apart keyed more from'.target_found returns decides first.ownerColumn
      first.idColumn
    have furthest := more.found from'.target_found
    have isRows : ∀ row ∈ (tables.rows e'.name).filter (Where.accepts condition), schema.IsRow e' row :=
      fun row h => keyed _ (Schema.find?_eq_some furthest).1 row (List.mem_filter.1 h).1
    have keys : ∀ row ∈ tables.adjacent hops e'.name condition, row.HoldsKey first.targetColumn := fun row h =>
      (from'.holdsKeys keyed mem followed).2 row
        ((mem_adjacent_iff sound keyed more from'.target_found returns condition).1 h).1
    obtain ⟨s, idColumn, -⟩ := plain _ (Schema.keyNames_of_keyColumns (Schema.find?_eq_some from'.target).1
      (from'.targetColumn_mem mem followed.kind_ne))
    rw [idColumn] at keys
    have ids := ids_eq keyed once (retrace_walks sound more from'.target_found returnsBack) furthest
      (followed_of_retrace returns) isRows keys first.ownerColumn e'.name
    rw [← idColumn, ← Hop.idColumn_eq followed returnsFirst, ← skips] at ids
    rw [← Hop.idColumn_eq followed returnsFirst]
    have key := Plan.key_text (p := ⟨first.ownerColumn, first.idColumn, e'.name, backNames hops⟩) rootField
      ((Hop.idColumn_eq followed returnsFirst).trans idColumn)
    refine .bind (Action.ends_ofExcept plan) (.bind found (Action.ends_ofExcept ?_))
    exact condition_eq_ok.2 ⟨_, _, _, ids, Options.keep_keys _, key, rfl⟩

end Reversal

/-- **A reversed condition selects exactly the rows that lead to a match.** If the condition has a text, as it must to
be reversed, and the relations first declared back are converses of the steps, a row of the root satisfies what a
reversal comes to exactly if a chain of related rows along the path leads from it to a row that satisfies the
condition. -/
theorem run_selects [Attributes] {graph : Value} {schema : Schema} {tables : Tables} (document : graph.isDocument = true)
    (accepted : Schema.ofValue graph = .ok schema) (plain : schema.PlainKeys)
    (apart : ∀ e ∈ schema.entities, ∀ r ∈ e.relations, .text r.name ∉ schema.keyNames) (keyed : tables.Keyed schema)
    (once : tables.KeysOnce schema) {root e' : Entity} (declared : schema.find? root.name = some root)
    {path : List String} {first : Hop} {hops : List Hop} (walk : schema.Walks root path (first :: hops) e')
    (followed : first.Followed) (returnsFirst : first.relation.kind = .hasMany → first.Returns)
    (returns : ∀ hop ∈ hops, hop.Returns) {options : Reversal.Options} (skips : options.missing = .skip)
    (depth : path.length ≤ options.maxDepth) {condition : Value} (writable : condition.isWritable = true)
    (decides : ∀ row ∈ tables.rows e'.name, Where.Decides condition row) :
    ∃ f ids, first.ownerColumn = .text f ∧
      (Reversal.run (tables.access schema) schema options root.name (path.map .text) condition).Ends
        (.ok (.ofFields [(f, .ofFields [("in", .list ids)])])) ∧
      ∀ row ∈ tables.rows root.name, Where.Decides (.ofFields [(f, .ofFields [("in", .list ids)])]) row ∧
        (Where.holds row (.ofFields [(f, .ofFields [("in", .list ids)])]) = .ok true ↔
          ∃ last, tables.Reaches (first :: hops) row last ∧ Where.holds last condition = .ok true) := by
  have sound := Schema.sound_of_ofValue document accepted
  have mem := (Schema.find?_eq_some declared).1
  have from' : schema.HopFrom root (.text first.relation.name) first := by
    cases walk with
    | step here _ => exact (Schema.hop?_eq_some here).name_eq ▸ Schema.hop?_eq_some here
  obtain ⟨f, rootField, notGroup⟩ := plain _ (Schema.keyNames_of_keyColumns mem from'.ownerColumn_mem)
  refine ⟨f, _, rootField, Reversal.run_ends sound plain apart keyed once declared walk followed returnsFirst returns
    skips depth writable decides rootField, fun row start => ?_⟩
  have isRow := keyed root mem row start
  have key : row.HoldsKey (.text f) := rootField ▸ isRow.keys _ from'.ownerColumn_mem
  have holds := Where.holds_keys isRow.mapping notGroup key
    (options.kept (heldKeys first.targetColumn (tables.adjacent hops e'.name condition)))
  rw [options.isIn_kept] at holds
  refine ⟨⟨_, holds⟩, ?_⟩
  rw [← isIn_adjacent_iff sound keyed walk declared followed returns condition start, rootField]
  exact ⟨fun h => Except.ok.inj (holds.symm.trans h), fun h => holds.trans (congrArg _ h)⟩

namespace Sample

/-- The hop from a country to its cities. -/
def cities : Hop := ⟨country, ⟨"cities", .hasMany, "City", .text "country_id"⟩, city⟩

/-- The hop from a city to its people. -/
def people : Hop := ⟨city, ⟨"people", .hasMany, "Person", .text "city_id"⟩, person⟩

/-- The hop from a person to the city that he lives in. -/
def home : Hop := ⟨person, ⟨"city", .belongsTo, "City", .text "city_id"⟩, city⟩

theorem cities_returns : cities.Returns := ⟨_, rfl, rfl, .inl ⟨rfl, rfl⟩, rfl⟩

theorem people_returns : people.Returns := ⟨_, rfl, rfl, .inl ⟨rfl, rfl⟩, rfl⟩

theorem home_returns : home.Returns := ⟨_, rfl, rfl, .inr ⟨rfl, rfl⟩, rfl⟩

theorem once : Sample.tables.KeysOnce Sample.schema := by unfold Tables.KeysOnce; decide +kernel

end Sample

/-- The countries with a person in city 10: three steps of both kinds, over keys of several kinds. -/
theorem run_selects_countries :
    ∃ f ids, Sample.cities.ownerColumn = .text f ∧
      (Reversal.run (Sample.tables.access Sample.schema) Sample.schema {} "Country"
        [.text "cities", .text "people", .text "city"] (.ofFields [("id", .int 10)])).Ends
          (.ok (.ofFields [(f, .ofFields [("in", .list ids)])])) ∧
      ∀ row ∈ Sample.tables.rows "Country",
        Where.Decides (.ofFields [(f, .ofFields [("in", .list ids)])]) row ∧
          (Where.holds row (.ofFields [(f, .ofFields [("in", .list ids)])]) = .ok true ↔
            ∃ last, Sample.tables.Reaches [Sample.cities, Sample.people, Sample.home] row last ∧
              Where.holds last (.ofFields [("id", .int 10)]) = .ok true) :=
  run_selects Sample.document Sample.accepted Sample.plain
    (by simp [Schema.keyNames, Sample.schema, Sample.country, Sample.city, Sample.person]) Sample.keyed Sample.once
    (rfl : Sample.schema.find? Sample.country.name = some Sample.country)
    (.step rfl (.step rfl (.step rfl (.done _))) : Sample.schema.Walks Sample.country ["cities", "people", "city"]
      [Sample.cities, Sample.people, Sample.home] Sample.city)
    (.inl rfl) (fun _ => Sample.cities_returns) (by simp [Sample.people_returns, Sample.home_returns]) rfl (by decide) rfl
    fun row mem => Where.decides_scalar (Sample.keyed Sample.city (by simp [Sample.schema]) row mem).mapping
      (by decide) _

/-- A condition on a long integer is decided on every row, and still not reversed along the same path: it has no
text. -/
theorem decided_unreversed :
    Schema.ofValue Sample.graph = .ok Sample.schema ∧
    Sample.schema.Walks Sample.country ["cities", "people", "city"] [Sample.cities, Sample.people, Sample.home]
      Sample.city ∧
    (Sample.cities.Returns ∧ Sample.people.Returns ∧ Sample.home.Returns) ∧ Sample.tables.Keyed Sample.schema ∧
    Sample.tables.KeysOnce Sample.schema ∧
    (∀ row ∈ Sample.tables.rows "City", Where.Decides (.ofFields [("id", .scalar .leastLong)]) row) ∧
    ∀ s, (Reversal.run (Sample.tables.access Sample.schema) Sample.schema {} "Country"
      [.text "cities", .text "people", .text "city"] (.ofFields [("id", .scalar .leastLong)])).step s =
        (.error (.ofFault .longInteger), s) :=
  ⟨Sample.accepted, .step rfl (.step rfl (.step rfl (.done _))),
    ⟨Sample.cities_returns, Sample.people_returns, Sample.home_returns⟩, Sample.keyed, Sample.once,
    fun row mem => Where.decides_scalar (Sample.keyed Sample.city (by simp [Sample.schema]) row mem).mapping (by decide) _,
    fun s => Reversal.run_long (Value.isWritable_equality Scalar.leastLong_long "id") ["cities", "people", "city"] s⟩

end Semijoin
