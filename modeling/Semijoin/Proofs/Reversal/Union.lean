import Semijoin.Proofs.Reversal.Selection

/-!
# Alternatives reverse to unions

A reversal asks every row of the furthest entity by itself: what the ids of one row are does not depend on
which other rows were fetched with it, although their includes are attached in one batch. So a reversal of
alternatives collects what the reversals of the alternatives collect, on every graph, whether or not what
leads back are converses and whatever rows share a key.
-/

namespace Semijoin
set_option autoImplicit false

section Rows

variable {schema : Schema} {tables : Tables}

/-- Ids list a value: as it is, or as one that is equal. -/
def Listed (ids : List Value) (x : Value) : Prop := ∃ m ∈ ids, m = x ∨ m.same x = true

theorem listed_flatMap {rows : List Value} {ids : Value → List Value} {x : Value} :
    Listed (rows.flatMap ids) x ↔ ∃ row ∈ rows, Listed (ids row) x := by
  constructor
  · rintro ⟨m, mem, same⟩
    obtain ⟨row, held, mem⟩ := List.mem_flatMap.1 mem
    exact ⟨row, held, m, mem, same⟩
  · rintro ⟨row, held, m, mem, same⟩
    exact ⟨m, List.mem_flatMap.2 ⟨row, held, mem⟩, same⟩

/-- A chain that is attached without failure goes over relations that are kept in keys. -/
theorem kinds_of_attach {σ : Type} {selector : Selector σ} {e e' : Entity} {path : List String} {hops : List Hop}
    (walk : schema.Walks e path hops e') (declared : schema.find? e.name = some e) {rows attached : List Value}
    {s s' : σ} (h : (attach schema selector e rows (IncludeTree.chain path)).step s = (.ok attached, s')) :
    ∀ hop ∈ hops, hop.relation.kind ≠ .hasAndBelongsToMany := by
  induction walk generalizing rows attached s s' with
  | done e => simp
  | @step e e' name path hop hops here more ih =>
    have from' := Schema.hop?_eq_some here
    rw [IncludeTree.chain, attach] at h
    obtain ⟨_, _, all, -⟩ := Action.step_bind_eq_ok h
    rw [attachAll] at all
    obtain ⟨relation, _, found, all⟩ := Action.step_bind_eq_ok all
    obtain ⟨target, _, entity, all⟩ := Action.step_bind_eq_ok all
    have relation_eq := (Action.step_ofExcept_eq_ok found).1
    rw [from'.relation_eq declared] at relation_eq
    cases relation_eq
    have target_eq := (Action.step_ofExcept_eq_ok entity).1
    rw [from'.entity_eq] at target_eq
    cases target_eq
    have kind : hop.relation.kind ≠ .hasAndBelongsToMany := by
      intro kind
      rw [keyFields, kind] at all
      cases all
    refine List.forall_mem_cons.2 ⟨kind, ?_⟩
    obtain rfl := from'.owner_eq
    rw [keyFields_eq kind] at all
    obtain ⟨keys, _, -, all⟩ := Action.step_bind_eq_ok all
    obtain ⟨selected, _, -, all⟩ := Action.step_bind_eq_ok all
    obtain ⟨children, _, nested, -⟩ := Action.step_bind_eq_ok all
    exact ih from'.target_found nested

namespace Reversal

variable {options : Options}

/-- A plan whose way back starts at a declared entity and can be attached. -/
structure Plan.Opens (p : Plan) (schema : Schema) (e : Entity) : Prop where
  furthest : p.furthest = e.name
  declared : schema.find? e.name = some e
  joinable : (IncludeTree.chain p.back).Joinable schema e

variable [Attributes]

theorem decides_of_fetched {condition row : Value} (h : Where.Decides (fetched condition) row) :
    Where.Decides condition row := by
  unfold fetched at h
  split at h
  · exact h
  · rename_i falsy
    exact ⟨true, Where.holds_of_falsy row (by simpa using falsy)⟩

/-- A reversal that succeeds has a plan that can be attached, and its condition is no fault on any row. -/
theorem opens_of_run (sound : schema.Sound)
    (apart : ∀ e ∈ schema.entities, ∀ r ∈ e.relations, .text r.name ∉ schema.keyNames) {root : String}
    {path : List Value} {condition r : Value}
    (ended : (run (tables.access schema) schema options root path condition).Ends (.ok r)) :
    ∃ p e, plan schema options.maxDepth root path condition = .ok p ∧ p.Opens schema e ∧
      ∀ row ∈ tables.rows e.name, Where.Decides condition row := by
  obtain ⟨s, step⟩ := ended.step []
  obtain ⟨p, _, planned, step⟩ := Action.step_bind_eq_ok step
  obtain ⟨found, _, fetch, -⟩ := Action.step_bind_eq_ok step
  have planned := (Action.step_ofExcept_eq_ok planned).1
  obtain ⟨e, hops, e', furthest, declared, walk⟩ := plan_walks sound planned
  have find := Action.step_adapt_eq_ok fetch
  rw [furthest] at find
  obtain ⟨e₀, _, entity, find⟩ := Action.step_bind_eq_ok find
  have entity := (Action.step_ofExcept_eq_ok entity).1
  rw [Schema.entity_text declared] at entity
  cases entity
  obtain ⟨rows, _, select, find⟩ := Action.step_bind_eq_ok find
  obtain ⟨attached, _, attach, -⟩ := Action.step_bind_eq_ok find
  obtain ⟨_, _, -, selected⟩ := Action.step_bind_eq_ok select
  have selected := (Action.step_ofValues_eq_ok selected).1
  rw [Plan.include_, IncludeTree.ofValue_includeScope] at attach
  have kinds := kinds_of_attach walk declared attach
  have apartBack : ∀ hop ∈ hops, .text hop.relation.name ∉ schema.keyNames := fun hop mem => by
    obtain ⟨owner, from'⟩ := walk.hops_found declared hop mem
    exact apart _ (Schema.find?_eq_some owner).1 _ from'.mem
  exact ⟨p, e, planned, ⟨furthest, declared, IncludeTree.chain_joinable walk kinds apartBack⟩, fun row mem =>
    decides_of_fetched (Where.decides_of_select selected row mem)⟩

/-- The furthest rows that a condition holds of, joined along the way back. -/
def Plan.reached (p : Plan) (schema : Schema) (tables : Tables) (e : Entity) (condition : Value) : List Value :=
  ((tables.rows e.name).filter (Where.accepts condition)).map
    (joined Value.assigned schema tables e (IncludeTree.chain p.back))

/-- A reversal whose plan can be attached comes to what is collected from the rows reached. -/
theorem run_ends_of_opens (sound : schema.Sound) (plain : schema.PlainKeys) (fit : tables.Fit schema) {root : String}
    {path : List Value} {condition : Value} {p : Plan} (planned : plan schema options.maxDepth root path condition = .ok p)
    {e : Entity} (opens : p.Opens schema e) (decides : ∀ row ∈ tables.rows e.name, Where.Decides condition row) :
    (run (tables.access schema) schema options root path condition).Ends
      (p.condition options (.list (p.reached schema tables e condition))) := by
  have joinable := opens.joinable
  rw [← IncludeTree.ofValue_includeScope] at joinable
  have found := find_ends_of_fit sound plain fit opens.declared
    (fun row mem => (holds_fetched (decides row mem)).1) joinable
  have selected : (tables.rows e.name).filter (Where.accepts (fetched condition)) =
      (tables.rows e.name).filter (Where.accepts condition) :=
    List.filter_congr fun row mem => (holds_fetched (decides row mem)).2
  rw [selected, IncludeTree.ofValue_includeScope] at found
  have fetch : (p.fetch (tables.access schema) condition).Ends (.ok (.list (p.reached schema tables e condition))) := by
    rw [Plan.fetch, opens.furthest]
    exact found.adapt _
  exact .bind (Action.ends_ofExcept planned) (.bind fetch (Action.ends_ofExcept rfl))

/-- The ids that one row gives, none if collecting them is a failure. -/
def Plan.given (p : Plan) (missing : MissingPolicy) (row : Value) : List Value :=
  match Path.leaves missing (p.back.map .text) p.idField row with
  | .ok ids => ids
  | .error _ => []

/-- Collecting the ids of a row is no failure. -/
def Plan.Gives (p : Plan) (missing : MissingPolicy) (row : Value) : Prop :=
  Path.leaves missing (p.back.map .text) p.idField row = .ok (p.given missing row)

/-- The ids of rows are those of each of them, one after the other. -/
theorem ids_of_gives {p : Plan} {missing : MissingPolicy} {rows : List Value}
    (gives : ∀ row ∈ rows, p.Gives missing row) : p.ids missing (.list rows) = .ok (rows.flatMap (p.given missing)) := by
  have each : rows.mapM (Path.leaves missing (p.back.map .text) p.idField) = .ok (rows.map (p.given missing)) :=
    mapM_ok gives
  rw [Plan.ids]
  show ((_ : Except Failure (List (List Value))) >>= fun found => pure found.flatten) = _
  rw [each]
  rfl

theorem gives_of_ids {p : Plan} {missing : MissingPolicy} {rows ids : List Value}
    (h : p.ids missing (.list rows) = .ok ids) : ∀ row ∈ rows, p.Gives missing row := by
  obtain ⟨_, eq, h⟩ := bind_eq_ok.1 h
  cases eq
  obtain ⟨found, each, -⟩ := bind_eq_ok.1 h
  intro row mem
  obtain ⟨l, eq⟩ := mapM_each each row mem
  rw [Plan.Gives, Plan.given, eq]

omit [Attributes] in
/-- Dropping repeated ids drops no id. -/
theorem Options.listed_keep {ids kept : List Value} (h : options.keep ids = .ok kept) (x : Value) :
    Listed kept x ↔ Listed ids x := by
  unfold keep at h
  split at h
  · obtain ⟨keys, rfl⟩ := exists_keys (keyed_of_distinctIds h)
    rw [distinctIds_eq] at h
    cases h
    constructor
    · rintro ⟨m, mem, same⟩
      obtain ⟨k, held, rfl⟩ := List.mem_map.1 mem
      exact ⟨_, List.mem_map.2 ⟨k, Scalar.distinctFrom_subset held, rfl⟩, same⟩
    · rintro ⟨m, mem, same⟩
      obtain ⟨k, held, rfl⟩ := List.mem_map.1 mem
      obtain ⟨first, kept, equal⟩ := Scalar.mem_distinct held
      refine ⟨_, List.mem_map.2 ⟨first, kept, rfl⟩, .inr ?_⟩
      rcases same with rfl | same
      · rw [Value.same_scalar, equal]
      · cases x with
        | scalar j =>
          rw [Value.same_scalar] at same ⊢
          exact Scalar.same_trans equal same
        | _ => simp [Value.same] at same
  · cases h
    exact Iff.rfl

/-- The ids of a row are collected, and can be kept, without failure. -/
structure Plan.Keeps (p : Plan) (options : Options) (row : Value) : Prop where
  gives : p.Gives options.missing row
  scalars : options.deduplicate = true → ∀ x ∈ p.given options.missing row, ∃ k, x = .scalar k

/-- A condition lists the ids of every row, if those of no row are a failure. -/
theorem condition_of_keeps {p : Plan} {f : Scalar} (key : p.key = .ok f) {rows : List Value}
    (keeps : ∀ row ∈ rows, p.Keeps options row) :
    ∃ kept, p.condition options (.list rows) = .ok (membership f kept) ∧
      ∀ x, Listed kept x ↔ ∃ row ∈ rows, Listed (p.given options.missing row) x := by
  have collected := ids_of_gives fun row mem => (keeps row mem).gives
  have scalars : options.deduplicate = true → ∀ x ∈ rows.flatMap (p.given options.missing), ∃ k, x = .scalar k := by
    intro distinct x mem
    obtain ⟨row, held, mem⟩ := List.mem_flatMap.1 mem
    exact (keeps row held).scalars distinct x mem
  obtain ⟨kept, keep⟩ := Options.keep_iff.2 scalars
  refine ⟨kept, condition_eq_ok.2 ⟨_, kept, f, collected, keep, key, rfl⟩, fun x => ?_⟩
  rw [Options.listed_keep keep, listed_flatMap]

theorem keeps_of_condition {p : Plan} {rows : List Value} {r : Value}
    (h : p.condition options (.list rows) = .ok r) :
    (∃ f, p.key = .ok f) ∧ ∀ row ∈ rows, p.Keeps options row := by
  obtain ⟨ids, kept, f, collected, keep, key, -⟩ := condition_eq_ok.1 h
  have gives := gives_of_ids collected
  rw [ids_of_gives gives] at collected
  cases collected
  refine ⟨⟨f, key⟩, fun row mem => ⟨gives row mem, fun distinct x given => ?_⟩⟩
  exact Options.keep_iff.1 ⟨kept, keep⟩ distinct x (List.mem_flatMap.2 ⟨row, mem, given⟩)

section Reached

variable {p : Plan} {e : Entity} {c₁ c₂ : Value}

/-- Alternatives reach what either of them reaches. -/
theorem mem_reached_either (decides₁ : ∀ row ∈ tables.rows e.name, Where.Decides c₁ row)
    (decides₂ : ∀ row ∈ tables.rows e.name, Where.Decides c₂ row) {v : Value} :
    v ∈ p.reached schema tables e (.ofFields [("or", .list [c₁, c₂])]) ↔
      v ∈ p.reached schema tables e c₁ ∨ v ∈ p.reached schema tables e c₂ := by
  have accepts : ∀ row ∈ tables.rows e.name, Where.accepts (.ofFields [("or", .list [c₁, c₂])]) row =
      (Where.accepts c₁ row || Where.accepts c₂ row) := fun row mem =>
    Where.accepts_of_holds (Where.holds_either (decides₁ row mem).holds_eq (decides₂ row mem).holds_eq)
  unfold Plan.reached
  rw [List.filter_congr accepts, List.mem_map, List.mem_map, List.mem_map, ← exists_or]
  refine exists_congr fun row => ?_
  rw [List.mem_filter, List.mem_filter, List.mem_filter, Bool.or_eq_true, ← or_and_right, ← and_or_left]

/-- Two conditions together reach what the first reaches, and less. -/
theorem reached_both_subset (decides₁ : ∀ row ∈ tables.rows e.name, Where.Decides c₁ row)
    (decides₂ : ∀ row ∈ tables.rows e.name, Where.Decides c₂ row) :
    p.reached schema tables e (.ofFields [("and", .list [c₁, c₂])]) ⊆ p.reached schema tables e c₁ := by
  intro v mem
  obtain ⟨row, held, rfl⟩ := List.mem_map.1 mem
  obtain ⟨stored, accepted⟩ := List.mem_filter.1 held
  rw [Where.accepts_of_holds (Where.holds_both (decides₁ row stored).holds_eq (decides₂ row stored).holds_eq),
    Bool.and_eq_true] at accepted
  exact List.mem_map.2 ⟨row, List.mem_filter.2 ⟨stored, accepted.1⟩, rfl⟩

end Reached

/-- **Reversing is done row by row.** Where a condition can be reversed, so can it together with any other
that has a text and is no fault, and no id is listed that was not before; where both can, so can their alternative, which
lists the ids that either of them lists, under the same key of the root. -/
theorem run_unites {graph : Value} {schema : Schema} {tables : Tables} (document : graph.isDocument = true)
    (accepted : Schema.ofValue graph = .ok schema) (plain : schema.PlainKeys)
    (apart : ∀ e ∈ schema.entities, ∀ r ∈ e.relations, .text r.name ∉ schema.keyNames) (fit : tables.Fit schema)
    {options : Options} {root : String} {path : List Value} {c₁ c₂ r₁ : Value}
    (decides : ∀ p, plan schema options.maxDepth root path c₁ = .ok p →
      ∀ row ∈ tables.rows p.furthest, Where.Decides c₂ row)
    (ended₁ : (run (tables.access schema) schema options root path c₁).Ends (.ok r₁)) :
    ∃ f ids₁, r₁ = membership f ids₁ ∧
      (c₂.isWritable = true →
        ∃ both, (run (tables.access schema) schema options root path (.ofFields [("and", .list [c₁, c₂])])).Ends
          (.ok (membership f both)) ∧ ∀ x, Listed both x → Listed ids₁ x) ∧
      ∀ r₂, (run (tables.access schema) schema options root path c₂).Ends (.ok r₂) →
        ∃ ids₂ either, r₂ = membership f ids₂ ∧
          (run (tables.access schema) schema options root path (.ofFields [("or", .list [c₁, c₂])])).Ends
            (.ok (membership f either)) ∧ ∀ x, Listed either x ↔ Listed ids₁ x ∨ Listed ids₂ x := by
  have sound := Schema.sound_of_ofValue document accepted
  obtain ⟨p, e, planned, opens, decides₁⟩ := opens_of_run sound apart ended₁
  have decides₂ : ∀ row ∈ tables.rows e.name, Where.Decides c₂ row := opens.furthest ▸ decides p planned
  have ends {c : Value} (writable : c.isWritable = true) (d : ∀ row ∈ tables.rows e.name, Where.Decides c row) :
      (run (tables.access schema) schema options root path c).Ends
        (p.condition options (.list (p.reached schema tables e c))) :=
    run_ends_of_opens sound plain fit (plan_of_plan planned writable) opens d
  have writable₁ := (plan_iff.1 planned).2.1
  have writable (name : String) (writable₂ : c₂.isWritable = true) :
      (Value.ofFields [(name, .list [c₁, c₂])]).isWritable = true := by
    simp [Value.ofFields, Value.isWritable, Value.entriesAreWritable, Value.itemsAreWritable, Scalar.isWritable, writable₁,
      writable₂]
  have reached₁ := (ends writable₁ decides₁).unique ended₁
  obtain ⟨⟨f, key⟩, keeps₁⟩ := keeps_of_condition reached₁
  obtain ⟨ids₁, condition₁, listed₁⟩ := condition_of_keeps key keeps₁
  rw [reached₁] at condition₁
  cases condition₁
  refine ⟨f, ids₁, rfl, fun writable₂ => ?_, fun r₂ ended₂ => ?_⟩
  · have less : p.reached schema tables e (.ofFields [("and", .list [c₁, c₂])]) ⊆ p.reached schema tables e c₁ :=
      reached_both_subset decides₁ decides₂
    obtain ⟨both, condition, listed⟩ := condition_of_keeps key fun row mem => keeps₁ row (less mem)
    have decidesBoth : ∀ row ∈ tables.rows e.name, Where.Decides (.ofFields [("and", .list [c₁, c₂])]) row :=
      fun row mem => ⟨_, Where.holds_both (decides₁ row mem).holds_eq (decides₂ row mem).holds_eq⟩
    refine ⟨both, condition ▸ ends (writable "and" writable₂) decidesBoth, fun x h => ?_⟩
    obtain ⟨row, mem, given⟩ := (listed x).1 h
    exact (listed₁ x).2 ⟨row, less mem, given⟩
  · obtain ⟨p₂, _, planned₂, -⟩ := opens_of_run sound apart ended₂
    have writable₂ := (plan_iff.1 planned₂).2.1
    have reached₂ := (ends writable₂ decides₂).unique ended₂
    have keeps₂ := (keeps_of_condition reached₂).2
    obtain ⟨ids₂, condition₂, listed₂⟩ := condition_of_keeps key keeps₂
    rw [reached₂] at condition₂
    cases condition₂
    have all {v : Value} : v ∈ p.reached schema tables e (.ofFields [("or", .list [c₁, c₂])]) ↔
        v ∈ p.reached schema tables e c₁ ∨ v ∈ p.reached schema tables e c₂ := mem_reached_either decides₁ decides₂
    obtain ⟨either, condition, listed⟩ := condition_of_keeps key fun row mem =>
      (all.1 mem).elim (keeps₁ row) (keeps₂ row)
    have decidesEither : ∀ row ∈ tables.rows e.name, Where.Decides (.ofFields [("or", .list [c₁, c₂])]) row :=
      fun row mem => ⟨_, Where.holds_either (decides₁ row mem).holds_eq (decides₂ row mem).holds_eq⟩
    refine ⟨ids₂, either, rfl, condition ▸ ends (writable "or" writable₂) decidesEither, fun x => ?_⟩
    rw [listed x, listed₁ x, listed₂ x, ← exists_or]
    refine exists_congr fun row => ?_
    rw [all, or_and_right]

end Reversal

end Rows

namespace Orders

/-- Two people share a key, and the key of a third is NaN, which is found although it equals nothing. -/
def crowd : Tables := [
  ("Person", [.ofFields [("id", .text "ann")], .ofFields [("id", .text "ann")], .ofFields [("id", .float .nan)]]),
  ("Order", [.ofFields [("id", .int 7), ("buyer_id", .text "ann"), ("seller_id", .text "bob")],
    .ofFields [("id", .int 8), ("buyer_id", .float .nan), ("seller_id", .text "ann")],
    .ofFields [("id", .int 9), ("buyer_id", .text "ann"), ("seller_id", .null)]])]

theorem plain : schema.PlainKeys := by
  unfold Schema.PlainKeys
  decide

theorem fit : crowd.Fit schema := by
  unfold Tables.Fit
  decide +kernel

end Orders

/-- The people who sold what somebody sold, or what Ann sold: the way back is over the orders that were bought,
and people share a key. -/
theorem Reversal.run_unites_sold :
    ∃ f ids₁, membership (.text "id") [.text "ann", .float .nan] = membership f ids₁ ∧
      (∃ both, (run (Orders.crowd.access Orders.schema) Orders.schema {} "Person" [.text "sold", .text "seller"]
          (.ofFields [("and", .list [.map [], .ofFields [("id", .text "ann")]])])).Ends
            (.ok (membership f both)) ∧ ∀ x, Listed both x → Listed ids₁ x) ∧
      ∀ r₂, (run (Orders.crowd.access Orders.schema) Orders.schema {} "Person" [.text "sold", .text "seller"]
          (.ofFields [("id", .text "ann")])).Ends (.ok r₂) →
        ∃ ids₂ either, r₂ = membership f ids₂ ∧
          (run (Orders.crowd.access Orders.schema) Orders.schema {} "Person" [.text "sold", .text "seller"]
            (.ofFields [("or", .list [.map [], .ofFields [("id", .text "ann")]])])).Ends (.ok (membership f either)) ∧
              ∀ x, Listed either x ↔ Listed ids₁ x ∨ Listed ids₂ x := by
  have decides (p : Plan) (planned : plan Orders.schema 16 "Person" [.text "sold", .text "seller"] (.map []) = .ok p) :
      ∀ row ∈ Orders.crowd.rows p.furthest, Where.Decides (.ofFields [("id", .text "ann")]) row := by
    cases planned
    exact fun row mem =>
      Where.decides_scalar (Orders.fit Orders.person (by simp [Orders.schema]) row mem).mapping (by decide) _
  have ended : (run (Orders.crowd.access Orders.schema) Orders.schema {} "Person" [.text "sold", .text "seller"]
      (.map [])).Ends (.ok (membership (.text "id") [.text "ann", .float .nan])) := fun _ => rfl
  obtain ⟨f, ids₁, ids, both, either⟩ := run_unites Orders.document Orders.accepted Orders.plain
    (by simp [Schema.keyNames, Orders.schema, Orders.person, Orders.order]) Orders.fit decides ended
  exact ⟨f, ids₁, ids, both rfl, either⟩

end Semijoin
