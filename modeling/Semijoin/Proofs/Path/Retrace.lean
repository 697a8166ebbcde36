import Semijoin.Path.Walk
import Semijoin.Proofs.Schema.Accepted
import Semijoin.Proofs.Schema.Hop

/-!
# Walking there and back

A path that names relations visits the targets of its hops. The way back is found from the entities alone:
against each hop goes the first relation that its target declares to its owner. `retrace_walks` says that the
hops against a walk are themselves a walk, from its end to its start.
-/

namespace Semijoin
set_option autoImplicit false

namespace Hop

/-- The first relation from the target of a hop to its owner. -/
def back? (hop : Hop) : Option Relation := hop.target.relations.find? (·.target == hop.owner.name)

/-- The relation that is taken against a hop. -/
def back (hop : Hop) : Relation := hop.back?.getD hop.relation

/-- The hop against a hop. -/
def reversed (hop : Hop) : Hop := ⟨hop.target, hop.back, hop.owner⟩

/-- A relation is the converse of a hop: it leads back, the other way round, over the same foreign key. -/
structure IsConverse (hop : Hop) (r : Relation) : Prop where
  target : r.target = hop.owner.name
  kinds : (hop.relation.kind = .hasMany ∧ r.kind = .belongsTo) ∨ (hop.relation.kind = .belongsTo ∧ r.kind = .hasMany)
  foreignKey : r.foreignKey = hop.relation.foreignKey

theorem back_eq {hop : Hop} {r : Relation} (h : hop.back? = some r) : hop.back = r := by rw [back, h]; rfl

/-- If anything leads back then something is taken back. -/
theorem back?_eq_some {hop : Hop} {r : Relation} (mem : r ∈ hop.target.relations) (target : r.target = hop.owner.name) :
    hop.back? = some hop.back := by
  have found : hop.back?.isSome = true := List.find?_isSome.2 ⟨r, mem, by simp [target]⟩
  obtain ⟨b, h⟩ := Option.isSome_iff_exists.1 found
  rw [back_eq h, h]

theorem back_spec {hop : Hop} {r : Relation} (h : hop.back? = some r) :
    r ∈ hop.target.relations ∧ r.target = hop.owner.name :=
  ⟨List.mem_of_find?_eq_some h, by simpa using List.find?_some h⟩

end Hop

/-- The hops against hops, last first. -/
def retrace (hops : List Hop) : List Hop := hops.reverse.map Hop.reversed

/-- The names of the relations that are taken back. -/
def backNames (hops : List Hop) : List String := hops.reverse.map fun hop => hop.back.name

namespace Schema

variable {schema : Schema}

theorem firstTo?_eq {e : Entity} (declared : schema.find? e.name = some e) (target : String) :
    schema.firstTo? (.text e.name) (.text target) = .ok (e.relations.find? (·.target == target)) := by
  rw [firstTo?, relationsTo, entity_text declared]
  show Except.ok (e.relationsTo target).head? = _
  rw [Entity.relationsTo, List.head?_filter]

namespace Walks

variable {e e' : Entity} {path : List String} {hops : List Hop}

theorem append {m : Entity} {path' : List String} {hops' : List Hop} (h : schema.Walks e path hops m)
    (h' : schema.Walks m path' hops' e') : schema.Walks e (path ++ path') (hops ++ hops') e' := by
  induction h with
  | done e => exact h'
  | step here _ ih => exact .step here (ih h')

/-- A walk over hops in two parts is two walks. -/
theorem split {before after : List Hop} (h : schema.Walks e path (before ++ after) e') :
    ∃ front rest m, path = front ++ rest ∧ schema.Walks e front before m ∧ schema.Walks m rest after e' := by
  induction before generalizing e path with
  | nil => exact ⟨[], path, e, rfl, .done e, h⟩
  | cons hop more ih =>
    cases h with
    | @step _ _ name _ _ _ here later =>
      obtain ⟨front, rest, m, rfl, first, second⟩ := ih later
      exact ⟨name :: front, rest, m, rfl, .step here first, second⟩

/-- A walk has one hop a name. -/
theorem length_eq (h : schema.Walks e path hops e') : path.length = hops.length := by
  induction h with
  | done e => rfl
  | step _ _ ih => rw [List.length_cons, List.length_cons, ih]

/-- The entities of a walk are its owners and its end, or its start and its targets. -/
theorem owners_targets (h : schema.Walks e path hops e') :
    hops.map (·.owner) ++ [e'] = e :: hops.map (·.target) := by
  induction h with
  | done e => rfl
  | step here more ih =>
    have := (hop?_eq_some here).owner_eq
    rw [List.map_cons, List.cons_append, ih, this, List.map_cons]

theorem found (h : schema.Walks e path hops e') (declared : schema.find? e.name = some e) :
    schema.find? e'.name = some e' := by
  induction h with
  | done e => exact declared
  | step here _ ih => exact ih (hop?_eq_some here).target_found

/-- Every hop of a walk goes from a declared entity. -/
theorem hops_found (h : schema.Walks e path hops e') (declared : schema.find? e.name = some e) :
    ∀ hop ∈ hops, schema.find? hop.owner.name = some hop.owner ∧
      schema.HopFrom hop.owner (.text hop.relation.name) hop := by
  induction h with
  | done e => simp
  | step here _ ih =>
    have from' := hop?_eq_some here
    refine List.forall_mem_cons.2 ⟨?_, ih from'.target_found⟩
    rw [from'.owner_eq]
    exact ⟨declared, from'.name_eq ▸ from'⟩

end Walks

end Schema

namespace Path

variable {schema : Schema} {e e' : Entity} {path : List String} {hops : List Hop}

/-- A path visits the targets of its hops. -/
theorem walk_eq (h : schema.Walks e path hops e') (declared : schema.find? e.name = some e) :
    walk schema e.name (path.map .text) = .ok (hops.map (·.target)) := by
  induction h with
  | done e => rfl
  | step here more ih =>
    have from' := Schema.hop?_eq_some here
    rw [List.map_cons, walk, from'.relation_eq declared]
    show (do let entity ← schema.entity _; return entity :: (← walk schema _ _)) = _
    rw [from'.entity_eq, ← from'.target_name, ih from'.target_found]
    rfl

/-- Over first relations, the names found between the entities of a walk are its path. -/
theorem relationNames_eq (h : schema.Walks e path hops e') (declared : schema.find? e.name = some e)
    (first : ∀ hop ∈ hops, hop.owner.relations.find? (·.target == hop.target.name) = some hop.relation) :
    relationNames schema e.name (hops.map (·.target)) = .ok path := by
  induction h with
  | done e => rfl
  | step here more ih =>
    have from' := Schema.hop?_eq_some here
    obtain ⟨firstHere, firstLater⟩ := List.forall_mem_cons.1 first
    obtain ⟨rfl, name, -⟩ := from'
    rw [List.map_cons, relationNames, Schema.firstTo?_eq declared, firstHere]
    show (do return _ :: (← relationNames schema _ _)) = _
    rw [ih (Schema.hop?_eq_some here).target_found firstLater]
    cases name
    rfl

/-- The relations found between entities are those of a walk. -/
theorem walks_of_relationNames (sound : schema.Sound) {e : Entity} (declared : schema.find? e.name = some e)
    {visited : List Entity} (found : ∀ v ∈ visited, schema.find? v.name = some v) {names : List String}
    (h : relationNames schema e.name visited = .ok names) : ∃ hops e', schema.Walks e names hops e' := by
  induction visited generalizing e names with
  | nil =>
    cases h
    exact ⟨[], e, .done e⟩
  | cons v rest ih =>
    obtain ⟨here, later⟩ := List.forall_mem_cons.1 found
    rw [relationNames, Schema.firstTo?_eq declared] at h
    obtain ⟨first, eq, h⟩ := bind_eq_ok.1 h
    cases eq
    cases back : e.relations.find? (·.target == v.name) with
    | none =>
      rw [back] at h
      cases h
    | some r =>
      rw [back] at h
      obtain ⟨names', more, h⟩ := bind_eq_ok.1 h
      cases h
      have target : r.target = v.name := by simpa using List.find?_some back
      have named := sound.find?_relation (Schema.find?_eq_some declared).1 (List.mem_of_find?_eq_some back)
      obtain ⟨hop, hop_eq, -, rfl⟩ := Schema.exists_hop named (target ▸ here)
      obtain ⟨hops, e', walk⟩ := ih here later more
      exact ⟨hop :: hops, e', .step hop_eq walk⟩

/-- A path visits declared entities. -/
theorem found_of_walk {start : String} {path : List Value} {visited : List Entity}
    (h : walk schema start path = .ok visited) : ∀ v ∈ visited, schema.find? v.name = some v := by
  induction path generalizing start visited with
  | nil =>
    cases h
    simp
  | cons step rest ih =>
    rw [walk] at h
    obtain ⟨relation, -, h⟩ := bind_eq_ok.1 h
    obtain ⟨v, entity, h⟩ := bind_eq_ok.1 h
    obtain ⟨later, more, h⟩ := bind_eq_ok.1 h
    cases h
    exact List.forall_mem_cons.2 ⟨Schema.find?_of_entity entity, ih more⟩

/-- A path that is resolved has a step but not too many, and is walked. -/
theorem walk_of_resolve {root : String} {path : List Value} {maxDepth : Int} {visited : List Entity}
    (h : resolve schema root path maxDepth = .ok visited) :
    path ≠ [] ∧ path.length ≤ maxDepth ∧ walk schema root path = .ok visited := by
  unfold resolve at h
  by_cases empty : path.isEmpty = true
  · rw [if_pos empty] at h
    cases h
  · rw [if_neg empty] at h
    by_cases deep : maxDepth < path.length
    · rw [if_pos deep] at h
      cases joined : Value.joinPoints path <;> rw [joined] at h <;> cases h
    · rw [if_neg deep] at h
      exact ⟨by simpa using empty, by omega, h⟩

theorem found_of_resolve {root : String} {path : List Value} {maxDepth : Int} {visited : List Entity}
    (h : resolve schema root path maxDepth = .ok visited) : ∀ v ∈ visited, schema.find? v.name = some v :=
  found_of_walk (walk_of_resolve h).2.2

/-- A path visits one entity a step. -/
theorem length_of_walk {start : String} {path : List Value} {visited : List Entity}
    (h : walk schema start path = .ok visited) : visited.length = path.length := by
  induction path generalizing start visited with
  | nil =>
    cases h
    rfl
  | cons step rest ih =>
    rw [walk] at h
    obtain ⟨relation, -, h⟩ := bind_eq_ok.1 h
    obtain ⟨v, -, h⟩ := bind_eq_ok.1 h
    obtain ⟨later, more, h⟩ := bind_eq_ok.1 h
    cases h
    rw [List.length_cons, List.length_cons, ih more]

/-- There is one name for every entity that names are found to. -/
theorem length_of_relationNames {start : String} {visited : List Entity} {names : List String}
    (h : relationNames schema start visited = .ok names) : names.length = visited.length := by
  induction visited generalizing start names with
  | nil =>
    cases h
    rfl
  | cons v rest ih =>
    rw [relationNames] at h
    obtain ⟨first, -, h⟩ := bind_eq_ok.1 h
    split at h
    · obtain ⟨later, more, h⟩ := bind_eq_ok.1 h
      cases h
      rw [List.length_cons, List.length_cons, ih more]
    · cases h

end Path

/-- **The way back is a walk** from the end of a walk to its start, over the first relations back. -/
theorem retrace_walks {schema : Schema} (sound : schema.Sound) {e e' : Entity} {path : List String} {hops : List Hop}
    (h : schema.Walks e path hops e') (declared : schema.find? e.name = some e)
    (returns : ∀ hop ∈ hops, hop.back? = some hop.back) :
    schema.Walks e' (backNames hops) (retrace hops) e := by
  induction h with
  | done e => exact .done e
  | @step e e' name path hop hops here more ih =>
    have from' := Schema.hop?_eq_some here
    obtain ⟨returnsHere, returnsLater⟩ := List.forall_mem_cons.1 returns
    obtain ⟨mem, target⟩ := Hop.back_spec returnsHere
    have named := sound.find?_relation (Schema.find?_eq_some from'.target).1 mem
    have owner : schema.find? hop.back.target = some e := by rw [target, from'.owner_eq, declared]
    have last : schema.Walks hop.target [hop.back.name] [hop.reversed] e := by
      refine .step ?_ (from'.owner_eq ▸ .done hop.owner)
      simp [Schema.hop?, named, owner, Hop.reversed, from'.owner_eq]
    have := (ih from'.target_found returnsLater).append last
    simpa [backNames, retrace] using this

end Semijoin
