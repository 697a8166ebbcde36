import Mathlib.Data.List.Chain
import Semijoin.Proofs.Path.Resolution

/-!
# Naming the way between entities

The names found between given entities are a path again: over the first relation that leads from each entity to the
next. `relationNames_cases` says when there is one, and that otherwise the first pair without a relation is reported.
So the path that is found visits the entities given, and finding names again for what it visits changes nothing.
-/

namespace Semijoin
set_option autoImplicit false

/-- Some relation of an entity leads to another. -/
def Entity.LeadsTo (a b : Entity) : Prop := ∃ r ∈ a.relations, r.target = b.name

/-- Of the relations that lead from the owner of a hop to its target, the hop takes the one declared first. -/
def Hop.Foremost (hop : Hop) : Prop :=
  ∃ before after, hop.owner.relations = before ++ hop.relation :: after ∧ hop.relation.target = hop.target.name ∧
    ∀ r ∈ before, r.target ≠ hop.target.name

theorem Hop.foremost_iff {hop : Hop} :
    hop.Foremost ↔ hop.owner.relations.find? (·.target == hop.target.name) = some hop.relation := by
  rw [List.find?_eq_some_iff_append]
  constructor
  · rintro ⟨before, after, eq, target, none⟩
    exact ⟨by simp [target], before, after, eq, fun r mem => by simpa using none r mem⟩
  · rintro ⟨target, before, after, eq, none⟩
    exact ⟨before, after, eq, by simpa using target, fun r mem => by simpa using none r mem⟩

namespace Path

variable {schema : Schema}

/-! ## Names between entities -/

theorem relationNames_stops {start v : Entity} (declared : schema.find? start.name = some start)
    (apart : ¬ start.LeadsTo v) (rest : List Entity) :
    relationNames schema start.name (v :: rest) = .error (.missingRelation start.name v.name) := by
  have none : start.relations.find? (·.target == v.name) = none :=
    List.find?_eq_none.2 fun r mem target => apart ⟨r, mem, by simpa using target⟩
  rw [relationNames, Schema.firstTo?_eq declared, none]
  rfl

/-- An entity that leads to another does so along a hop over its first relation there. -/
theorem exists_foremost (sound : schema.Sound) {start v : Entity} (declared : schema.find? start.name = some start)
    (found : schema.find? v.name = some v) (leads : start.LeadsTo v) :
    ∃ hop, schema.hop? start (.text hop.relation.name) = some hop ∧ hop.owner = start ∧ hop.target = v ∧
      hop.Foremost := by
  obtain ⟨r, mem, target⟩ := leads
  have some_ : (start.relations.find? (·.target == v.name)).isSome = true :=
    List.find?_isSome.2 ⟨r, mem, by simp [target]⟩
  obtain ⟨first, eq⟩ := Option.isSome_iff_exists.1 some_
  have named := sound.find?_relation (Schema.find?_eq_some declared).1 (List.mem_of_find?_eq_some eq)
  have leadsTo : first.target = v.name := by simpa using List.find?_some eq
  obtain ⟨hop, here, rfl, rfl⟩ := Schema.exists_hop named (leadsTo ▸ found)
  have owner := (Schema.hop?_eq_some here).owner_eq
  exact ⟨hop, here, owner, rfl, Hop.foremost_iff.2 (owner ▸ eq)⟩

/-- Between entities either each leads to the next, and the names found are those of a walk over first relations, or the
first pair that is not connected is reported. -/
theorem relationNames_cases (sound : schema.Sound) {start : Entity} (declared : schema.find? start.name = some start)
    {visited : List Entity} (found : ∀ v ∈ visited, schema.find? v.name = some v) :
    ((start :: visited).IsChain Entity.LeadsTo ∧ ∃ path hops last, relationNames schema start.name visited = .ok path ∧
      schema.Walks start path hops last ∧ hops.map (·.target) = visited ∧ ∀ hop ∈ hops, hop.Foremost) ∨
    ∃ before a b after, start :: visited = before ++ a :: b :: after ∧ (before ++ [a]).IsChain Entity.LeadsTo ∧
      ¬ a.LeadsTo b ∧ relationNames schema start.name visited = .error (.missingRelation a.name b.name) := by
  induction visited generalizing start with
  | nil => exact .inl ⟨.singleton _, [], [], start, rfl, .done start, rfl, by simp⟩
  | cons v rest ih =>
    obtain ⟨here, later⟩ := List.forall_mem_cons.1 found
    by_cases leads : start.LeadsTo v
    · obtain ⟨hop, named, rfl, rfl, foremost⟩ := exists_foremost sound declared here leads
      have step : relationNames schema hop.owner.name (hop.target :: rest) = do
          return hop.relation.name :: (← relationNames schema hop.target.name rest) := by
        rw [relationNames, Schema.firstTo?_eq declared, Hop.foremost_iff.1 foremost]
        rfl
      rcases ih here later with ⟨chain, path, hops, last, eq, walk, rfl, all⟩ | ⟨before, a, b, after, eq, chain, apart, stops⟩
      · refine .inl ⟨.cons_cons leads chain, _, hop :: hops, last, ?_, .step named walk, rfl,
          List.forall_mem_cons.2 ⟨foremost, all⟩⟩
        rw [step, eq]
        rfl
      · refine .inr ⟨hop.owner :: before, a, b, after, by rw [eq, List.cons_append], ?_, apart, ?_⟩
        · cases before with
          | nil =>
            cases eq
            exact .cons_cons leads chain
          | cons w before =>
            cases eq
            exact .cons_cons leads chain
        · rw [step, stops]
          rfl
    · exact .inr ⟨[], start, v, rest, rfl, .singleton _, leads, relationNames_stops declared leads rest⟩

/-- Names are found exactly between entities of which each leads to the next. -/
theorem relationNames_iff (sound : schema.Sound) {start : Entity} (declared : schema.find? start.name = some start)
    {visited : List Entity} (found : ∀ v ∈ visited, schema.find? v.name = some v) :
    (∃ path, relationNames schema start.name visited = .ok path) ↔ (start :: visited).IsChain Entity.LeadsTo := by
  rcases relationNames_cases sound declared found with
    ⟨chain, path, _, _, named, -⟩ | ⟨before, a, b, after, eq, -, apart, stops⟩
  · exact ⟨fun _ => chain, fun _ => ⟨path, named⟩⟩
  · refine ⟨?_, fun chain => ?_⟩
    · rintro ⟨path, named⟩
      cases stops.symm.trans named
    · rw [eq, List.isChain_append_cons_cons] at chain
      exact absurd chain.2.1 apart

/-- The names found are those of a walk to the entities given, over the first relations. -/
theorem walk_of_relationNames (sound : schema.Sound) {start : Entity} (declared : schema.find? start.name = some start)
    {visited : List Entity} (found : ∀ v ∈ visited, schema.find? v.name = some v) {path : List String}
    (named : relationNames schema start.name visited = .ok path) : path.length = visited.length ∧
      ∃ hops last, schema.Walks start path hops last ∧ hops.map (·.target) = visited ∧ ∀ hop ∈ hops, hop.Foremost := by
  rcases relationNames_cases sound declared found with
    ⟨-, _, hops, last, named', walk, targets, foremost⟩ | ⟨_, _, _, _, -, -, -, stops⟩
  · cases named.symm.trans named'
    refine ⟨?_, hops, last, walk, targets, foremost⟩
    rw [← targets, List.length_map, walk.length_eq]
  · cases named.symm.trans stops

/-- The names found are resolved to the entities that they were found between. -/
theorem resolveGiven_of_relationNames (sound : schema.Sound) {start : Entity}
    (declared : schema.find? start.name = some start) {visited : List Entity} (some_ : visited ≠ [])
    (found : ∀ v ∈ visited, schema.find? v.name = some v) {path : List String}
    (named : relationNames schema start.name visited = .ok path) {maxDepth : Int} (depth : visited.length ≤ maxDepth) :
    resolveGiven schema start.name (.list (path.map .text)) maxDepth = .ok visited := by
  obtain ⟨length, hops, last, walk, rfl, -⟩ := walk_of_relationNames sound declared found named
  have steps : path ≠ [] := fun none => some_ (List.length_eq_zero_iff.1 (by rw [← length, none]; rfl))
  rw [resolveGiven_eq (.list path), resolve_shallow _ steps (by omega), walk_eq walk declared]

/-! ## Names of what a path visits -/

/-- Every entity that a path visits is led to by the one before it. -/
theorem leads_of_walk {start : Entity} (declared : schema.find? start.name = some start) {path : List Value}
    {visited : List Entity} (h : walk schema start.name path = .ok visited) :
    (start :: visited).IsChain Entity.LeadsTo := by
  induction path generalizing start visited with
  | nil =>
    cases h
    exact .singleton _
  | cons step rest ih =>
    rw [walk] at h
    obtain ⟨relation, named, h⟩ := bind_eq_ok.1 h
    obtain ⟨v, entity, h⟩ := bind_eq_ok.1 h
    obtain ⟨later, more, h⟩ := bind_eq_ok.1 h
    cases h
    have target := Schema.name_of_entity entity
    rw [← target] at more
    exact .cons_cons ⟨relation, Schema.mem_of_relation (Schema.entity_text declared) named, target.symm⟩
      (ih (Schema.find?_of_entity entity) more)

/-- The path over first relations through the entities that a path visits. -/
def renamed (schema : Schema) (start : String) (given : Value) (maxDepth : Int) : Except Failure (List String) := do
  relationNames schema start (← resolveGiven schema start given maxDepth)

theorem renamed_eq {start : String} {given : Value} {maxDepth : Int} {visited : List Entity}
    (h : resolveGiven schema start given maxDepth = .ok visited) :
    renamed schema start given maxDepth = relationNames schema start visited := by
  rw [renamed, h]
  rfl

/-- **Names and models are inverse walks.** Names are found between entities exactly if each leads to the next: one
name for each entity, of the first relation there, and resolved again they visit the entities given. Otherwise the first
pair that is not connected is reported. So a path that is resolved can be renamed, which keeps what it visits, and a
path that was renamed is left as it is. -/
theorem relationNames_inverse {graph : Value} {schema : Schema} (document : graph.isDocument = true)
    (accepted : Schema.ofValue graph = .ok schema) {start : Entity} (declared : schema.find? start.name = some start)
    {visited : List Entity} (some_ : visited ≠ []) (found : ∀ v ∈ visited, schema.find? v.name = some v) :
    let names := relationNames schema start.name visited
    ((∃ path, names = .ok path) ↔ (start :: visited).IsChain Entity.LeadsTo) ∧
    (∀ path, names = .ok path → path.length = visited.length ∧
      (∃ hops last, schema.Walks start path hops last ∧ hops.map (·.target) = visited ∧ ∀ hop ∈ hops, hop.Foremost) ∧
      ∀ maxDepth : Int, visited.length ≤ maxDepth →
        resolveGiven schema start.name (.list (path.map .text)) maxDepth = .ok visited) ∧
    (¬ (start :: visited).IsChain Entity.LeadsTo → ∃ before a b after, start :: visited = before ++ a :: b :: after ∧
      (before ++ [a]).IsChain Entity.LeadsTo ∧ ¬ a.LeadsTo b ∧ names = .error (.missingRelation a.name b.name)) ∧
    ∀ (given : Value) (maxDepth : Int) (models : List Entity),
      resolveGiven schema start.name given maxDepth = .ok models → ∃ path,
        renamed schema start.name given maxDepth = .ok path ∧
        resolveGiven schema start.name (.list (path.map .text)) maxDepth = .ok models ∧
        renamed schema start.name (.list (path.map .text)) maxDepth = .ok path := by
  have sound := Schema.sound_of_ofValue document accepted
  refine ⟨?_, fun path named => ?_, fun broken => ?_, fun given maxDepth models resolved => ?_⟩
  · exact relationNames_iff sound declared found
  · obtain ⟨length, hops, last, walk, rfl, foremost⟩ := walk_of_relationNames sound declared found named
    exact ⟨length, ⟨hops, last, walk, rfl, foremost⟩, fun maxDepth depth =>
      resolveGiven_of_relationNames sound declared some_ found named depth⟩
  · rcases relationNames_cases sound declared found with ⟨chain, -⟩ | stops
    · exact absurd chain broken
    · exact stops
  · obtain ⟨path, steps, resolved'⟩ := bind_eq_ok.1 resolved
    obtain ⟨nonempty, depth, walked⟩ := walk_of_resolve resolved'
    have length := length_of_walk walked
    have visits : models ≠ [] := fun none => nonempty (List.length_eq_zero_iff.1 (by rw [← length, none]; rfl))
    have modelsFound := found_of_walk walked
    obtain ⟨names, named⟩ := (relationNames_iff sound declared modelsFound).2 (leads_of_walk declared walked)
    have within : models.length ≤ maxDepth := by omega
    have again := resolveGiven_of_relationNames sound declared visits modelsFound named within
    exact ⟨names, by rw [renamed_eq resolved, named], again, by rw [renamed_eq again, named]⟩

end Path

/-! ## Several relations between one pair of entities -/

namespace Teams

def graph : Value := .ofFields [("entities", .ofFields [
  ("Person", .ofFields [("relations", .ofFields [
    ("mentor", .ofFields [("kind", .text "belongsTo"), ("target", .text "Person"), ("foreign_key", .text "mentor_id")]),
    ("boss", .ofFields [("kind", .text "belongsTo"), ("target", .text "Person"), ("foreign_key", .text "boss_id")]),
    ("team", .ofFields [("kind", .text "belongsTo"), ("target", .text "Team"), ("foreign_key", .text "team_id")])])]),
  ("Team", .ofFields [("relations", .ofFields [
    ("members", .ofFields [("kind", .text "hasMany"), ("target", .text "Person"), ("foreign_key", .text "team_id")]),
    ("reserves", .ofFields [("kind", .text "hasMany"), ("target", .text "Person"),
      ("foreign_key", .text "reserve_id")])])])])]

def person : Entity := ⟨"Person", .text "id", [], [⟨"mentor", .belongsTo, "Person", .text "mentor_id"⟩,
  ⟨"boss", .belongsTo, "Person", .text "boss_id"⟩, ⟨"team", .belongsTo, "Team", .text "team_id"⟩]⟩

def team : Entity := ⟨"Team", .text "id", [],
  [⟨"members", .hasMany, "Person", .text "team_id"⟩, ⟨"reserves", .hasMany, "Person", .text "reserve_id"⟩]⟩

def schema : Schema := ⟨.int 1, [person, team]⟩

set_option maxRecDepth 2000 in
theorem document : graph.isDocument = true := by decide

theorem accepted : Schema.ofValue graph = .ok schema := rfl

theorem found : ∀ v ∈ [person, team, person], schema.find? v.name = some v := by simp [schema, Schema.find?, person, team]

end Teams

/-- The reserves of a boss's team are reached through the mentor and the members as well, and nothing leads from a team to
a team. -/
theorem Path.relationNames_inverse_teams :
    resolveGiven Teams.schema "Person" (.list (["mentor", "team", "members"].map .text)) 3 =
      .ok [Teams.person, Teams.team, Teams.person] ∧
    (∃ path, renamed Teams.schema "Person" (.text "boss.team.reserves") 3 = .ok path ∧
      renamed Teams.schema "Person" (.list (path.map .text)) 3 = .ok path) ∧
    ¬ ∃ path, relationNames Teams.schema "Team" [Teams.team] = .ok path := by
  have person : Teams.schema.find? Teams.person.name = some Teams.person := rfl
  have team : Teams.schema.find? Teams.team.name = some Teams.team := rfl
  have inverse := relationNames_inverse Teams.document Teams.accepted person
    (List.cons_ne_nil Teams.person [Teams.team, Teams.person]) Teams.found
  have apart := relationNames_inverse Teams.document Teams.accepted team (List.cons_ne_nil Teams.team [])
    (by simpa using team)
  obtain ⟨-, resolves, -, renames⟩ := inverse
  obtain ⟨path, renamed, -, again⟩ := renames (.text "boss.team.reserves") 3 _ rfl
  refine ⟨(resolves ["mentor", "team", "members"] rfl).2.2 3 (by decide), ⟨path, renamed, again⟩, fun named => ?_⟩
  have chain := apart.1.1 named
  simp [Entity.LeadsTo, Teams.team] at chain

end Semijoin
