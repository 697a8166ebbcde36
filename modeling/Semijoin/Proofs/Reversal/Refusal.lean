import Semijoin.Proofs.Reversal.Plan

/-!
# Which paths are reversed

What a schema says of a path before anything is fetched: it refuses the path, for the first reason that counts, or
it has a plan for it. `refuses_or_plans` says that there is no third outcome; planning comes to these two by
`route_eq_error` and `route_eq_ok_of_plans`, so they exclude each other.
-/

namespace Semijoin
set_option autoImplicit false

namespace Schema

/-- Why a schema refuses to reverse a path. Every reason assumes that the ones before it do not hold. -/
inductive Refuses (schema : Schema) (maxDepth : Int) : String → List String → Failure → Prop
  | undeclaredRoot {root : String} (path : List String) (undeclared : schema.find? root = none) :
      Refuses schema maxDepth root path (.invalidGraph ["[" ++ root ++ "] Unknown entity"])
  | noSteps {root : Entity} (declared : schema.find? root.name = some root) :
      Refuses schema maxDepth root.name [] (.unknownRelation root.name (.text ""))
  | tooDeep {root : Entity} {path : List String} (declared : schema.find? root.name = some root) (some_ : path ≠ [])
      (deep : maxDepth < path.length) :
      Refuses schema maxDepth root.name path (.pathTooDeep (".".intercalate path) maxDepth)
  | undeclaredStep {root reached : Entity} {before after : List String} {step : String} {hops : List Hop}
      (admitted : schema.Admits maxDepth root (before ++ step :: after)) (walk : schema.Walks root before hops reached)
      (undeclared : reached.find? step = none) :
      Refuses schema maxDepth root.name (before ++ step :: after) (.unknownRelation reached.name (.text step))
  | unsupportedKind {root furthest : Entity} {path : List String} {first : Hop} {hops : List Hop}
      (admitted : schema.Admits maxDepth root path) (walk : schema.Walks root path (first :: hops) furthest)
      (unsupported : ¬ first.Followed) :
      Refuses schema maxDepth root.name path
        (.unsupportedKind root.name first.relation.name (.text first.relation.kind.name))
  | noWayToRoot {root furthest : Entity} {path : List String} {first : Hop} {hops : List Hop}
      (admitted : schema.Admits maxDepth root path) (walk : schema.Walks root path (first :: hops) furthest)
      (many : first.relation.kind = .hasMany) (none : first.back? = none) :
      Refuses schema maxDepth root.name path (.missingRelation first.target.name root.name)
  | noWayBack {root furthest : Entity} {path : List String} {first hop : Hop} {before after : List Hop}
      (admitted : schema.Admits maxDepth root path)
      (walk : schema.Walks root path (first :: (before ++ hop :: after)) furthest) (followed : first.Followed)
      (returnsFirst : first.relation.kind = .hasMany → first.back? = some first.back)
      (returnsAfter : ∀ h ∈ after, h.back? = some h.back) (none : hop.back? = none) :
      Refuses schema maxDepth root.name path (.missingRelation hop.target.name hop.owner.name)

/-- What a schema plans for a path: all of the path is declared, and so is a way back. -/
inductive Plans (schema : Schema) (maxDepth : Int) : String → List String → Reversal.Plan → Prop
  | mk {root furthest : Entity} {path : List String} {first : Hop} {hops : List Hop}
      (admitted : schema.Admits maxDepth root path) (walk : schema.Walks root path (first :: hops) furthest)
      (followed : first.Followed) (returnsFirst : first.relation.kind = .hasMany → first.back? = some first.back)
      (returnsLater : ∀ hop ∈ hops, hop.back? = some hop.back) :
      Plans schema maxDepth root.name path ⟨first.ownerColumn, first.idColumn, furthest.name, backNames hops⟩

end Schema

namespace Path

variable {schema : Schema}

/-- The names back over several entities are found part by part; the second part goes on where the first ended. -/
theorem relationNames_append (start : String) (visited more : List Entity) :
    relationNames schema start (visited ++ more) = do
      let names ← relationNames schema start visited
      return names ++ (← relationNames schema (lastName start visited) more) := by
  induction visited generalizing start with
  | nil =>
    show relationNames schema start more = (relationNames schema start more >>= fun names => pure names)
    cases relationNames schema start more <;> rfl
  | cons v rest ih =>
    rw [List.cons_append, relationNames, relationNames, lastName_cons, ih]
    cases schema.firstTo? (.text start) (.text v.name) with
    | error f => rfl
    | ok found =>
      cases found with
      | none => rfl
      | some r =>
        cases relationNames schema v.name rest with
        | error f => rfl
        | ok names => cases relationNames schema (lastName v.name rest) more <;> rfl

end Path

/-- The names of the entities before the end of a walk, backwards, end at its start. -/
theorem Schema.Walks.lastOwner {schema : Schema} {e e' : Entity} {path : List String} {hops : List Hop}
    (walk : schema.Walks e path hops e') :
    Path.lastName e'.name (hops.map (·.owner)).reverse = e.name := by
  cases walk with
  | done e => rfl
  | step here more =>
    have owner := (Schema.hop?_eq_some here).owner_eq
    simp [Path.lastName, owner]

namespace Reversal

variable {schema : Schema} {root furthest : Entity} {path : List String}
  {first hop : Hop} {hops before after : List Hop}

/-- The way back stops at the last hop that nothing leads back over. -/
theorem relationNames_stops (sound : schema.Sound) {start : Entity}
    (walk : schema.Walks start path (before ++ hop :: after) furthest)
    (returns : ∀ h ∈ after, h.back? = some h.back) (none : hop.back? = none) :
    Path.relationNames schema furthest.name ((before ++ hop :: after).map (·.owner)).reverse =
      .error (.missingRelation hop.target.name hop.owner.name) := by
  obtain ⟨_, _, _, -, -, walkHop⟩ := walk.split
  cases walkHop with
  | step here later =>
    have from' := Schema.hop?_eq_some here
    have names := relationNames_back sound later from'.target_found returns
    have stops : Path.relationNames schema hop.target.name (hop.owner :: (before.map (·.owner)).reverse) =
        .error (.missingRelation hop.target.name hop.owner.name) := by
      rw [Hop.back?] at none
      rw [Path.relationNames, Schema.firstTo?_eq from'.target_found, none]
      rfl
    have owners : ((before ++ hop :: after).map (·.owner)).reverse =
        (after.map (·.owner)).reverse ++ (hop.owner :: (before.map (·.owner)).reverse) := by simp
    rw [owners, Path.relationNames_append, names, later.lastOwner, stops]
    rfl

theorem keyPair_unsupported (adjacent : Entity) {relation : Relation}
    (unsupported : ¬ (relation.kind = .hasMany ∨ relation.kind = .belongsTo)) :
    keyPair schema root adjacent relation =
      .error (.unsupportedKind root.name relation.name (.text relation.kind.name)) := by
  unfold keyPair
  cases kind : relation.kind <;> simp_all <;> rfl

theorem keyPair_noWay (declared : schema.find? first.target.name = some first.target)
    (many : first.relation.kind = .hasMany) (none : first.back? = none) :
    keyPair schema first.owner first.target first.relation =
      .error (.missingRelation first.target.name first.owner.name) := by
  rw [Hop.back?] at none
  simp only [keyPair, many, Schema.firstTo?_eq declared, none]
  rfl

theorem route_of_undeclared {maxDepth : Int} {root : String} {path : List String} {f : Failure}
    (fails : schema.entity (.text root) = .error f) : route schema maxDepth root (path.map .text) = .error f := by
  unfold route
  rw [fails]
  rfl

theorem route_of_unresolved {maxDepth : Int} {root : String} {path : List String} {e : Entity} {f : Failure}
    (declared : schema.entity (.text root) = .ok e)
    (fails : Path.resolve schema root (path.map .text) maxDepth = .error f) :
    route schema maxDepth root (path.map .text) = .error f := by
  unfold route
  rw [declared, fails]
  rfl

/-- A path that is refused has no route. -/
theorem route_eq_error {maxDepth : Int} (sound : schema.Sound) {root : String} {path : List String} {f : Failure}
    (refused : schema.Refuses maxDepth root path f) : route schema maxDepth root (path.map .text) = .error f := by
  cases refused with
  | undeclaredRoot _ undeclared => exact route_of_undeclared (Schema.entity_undeclared undeclared)
  | noSteps declared => exact route_of_unresolved (Schema.entity_text declared) rfl
  | tooDeep declared some_ deep => exact route_of_unresolved (Schema.entity_text declared) (Path.resolve_deep some_ deep)
  | undeclaredStep admitted walk undeclared =>
    refine route_of_unresolved (Schema.entity_text admitted.declared) ?_
    rw [Path.resolve_admitted admitted, Path.walk_stops walk admitted.declared undeclared]
  | unsupportedKind admitted walk unsupported =>
    rw [route_admitted admitted walk, keyPair_unsupported _ unsupported]
    rfl
  | noWayToRoot admitted walk many none =>
    cases walk with
    | step here more =>
      have from' := Schema.hop?_eq_some here
      obtain rfl := from'.owner_eq
      rw [route_admitted admitted (.step here more), keyPair_noWay from'.target_found many none]
      rfl
  | noWayBack admitted walk followed returnsFirst returnsAfter none =>
    rw [route_admitted admitted walk]
    cases walk with
    | step here more =>
      have from' := Schema.hop?_eq_some here
      rw [keyPair_eq (from'.name_eq ▸ from') followed returnsFirst,
        relationNames_stops sound more returnsAfter none]
      rfl

theorem route_eq_ok_of_plans {maxDepth : Int} (sound : schema.Sound) {root : String} {path : List String} {p : Plan}
    (planned : schema.Plans maxDepth root path p) : route schema maxDepth root (path.map .text) = .ok p := by
  cases planned with
  | mk admitted walk followed returnsFirst returnsLater =>
    exact route_eq sound admitted.declared walk admitted.depth followed returnsFirst returnsLater

/-- Of the hops of a walk, either all lead back or there is a last one that does not. -/
theorem returns_or_stops (hops : List Hop) : (∀ hop ∈ hops, hop.back? = some hop.back) ∨
    ∃ before hop after, hops = before ++ hop :: after ∧ (∀ h ∈ after, h.back? = some h.back) ∧ hop.back? = none := by
  have back (hop : Hop) : hop.back? = some hop.back ∨ hop.back? = none := by
    cases found : hop.back? with
    | none => exact .inr rfl
    | some r => exact .inl (by rw [Hop.back_eq found])
  induction hops with
  | nil => exact .inl (by simp)
  | cons first rest ih =>
    rcases ih with all | ⟨before, hop, after, rfl, later, none⟩
    · rcases back first with here | none
      · exact .inl (List.forall_mem_cons.2 ⟨here, all⟩)
      · exact .inr ⟨[], first, rest, rfl, all, none⟩
    · exact .inr ⟨first :: before, hop, after, rfl, later, none⟩

/-- **A schema refuses a path or has a plan for it.** -/
theorem refuses_or_plans (sound : schema.Sound) (maxDepth : Int) (root : String) (path : List String) :
    (∃ f, schema.Refuses maxDepth root path f) ∨ ∃ p, schema.Plans maxDepth root path p := by
  cases found : schema.find? root with
  | none => exact .inl ⟨_, .undeclaredRoot path found⟩
  | some e =>
    obtain rfl := (Schema.find?_eq_some found).2
    by_cases some_ : path = []
    · subst some_
      exact .inl ⟨_, .noSteps found⟩
    · by_cases deep : maxDepth < path.length
      · exact .inl ⟨_, .tooDeep found some_ deep⟩
      · have admitted : schema.Admits maxDepth e path := ⟨found, some_, by omega⟩
        rcases Schema.walks_or_stops sound path found with ⟨hops, furthest, walk⟩ | ⟨_, _, _, _, _, rfl, walk, stops⟩
        · cases hops with
          | nil =>
            cases walk
            exact absurd rfl some_
          | cons first hops =>
            by_cases followed : first.Followed
            · by_cases noWay : first.relation.kind = .hasMany ∧ first.back? = none
              · exact .inl ⟨_, .noWayToRoot admitted walk noWay.1 noWay.2⟩
              · have returnsFirst (many : first.relation.kind = .hasMany) : first.back? = some first.back := by
                  obtain ⟨r, back⟩ := Option.ne_none_iff_exists'.1 fun none => noWay ⟨many, none⟩
                  rw [back, Hop.back_eq back]
                rcases returns_or_stops hops with all | ⟨before, hop, after, rfl, later, none⟩
                · exact .inr ⟨_, .mk admitted walk followed returnsFirst all⟩
                · exact .inl ⟨_, .noWayBack admitted walk followed returnsFirst later none⟩
            · exact .inl ⟨_, .unsupportedKind admitted walk followed⟩
        · exact .inl ⟨_, .undeclaredStep admitted walk stops⟩

/-- A path has one plan at most. -/
theorem plans_unique (sound : schema.Sound) {maxDepth : Int} {root : String} {path : List String} {p p' : Plan}
    (planned : schema.Plans maxDepth root path p) (planned' : schema.Plans maxDepth root path p') : p = p' := by
  have plan := route_eq_ok_of_plans sound planned
  rw [route_eq_ok_of_plans sound planned'] at plan
  exact (Except.ok.inj plan).symm

/-- What is refused has no plan. -/
theorem not_plans_of_refuses (sound : schema.Sound) {maxDepth : Int} {root : String} {path : List String} {f : Failure}
    (refused : schema.Refuses maxDepth root path f) (p : Plan) : ¬ schema.Plans maxDepth root path p := by
  intro planned
  have plan := route_eq_ok_of_plans sound planned
  rw [route_eq_error sound refused] at plan
  cases plan

end Reversal

end Semijoin
