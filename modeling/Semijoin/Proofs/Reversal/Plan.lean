import Semijoin.Proofs.Access.Find
import Semijoin.Proofs.Path.Resolution
import Semijoin.Proofs.Value.Written
import Semijoin.Reversal

/-!
# The plan of a reversal

What a reversal decides from the schema alone, in terms of the hops of its path: the furthest entity, the
first relations back from there to the entity next to the root, and the two columns that the first hop
compares. The column that is collected comes from the first relation back too when the first hop is `hasMany`.
-/

namespace Semijoin
set_option autoImplicit false

/-- The column that is collected from the rows next to the root. -/
def Hop.idColumn (hop : Hop) : Value :=
  match hop.relation.kind with
  | .belongsTo => hop.target.primaryKey
  | _ => hop.back.foreignKey

namespace Reversal

variable {schema : Schema} {root e' : Entity} {path : List String} {first : Hop} {hops : List Hop}

theorem keyPair_eq (from' : schema.HopFrom root (.text first.relation.name) first) (followed : first.Followed)
    (returns : first.relation.kind = .hasMany → first.back? = some first.back) :
    keyPair schema root first.target first.relation = .ok (first.ownerColumn, first.idColumn) := by
  obtain rfl := from'.owner_eq
  unfold keyPair Hop.ownerColumn Hop.idColumn
  rcases followed with many | one
  · have back := returns many
    simp only [many, Schema.firstTo?_eq from'.target_found]
    rw [Hop.back?] at back
    rw [back]
    rfl
  · simp only [one]
    rfl

/-- Back from the end of a walk, the names found are those of the first relations back. -/
theorem relationNames_back (sound : schema.Sound) {start : Entity} (walk : schema.Walks start path hops e')
    (declared : schema.find? start.name = some start) (returns : ∀ hop ∈ hops, hop.back? = some hop.back) :
    Path.relationNames schema e'.name (hops.map (·.owner)).reverse = .ok (backNames hops) := by
  have targets : (hops.map (·.owner)).reverse = (retrace hops).map (·.target) := by
    simp [retrace, Hop.reversed, Function.comp_def]
  rw [targets]
  refine Path.relationNames_eq (retrace_walks sound walk declared returns) (walk.found declared) fun hop mem => ?_
  obtain ⟨there, mem', rfl⟩ := List.mem_map.1 mem
  exact returns there (List.mem_reverse.1 mem')

/-- An admitted path is routed by the two fields of its first relation and the names back. -/
theorem route_admitted {maxDepth : Int} (admitted : schema.Admits maxDepth root path)
    (walk : schema.Walks root path (first :: hops) e') :
    route schema maxDepth root.name (path.map .text) = (do
      let (rootField, idField) ← keyPair schema root first.target first.relation
      let back ← Path.relationNames schema e'.name (hops.map (·.owner)).reverse
      return ⟨rootField, idField, e'.name, back⟩) := by
  have resolved := Path.resolve_admitted admitted
  rw [Path.walk_eq walk admitted.declared] at resolved
  have rooted := Schema.entity_text admitted.declared
  cases walk with
  | @step _ _ name rest _ _ here more =>
    have step := (Schema.hop?_eq_some here).relation_eq admitted.declared
    have backwards : ((first :: hops).map (·.target)).reverse = e' :: (hops.map (·.owner)).reverse := by
      rw [List.map_cons, ← more.owners_targets, List.reverse_append]
      rfl
    unfold route
    rw [rooted, resolved]
    simp only [bind, Except.bind, List.map_cons] at backwards ⊢
    simp only [backwards, step]

/-- **The route of a reversal**, read off the hops of its path. -/
theorem route_eq (sound : schema.Sound) (declared : schema.find? root.name = some root)
    (walk : schema.Walks root path (first :: hops) e') {maxDepth : Int} (depth : path.length ≤ maxDepth)
    (followed : first.Followed) (returns : first.relation.kind = .hasMany → first.back? = some first.back)
    (returnsLater : ∀ hop ∈ hops, hop.back? = some hop.back) :
    route schema maxDepth root.name (path.map .text) =
      .ok ⟨first.ownerColumn, first.idColumn, e'.name, backNames hops⟩ := by
  have some_ : path ≠ [] := by
    rintro rfl
    cases walk
  rw [route_admitted ⟨declared, some_, depth⟩ walk]
  cases walk with
  | step here more =>
    have from' := Schema.hop?_eq_some here
    rw [keyPair_eq (from'.name_eq ▸ from') followed returns,
      relationNames_back sound more from'.target_found returnsLater]
    rfl

section Announce

variable {maxDepth : Int} {start : String} {steps : List Value} {p : Plan} {condition : Value}

theorem announce_texts (names : List String) (condition : Value) :
    announce (names.map .text) condition = discard condition.written := by
  rw [announce, Value.joinPoints_texts]
  rfl

/-- What is planned has a path that can be joined, a condition that has a text, and a route. -/
theorem plan_iff : plan schema maxDepth start steps condition = .ok p ↔ (∃ joined, Value.joinPoints steps = .ok joined) ∧
    condition.isWritable = true ∧ route schema maxDepth start steps = .ok p := by
  unfold plan announce Value.written
  cases Value.joinPoints steps with
  | error f => exact ⟨(nomatch ·), fun ⟨⟨_, joined⟩, _⟩ => nomatch joined⟩
  | ok joined =>
    cases condition.isWritable with
    | false => exact ⟨(nomatch ·), fun ⟨_, writable, _⟩ => nomatch writable⟩
    | true => exact ⟨fun routed => ⟨⟨joined, rfl⟩, rfl, routed⟩, fun ⟨_, _, routed⟩ => routed⟩

/-- What is planned for one condition is planned for every other that has a text. -/
theorem plan_of_plan (h : plan schema maxDepth start steps condition = .ok p) {other : Value}
    (writable : other.isWritable = true) : plan schema maxDepth start steps other = .ok p :=
  plan_iff.2 ⟨(plan_iff.1 h).1, writable, (plan_iff.1 h).2.2⟩

/-- For a condition that has a text, the route of named steps is the plan. -/
theorem plan_eq_route (writable : condition.isWritable = true) (names : List String) :
    plan schema maxDepth start (names.map .text) condition = route schema maxDepth start (names.map .text) := by
  rw [plan, announce_texts, Value.written_of_isWritable writable]
  rfl

/-- A condition that has no text ends a reversal before its path is looked at. -/
theorem plan_long (long : condition.isWritable = false) (names : List String) :
    plan schema maxDepth start (names.map .text) condition = .error (.ofFault .longInteger) := by
  rw [plan, announce_texts, Value.written_of_long long]
  rfl

variable [Attributes]

/-- A condition that has no text is refused before anything is asked, whatever its path. -/
theorem run_long {σ : Type} {access : Access σ} {options : Options} (long : condition.isWritable = false)
    (names : List String) (s : σ) :
    (run access schema options start (names.map .text) condition).step s = (.error (.ofFault .longInteger), s) := by
  have failed : (Action.ofExcept (plan schema options.maxDepth start (names.map .text) condition) : Action σ Plan).step s =
      (.error (.ofFault .longInteger), s) := by
    rw [Action.step_ofExcept, plan_long long]
  exact Action.step_bind_error failed _

end Announce

/-- What a plan is made from: the first relation of the root gives the two columns, and the entities visited
are declared, one a step, the furthest first. -/
theorem plan_eq_ok {maxDepth : Int} {root : String} {path : List Value} {condition : Value} {p : Plan}
    (h : plan schema maxDepth root path condition = .ok p) : ∃ owner adjacent relation first e before,
      schema.entity (.text root) = .ok owner ∧ schema.relation (.text root) first = .ok relation ∧
      keyPair schema owner adjacent relation = .ok (p.rootField, p.idField) ∧ p.furthest = e.name ∧
      (∀ v ∈ adjacent :: e :: before, schema.find? v.name = some v) ∧
        Path.relationNames schema e.name before = .ok p.back ∧ before.length + 1 = path.length := by
  have routed := (plan_iff.1 h).2.2
  unfold route at routed
  obtain ⟨owner, rooted, visits⟩ := bind_eq_ok.1 routed
  obtain ⟨visited, resolved, ends⟩ := bind_eq_ok.1 visits
  have declared := Path.found_of_resolve resolved
  have length := Path.length_of_walk (Path.walk_of_resolve resolved).2.2
  split at ends
  · rename_i furthest before reversed
    obtain ⟨relation, related, keyed⟩ := bind_eq_ok.1 ends
    obtain ⟨⟨rootField, idField⟩, keys, back⟩ := bind_eq_ok.1 keyed
    obtain ⟨back, names, eq⟩ := bind_eq_ok.1 back
    cases eq
    have steps := congrArg List.length reversed
    rw [List.length_reverse, length] at steps
    refine ⟨owner, _, relation, _, furthest, before, rooted, related, keys, rfl, ?_, names, steps.symm⟩
    refine List.forall_mem_cons.2 ⟨declared _ List.mem_cons_self, fun v mem => ?_⟩
    rw [← reversed, List.mem_reverse] at mem
    exact declared v mem
  · cases ends

/-- A plan goes back over one relation less than its path has steps. -/
theorem plan_length {maxDepth : Int} {root : String} {path : List Value} {condition : Value} {p : Plan}
    (h : plan schema maxDepth root path condition = .ok p) : p.back.length + 1 = path.length := by
  obtain ⟨_, _, _, _, _, _, -, -, -, -, -, names, length⟩ := plan_eq_ok h
  rw [Path.length_of_relationNames names, length]

/-- A plan goes out from a declared entity. -/
theorem plan_declared {maxDepth : Int} {root : String} {path : List Value} {condition : Value} {p : Plan}
    (h : plan schema maxDepth root path condition = .ok p) : ∃ e, p.furthest = e.name ∧ schema.find? e.name = some e := by
  obtain ⟨_, _, _, _, e, _, -, -, -, furthest, declared, -⟩ := plan_eq_ok h
  exact ⟨e, furthest, declared e (by simp)⟩

/-- The two fields of a first relation are keys: those of the two entities, of the relation, or of one back. -/
theorem keyPair_mem {owner adjacent : Entity} {relation : Relation} {rootField idField : Value}
    (rooted : owner ∈ schema.entities) (own : relation ∈ owner.relations)
    (declared : schema.find? adjacent.name = some adjacent)
    (h : keyPair schema owner adjacent relation = .ok (rootField, idField)) :
    rootField ∈ schema.keyNames ∧ idField ∈ schema.keyNames := by
  have key {e : Entity} (declared : e ∈ schema.entities) : e.primaryKey ∈ schema.keyNames :=
    List.mem_flatMap.2 ⟨e, declared, List.mem_cons_self⟩
  have foreign {e : Entity} (declared : e ∈ schema.entities) {r : Relation} (mem : r ∈ e.relations) :
      r.foreignKey ∈ schema.keyNames :=
    List.mem_flatMap.2 ⟨e, declared, List.mem_cons_of_mem _ (List.mem_map_of_mem mem)⟩
  have next : adjacent ∈ schema.entities := (Schema.find?_eq_some declared).1
  unfold keyPair at h
  split at h
  · rw [Schema.firstTo?_eq declared] at h
    obtain ⟨back, first, h⟩ := bind_eq_ok.1 h
    cases first
    split at h
    · rename_i back found
      cases h
      exact ⟨key rooted, foreign next (List.mem_of_find?_eq_some found)⟩
    · cases h
  · cases h
    exact ⟨foreign rooted own, key next⟩
  · cases h

/-- A plan compares two columns that are keys of the schema. -/
theorem plan_keys {maxDepth : Int} {root : String} {path : List Value} {condition : Value} {p : Plan}
    (h : plan schema maxDepth root path condition = .ok p) :
    p.rootField ∈ schema.keyNames ∧ p.idField ∈ schema.keyNames := by
  obtain ⟨owner, adjacent, relation, first, _, _, rooted, related, keys, -, declared, -⟩ := plan_eq_ok h
  have rootDeclared : owner ∈ schema.entities := (Schema.find?_eq_some (Schema.find?_of_entity rooted)).1
  exact keyPair_mem rootDeclared (Schema.mem_of_relation rooted related) (declared _ List.mem_cons_self) keys

/-- The way out of a plan is a walk. -/
theorem plan_walks (sound : schema.Sound) {maxDepth : Int} {root : String} {path : List Value} {condition : Value}
    {p : Plan} (h : plan schema maxDepth root path condition = .ok p) :
    ∃ e hops e', p.furthest = e.name ∧ schema.find? e.name = some e ∧ schema.Walks e p.back hops e' := by
  obtain ⟨_, _, _, _, e, before, -, -, -, furthest, declared, names, -⟩ := plan_eq_ok h
  obtain ⟨here, later⟩ := List.forall_mem_cons.1 (List.forall_mem_cons.1 declared).2
  obtain ⟨hops, e', walk⟩ := Path.walks_of_relationNames sound here later names
  exact ⟨e, hops, e', furthest, here, walk⟩

end Reversal

/-- The converse of a hop is declared before anything else that leads back. -/
def Hop.ConverseFirst (hop : Hop) : Prop :=
  ∃ before r after, hop.target.relations = before ++ r :: after ∧ hop.IsConverse r ∧
    ∀ b ∈ before, b.target ≠ hop.owner.name

/-- What is taken back is a converse exactly where a converse is declared first. -/
theorem Hop.isConverse_back_iff {hop : Hop} (returns : hop.back? = some hop.back) :
    hop.IsConverse hop.back ↔ hop.ConverseFirst := by
  constructor
  · intro converse
    obtain ⟨-, before, after, eq, none⟩ := List.find?_eq_some_iff_append.1 returns
    exact ⟨before, _, after, eq, converse, fun b hb => by simpa using none b hb⟩
  · rintro ⟨before, r, after, eq, converse, none⟩
    have first : hop.back? = some r := List.find?_eq_some_iff_append.2
      ⟨by simp [converse.target], before, after, eq, fun b hb => by simpa using none b hb⟩
    rw [Hop.back_eq first]
    exact converse

/-- **A reversal goes back over first relations.** Once its condition is written out it makes one find, over the
first relations declared back from the furthest entity to the one next to the root, which are converses of the steps
exactly where a converse is declared first; the column that it collects is a named one under the same condition, and
always if the first step is `belongsTo`. -/
theorem run_over_first_relations [Attributes] {graph : Value} {schema : Schema} (document : graph.isDocument = true)
    (accepted : Schema.ofValue graph = .ok schema) {root e' : Entity} (declared : schema.find? root.name = some root)
    {path : List String} {first : Hop} {hops : List Hop} (walk : schema.Walks root path (first :: hops) e')
    (converses : ∀ hop ∈ first :: hops, ∃ r ∈ hop.target.relations, hop.IsConverse r)
    {σ : Type} (access : Access σ) (options : Reversal.Options) (depth : path.length ≤ options.maxDepth)
    (condition : Value) :
    (Reversal.run access schema options root.name (path.map .text) condition = do
      discard (Action.ofValues condition.written)
      let found ← ExceptT.adapt (Reversal.wrap e'.name) (access.find e'.name (Reversal.fetched condition)
        (Path.includeScope ((backNames hops).map .text)))
      Action.ofExcept (Reversal.Plan.condition ⟨first.ownerColumn, first.idColumn, e'.name, backNames hops⟩
        options found)) ∧
    schema.Walks e' (backNames hops) (retrace hops) first.target ∧
    (∀ hop ∈ first :: hops, hop.back.target = hop.owner.name ∧ (hop.IsConverse hop.back ↔ hop.ConverseFirst)) ∧
    (first.relation.kind = .hasMany → first.ownerColumn = root.primaryKey ∧ first.idColumn = first.back.foreignKey ∧
      (first.ConverseFirst → first.idColumn = first.relation.foreignKey)) ∧
    (first.relation.kind = .belongsTo → first.ownerColumn = first.relation.foreignKey ∧
      first.idColumn = first.target.primaryKey) := by
  have sound := Schema.sound_of_ofValue document accepted
  have returns : ∀ hop ∈ first :: hops, hop.back? = some hop.back := fun hop mem => by
    obtain ⟨r, declared, converse⟩ := converses hop mem
    exact Hop.back?_eq_some declared converse.target
  obtain ⟨returnsFirst, returnsLater⟩ := List.forall_mem_cons.1 returns
  have followed : first.Followed := by
    obtain ⟨r, -, converse⟩ := converses first (by simp)
    exact converse.kinds.imp And.left And.left
  have owner : first.owner = root := by
    cases walk with
    | step here _ => exact (Schema.hop?_eq_some here).owner_eq
  have each : ∀ hop ∈ first :: hops, hop.back.target = hop.owner.name ∧ (hop.IsConverse hop.back ↔ hop.ConverseFirst) :=
    fun hop mem => ⟨(Hop.back_spec (returns hop mem)).2, Hop.isConverse_back_iff (returns hop mem)⟩
  refine ⟨?_, ?_, each, ?_, ?_⟩
  · have routed := Reversal.route_eq sound declared walk depth followed (fun _ => returnsFirst) returnsLater
    cases text : condition.isWritable with
    | true =>
      rw [Reversal.run, Reversal.plan_eq_route text, routed, Value.written_of_isWritable text]
      rfl
    | false =>
      rw [Reversal.run, Reversal.plan_long text, Value.written_of_long text]
      rfl
  · cases walk with
    | step here more => exact retrace_walks sound more (Schema.hop?_eq_some here).target_found returnsLater
  · intro many
    have collected : first.idColumn = first.back.foreignKey := by rw [Hop.idColumn, many]
    refine ⟨by rw [Hop.ownerColumn, many, owner], collected, fun converse => ?_⟩
    rw [collected, ((Hop.isConverse_back_iff returnsFirst).2 converse).foreignKey]
  · intro one
    exact ⟨by rw [Hop.ownerColumn, one], by rw [Hop.idColumn, one]⟩

/-! ## Two relations between one pair of entities -/

namespace Orders

def graph : Value := .ofFields [("entities", .ofFields [
  ("Person", .ofFields [("relations", .ofFields [
    ("bought", Sample.relation "hasMany" "Order" "buyer_id"),
    ("sold", Sample.relation "hasMany" "Order" "seller_id")])]),
  ("Order", .ofFields [("relations", .ofFields [
    ("buyer", Sample.relation "belongsTo" "Person" "buyer_id"),
    ("seller", Sample.relation "belongsTo" "Person" "seller_id")])])])]

def person : Entity := ⟨"Person", .text "id", [],
  [⟨"bought", .hasMany, "Order", .text "buyer_id"⟩, ⟨"sold", .hasMany, "Order", .text "seller_id"⟩]⟩

def order : Entity := ⟨"Order", .text "id", [],
  [⟨"buyer", .belongsTo, "Person", .text "buyer_id"⟩, ⟨"seller", .belongsTo, "Person", .text "seller_id"⟩]⟩

def schema : Schema := ⟨.int 1, [person, order]⟩

/-- The hop from a person to the orders sold. -/
def sold : Hop := ⟨person, ⟨"sold", .hasMany, "Order", .text "seller_id"⟩, order⟩

/-- The hop from an order to its buyer. -/
def buyer : Hop := ⟨order, ⟨"buyer", .belongsTo, "Person", .text "buyer_id"⟩, person⟩

/-- The hop from an order to its seller. -/
def seller : Hop := ⟨order, ⟨"seller", .belongsTo, "Person", .text "seller_id"⟩, person⟩

/-- Ann bought from Bob. -/
def tables : Tables := [
  ("Person", [.ofFields [("id", .text "ann")], .ofFields [("id", .text "bob")]]),
  ("Order", [.ofFields [("id", .int 7), ("buyer_id", .text "ann"), ("seller_id", .text "bob")]])]

set_option maxRecDepth 2000 in
theorem document : graph.isDocument = true := by decide

theorem accepted : Schema.ofValue graph = .ok schema := rfl

theorem sold_converse : ∃ r ∈ sold.target.relations, sold.IsConverse r :=
  ⟨⟨"seller", .belongsTo, "Person", .text "seller_id"⟩, by simp [sold, order], rfl, .inl ⟨rfl, rfl⟩, rfl⟩

theorem buyer_converse : ∃ r ∈ buyer.target.relations, buyer.IsConverse r :=
  ⟨⟨"bought", .hasMany, "Order", .text "buyer_id"⟩, by simp [buyer, person], rfl, .inr ⟨rfl, rfl⟩, rfl⟩

theorem seller_converse : ∃ r ∈ seller.target.relations, seller.IsConverse r :=
  ⟨⟨"sold", .hasMany, "Order", .text "seller_id"⟩, by simp [seller, person], rfl, .inr ⟨rfl, rfl⟩, rfl⟩

end Orders

/-- The sellers of what a person sold are looked up by what they bought, and the person by the buyer's column,
although a converse of each step is declared: Ann is selected in place of Bob. -/
theorem sold_goes_back_over_bought :
    Schema.ofValue Orders.graph = .ok Orders.schema ∧
    Orders.schema.Walks Orders.person ["sold", "seller"] [Orders.sold, Orders.seller] Orders.person ∧
    (∃ r ∈ Orders.sold.target.relations, Orders.sold.IsConverse r) ∧
    (∃ r ∈ Orders.seller.target.relations, Orders.seller.IsConverse r) ∧
    Reversal.plan Orders.schema 16 "Person" [.text "sold", .text "seller"] (.map []) =
      .ok ⟨.text "id", .text "buyer_id", "Person", ["bought"]⟩ ∧
    (∀ r, Orders.person.find? "bought" = some r → ¬ Orders.seller.IsConverse r) ∧
    Orders.sold.relation.kind = .hasMany ∧ Orders.sold.relation.foreignKey ≠ .text "buyer_id" ∧
    (Reversal.run (Orders.tables.access Orders.schema) Orders.schema {} "Person" [.text "sold", .text "seller"]
      (.map [])).Ends (.ok (.ofFields [("id", .ofFields [("in", .list [.text "ann"])])])) := by
  refine ⟨rfl, .step rfl (.step rfl (.done _)), Orders.sold_converse, Orders.seller_converse, rfl, ?_, rfl, ?_,
    fun _ => rfl⟩
  · intro r found converse
    have bought : r = ⟨"bought", .hasMany, "Order", .text "buyer_id"⟩ := (Option.some.inj found).symm
    have key := converse.foreignKey
    simp [bought, Orders.seller] at key
  · simp [Orders.sold]

/-- Two steps, back over the first relation to orders, which is the converse of the second step. -/
theorem run_over_first_relations_sold :
    (Reversal.run (Orders.tables.access Orders.schema) Orders.schema {} "Person" [.text "sold", .text "buyer"]
      (.map []) = do
        discard (Action.ofValues (Value.map []).written)
        let found ← ExceptT.adapt (Reversal.wrap "Person") ((Orders.tables.access Orders.schema).find "Person"
          (.map []) (.ofFields [("relation", .text "bought")]))
        Action.ofExcept (Reversal.Plan.condition ⟨.text "id", .text "buyer_id", "Person", ["bought"]⟩ {} found)) ∧
    Orders.schema.Walks Orders.person ["bought"] [Orders.buyer.reversed] Orders.order :=
  have back := run_over_first_relations Orders.document Orders.accepted
    (rfl : Orders.schema.find? Orders.person.name = some Orders.person)
    (.step rfl (.step rfl (.done _)) :
      Orders.schema.Walks Orders.person ["sold", "buyer"] [Orders.sold, Orders.buyer] Orders.person)
    (by simpa using ⟨Orders.sold_converse, Orders.buyer_converse⟩) (Orders.tables.access Orders.schema) {}
    (by decide) (.map [])
  ⟨back.1, back.2.1⟩

end Semijoin
