import Semijoin.Proofs.Path.Retrace

/-!
# Which paths are resolved

A path is given as a list of steps or as a dotted text. It is resolved exactly if it has a step but not too many and
walks the schema; the depth is looked at before any step, and a walk stops at the first step that is not declared.
Accepted graphs declare every target, so no other failure can come up, and a path is resolved part by part.
-/

namespace Semijoin
set_option autoImplicit false

namespace Path

/-! ## Dotted texts -/

/-- The parts of a text are what is between its points; the part that was begun is put before the first. -/
theorem partsFrom_eq (part rest : List Char) :
    (partsFrom part rest).map String.toList = (rest.splitOn '.').modifyHead (part.reverse ++ ·) := by
  induction rest generalizing part with
  | nil => simp [partsFrom]
  | cons c rest ih =>
    rw [partsFrom, List.splitOn, List.splitOnP_cons_eq_if_modifyHead]
    by_cases point : c = '.'
    · subst point
      have later : (partsFrom [] rest).map String.toList = (rest.splitOn '.').modifyHead id := ih []
      rw [if_pos rfl, if_pos (beq_self_eq_true '.'), List.map_cons, later, List.modifyHead_id]
      simp [List.splitOn]
    · rw [if_neg point, ih, if_neg (by simpa using point), List.modifyHead_modifyHead, List.splitOn]
      congr 1
      funext last
      simp

/-- No part has a point in it. -/
theorem not_mem_partsFrom {part : List Char} (fresh : '.' ∉ part) (rest : List Char) :
    ∀ step ∈ partsFrom part rest, '.' ∉ step.toList := by
  induction rest generalizing part with
  | nil => simpa [partsFrom] using fresh
  | cons c rest ih =>
    rw [partsFrom]
    split
    · exact List.forall_mem_cons.2 ⟨by simpa using fresh, ih (by simp)⟩
    · next other => exact ih (by simpa [eq_comm, fresh] using other)

theorem split_eq {s : String} (some_ : s ≠ "") : (split s).map String.toList = s.toList.splitOn '.' := by
  rw [split, if_neg some_, partsFrom_eq]
  exact congrFun List.modifyHead_id _

/-- A value gives the steps of a path: as a list, or as the text of the steps with points between them. -/
inductive Gives : Value → List String → Prop
  | list (path : List String) : Gives (.list (path.map .text)) path
  | empty : Gives (.text "") []
  | dotted {path : List String} (some_ : path ≠ []) (shown : ".".intercalate path ≠ "")
      (plain : ∀ step ∈ path, '.' ∉ step.toList) : Gives (.text (".".intercalate path)) path

theorem split_intercalate {path : List String} (some_ : path ≠ []) (shown : ".".intercalate path ≠ "")
    (plain : ∀ step ∈ path, '.' ∉ step.toList) : split (".".intercalate path) = path := by
  have chars : (split (".".intercalate path)).map String.toList = path.map String.toList := by
    rw [split_eq shown, String.toList_intercalate]
    exact List.splitOn_intercalate '.' (by simpa using plain) (by simpa using some_)
  exact (List.map_injective_iff.2 fun _ _ => String.toList_inj.1) chars

theorem intercalate_split {s : String} (some_ : s ≠ "") : ".".intercalate (split s) = s := by
  refine String.toList_inj.1 ?_
  rw [String.toList_intercalate, split_eq some_]
  exact List.intercalate_splitOn '.'

theorem steps_eq {given : Value} {path : List String} (h : Gives given path) : steps given = .ok (path.map .text) := by
  cases h with
  | list => rfl
  | empty => rfl
  | dotted some_ shown plain => rw [steps, split_intercalate some_ shown plain]

/-- Every text gives the steps of a path. -/
theorem gives_text (s : String) : Gives (.text s) (split s) := by
  by_cases empty : s = ""
  · subst empty
    exact .empty
  · have parts := split_eq empty
    have some_ : split s ≠ [] := fun none => List.splitOn_ne_nil '.' s.toList (by simpa [none] using parts.symm)
    have plain : ∀ step ∈ split s, '.' ∉ step.toList := by
      rw [split, if_neg empty]
      exact not_mem_partsFrom (by simp) s.toList
    have given := Gives.dotted some_ (by rwa [intercalate_split empty]) plain
    rwa [intercalate_split empty] at given

end Path

/-! ## Walks that end early -/

namespace Schema

variable {schema : Schema}

/-- A path starts at a declared entity, and has a step but not too many. -/
structure Admits (schema : Schema) (maxDepth : Int) (root : Entity) (path : List String) : Prop where
  declared : schema.find? root.name = some root
  some_ : path ≠ []
  depth : path.length ≤ maxDepth

/-- A path from a declared entity is declared step by step, or has a first step that is not. -/
theorem walks_or_stops (sound : schema.Sound) (path : List String) {e : Entity}
    (declared : schema.find? e.name = some e) :
    (∃ hops e', schema.Walks e path hops e') ∨ ∃ before step after hops reached,
      path = before ++ step :: after ∧ schema.Walks e before hops reached ∧ reached.find? step = none := by
  induction path generalizing e with
  | nil => exact .inl ⟨[], e, .done e⟩
  | cons name rest ih =>
    cases found : e.find? name with
    | none => exact .inr ⟨[], name, rest, [], e, rfl, .done e, found⟩
    | some r =>
      obtain ⟨target, closed⟩ := sound.closed e (find?_eq_some declared).1 r (List.mem_of_find?_eq_some found)
      have here : schema.hop? e (.text name) = some ⟨e, r, target⟩ := by simp [hop?, found, closed]
      rcases ih (hop?_eq_some here).target_found with
        ⟨hops, e', walk⟩ | ⟨before, step, after, hops, reached, rfl, walk, stops⟩
      · exact .inl ⟨_, e', .step here walk⟩
      · exact .inr ⟨name :: before, step, after, _, reached, rfl, .step here walk, stops⟩

end Schema

namespace Path

variable {schema : Schema}

/-- A walk fails at the first step that is not declared, with the entity reached. -/
theorem walk_stops {e reached : Entity} {before : List String} {hops : List Hop}
    (walk : schema.Walks e before hops reached) (declared : schema.find? e.name = some e) {step : String}
    (undeclared : reached.find? step = none) (after : List String) :
    Path.walk schema e.name ((before ++ step :: after).map .text) =
      .error (.unknownRelation reached.name (.text step)) := by
  induction walk with
  | done e =>
    rw [List.nil_append, List.map_cons, Path.walk, Schema.relation_undeclared declared undeclared]
    rfl
  | step here more ih =>
    have from' := Schema.hop?_eq_some here
    rw [List.cons_append, List.map_cons, Path.walk, from'.relation_eq declared]
    show (do let entity ← schema.entity _; return entity :: (← Path.walk schema _ _)) = _
    rw [from'.entity_eq, ← from'.target_name, ih from'.target_found undeclared]
    rfl

/-- A path of some steps but not too many is walked. -/
theorem resolve_shallow {maxDepth : Int} {path : List String} (root : String) (some_ : path ≠ [])
    (depth : path.length ≤ maxDepth) :
    resolve schema root (path.map .text) maxDepth = Path.walk schema root (path.map .text) := by
  have some_ : (path.map Value.text).isEmpty = false := by simpa using some_
  have shallow : ¬ maxDepth < (path.map Value.text).length := by
    rw [List.length_map]
    omega
  simp only [resolve, some_, shallow]
  rfl

theorem resolve_admitted {maxDepth : Int} {e : Entity} {path : List String} (admitted : schema.Admits maxDepth e path) :
    resolve schema e.name (path.map .text) maxDepth = Path.walk schema e.name (path.map .text) :=
  resolve_shallow e.name admitted.some_ admitted.depth

theorem resolve_deep {maxDepth : Int} {root : String} {path : List String} (some_ : path ≠ [])
    (deep : maxDepth < path.length) :
    resolve schema root (path.map .text) maxDepth = .error (.pathTooDeep (".".intercalate path) maxDepth) := by
  have some_ : (path.map Value.text).isEmpty = false := by simpa using some_
  have deep : maxDepth < (path.map Value.text).length := by simpa using deep
  simp only [resolve, some_, deep, Value.joinPoints_texts]
  rfl

/-- The name of the last entity visited, or of the start. -/
def lastName (start : String) (visited : List Entity) : String := (visited.getLast?.map (·.name)).getD start

theorem lastName_cons (start : String) (v : Entity) (visited : List Entity) :
    lastName start (v :: visited) = lastName v.name visited := by
  cases visited with
  | nil => rfl
  | cons w rest =>
    rw [lastName, lastName, List.getLast?_cons_cons, List.getLast?_cons]
    rfl

/-- A path is walked part by part; the second part goes on where the first ended. -/
theorem walk_append (start : String) (front rest : List Value) :
    walk schema start (front ++ rest) = do
      let visited ← walk schema start front
      return visited ++ (← walk schema (lastName start visited) rest) := by
  induction front generalizing start with
  | nil =>
    show walk schema start rest = (walk schema start rest >>= fun visited => pure visited)
    rw [bind_pure]
  | cons step front ih =>
    simp only [List.cons_append, walk, ih, bind_assoc, pure_bind]
    refine bind_congr fun relation => ?_
    cases found : schema.entity (.text relation.target) with
    | error f => rfl
    | ok v =>
      -- Both go on from the target, which is the last entity visited if nothing more of the front is.
      show (walk schema relation.target front >>= _) = (walk schema relation.target front >>= _)
      refine bind_congr fun visited => ?_
      rw [lastName_cons, Schema.name_of_entity found]

theorem resolve_append {maxDepth : Int} {front rest : List String} (root : String) (some_ : front ≠ [])
    (more : rest ≠ []) (depth : (front ++ rest).length ≤ maxDepth) :
    resolve schema root ((front ++ rest).map .text) maxDepth = do
      let visited ← resolve schema root (front.map .text) maxDepth
      return visited ++ (← resolve schema (lastName root visited) (rest.map .text) maxDepth) := by
  have lengths : (front ++ rest).length = front.length + rest.length := List.length_append
  rw [resolve_shallow root (by simp [some_]) depth, resolve_shallow root some_ (by omega), List.map_append, walk_append]
  refine bind_congr fun visited => ?_
  rw [resolve_shallow _ more (by omega)]

theorem resolveGiven_eq {given : Value} {path : List String} (gives : Gives given path) (schema : Schema) (root : String)
    (maxDepth : Int) : resolveGiven schema root given maxDepth = resolve schema root (path.map .text) maxDepth := by
  rw [resolveGiven, steps_eq gives]
  rfl

/-- Over a sound schema, a path from a declared root is resolved to the targets of its hops, or fails for one of three
reasons. -/
theorem resolve_cases (sound : schema.Sound) {root : Entity} (declared : schema.find? root.name = some root)
    (path : List String) (maxDepth : Int) :
    (path = [] ∧ resolve schema root.name (path.map .text) maxDepth = .error (.unknownRelation root.name (.text ""))) ∨
    (path ≠ [] ∧ maxDepth < path.length ∧ resolve schema root.name (path.map .text) maxDepth =
      .error (.pathTooDeep (".".intercalate path) maxDepth)) ∨
    (schema.Admits maxDepth root path ∧ ∃ hops furthest, schema.Walks root path hops furthest ∧
      resolve schema root.name (path.map .text) maxDepth = .ok (hops.map (·.target))) ∨
    schema.Admits maxDepth root path ∧ ∃ before step after hops reached, path = before ++ step :: after ∧
      schema.Walks root before hops reached ∧ reached.find? step = none ∧
      resolve schema root.name (path.map .text) maxDepth = .error (.unknownRelation reached.name (.text step)) := by
  by_cases none : path = []
  · subst none
    exact .inl ⟨rfl, rfl⟩
  by_cases deep : maxDepth < path.length
  · exact .inr (.inl ⟨none, deep, resolve_deep none deep⟩)
  have admitted : schema.Admits maxDepth root path := ⟨declared, none, by omega⟩
  have shallow := resolve_admitted admitted
  obtain ⟨hops, furthest, walk⟩ | ⟨before, step, after, hops, reached, eq, walk, undeclared⟩ :=
    Schema.walks_or_stops sound path declared
  · exact .inr (.inr (.inl ⟨admitted, hops, furthest, walk, shallow.trans (walk_eq walk declared)⟩))
  · refine .inr (.inr (.inr ⟨admitted, before, step, after, hops, reached, eq, walk, undeclared, ?_⟩))
    rw [shallow, eq, walk_stops walk declared undeclared]

end Path

/-! ## Resolving over an accepted graph -/

namespace Path

/-- **A path is resolved exactly if it walks the graph**, to one entity a step. No steps, too many steps and the first
undeclared step fail, in this order and each in its own way; nothing else does. Resolving composes. -/
theorem resolves_walks {graph : Value} {schema : Schema} (document : graph.isDocument = true)
    (accepted : Schema.ofValue graph = .ok schema) {root : Entity} (declared : schema.find? root.name = some root)
    {given : Value} {path : List String} (gives : Gives given path) (maxDepth : Int) :
    let resolved := resolveGiven schema root.name given maxDepth
    (∀ visited, resolved = .ok visited ↔ 1 ≤ path.length ∧ path.length ≤ maxDepth ∧
      ∃ hops furthest, schema.Walks root path hops furthest ∧ visited = hops.map (·.target)) ∧
    (path = [] → resolved = .error (.unknownRelation root.name (.text ""))) ∧
    (1 ≤ path.length → maxDepth < path.length → ∀ (other : Schema) (start : String),
      resolveGiven other start given maxDepth = .error (.pathTooDeep (".".intercalate path) maxDepth)) ∧
    (1 ≤ path.length → path.length ≤ maxDepth → (¬ ∃ hops furthest, schema.Walks root path hops furthest) →
      ∃ before step after hops reached, path = before ++ step :: after ∧ schema.Walks root before hops reached ∧
        reached.find? step = none ∧ resolved = .error (.unknownRelation reached.name (.text step))) ∧
    (∀ messages, resolved ≠ .error (.invalidGraph messages)) ∧
    ∀ {front rest : List String} {givenFront givenRest : Value}, path = front ++ rest → front ≠ [] → rest ≠ [] →
      path.length ≤ maxDepth → Gives givenFront front → Gives givenRest rest →
      resolved = do
        let visited ← resolveGiven schema root.name givenFront maxDepth
        return visited ++ (← resolveGiven schema (lastName root.name visited) givenRest maxDepth) := by
  have sound := Schema.sound_of_ofValue document accepted
  have cases' := resolve_cases sound declared path maxDepth
  simp only [resolveGiven_eq gives, Nat.one_le_iff_ne_zero, List.length_eq_zero_iff.ne]
  refine ⟨fun visited => ⟨fun h => ?_, ?_⟩, ?_, fun some_ deep other start => resolve_deep some_ deep,
    fun some_ depth none => ?_, fun messages h => ?_, ?_⟩
  · obtain ⟨-, eq⟩ | ⟨-, -, eq⟩ | ⟨admitted, hops, furthest, walk, eq⟩ | ⟨-, _, _, _, _, _, -, -, -, eq⟩ := cases'
    · cases h.symm.trans eq
    · cases h.symm.trans eq
    · exact ⟨admitted.some_, admitted.depth, hops, furthest, walk, Except.ok.inj (h.symm.trans eq)⟩
    · cases h.symm.trans eq
  · rintro ⟨some_, depth, hops, furthest, walk, rfl⟩
    rw [resolve_shallow _ some_ depth, walk_eq walk declared]
  · rintro rfl
    rfl
  · obtain ⟨eq, -⟩ | ⟨-, deep, -⟩ | ⟨-, hops, furthest, walk, -⟩ | ⟨-, stops⟩ := cases'
    · exact absurd eq some_
    · omega
    · exact absurd ⟨hops, furthest, walk⟩ none
    · exact stops
  · obtain ⟨-, eq⟩ | ⟨-, -, eq⟩ | ⟨-, _, _, -, eq⟩ | ⟨-, _, _, _, _, _, -, -, -, eq⟩ := cases' <;> cases h.symm.trans eq
  · rintro front rest givenFront givenRest rfl some_ more depth givesFront givesRest
    simp only [resolveGiven_eq givesFront, resolveGiven_eq givesRest]
    exact resolve_append root.name some_ more depth

end Path

namespace Staff

def graph : Value := .ofFields [("entities", .ofFields [("Person", .ofFields [("relations", .ofFields [
  ("boss", .ofFields [("kind", .text "belongsTo"), ("target", .text "Person"), ("foreign_key", .text "boss_id")])])])])]

def boss : Relation := ⟨"boss", .belongsTo, "Person", .text "boss_id"⟩

def person : Entity := ⟨"Person", .text "id", [], [boss]⟩

def schema : Schema := ⟨.int 1, [person]⟩

/-- The hop from a person to their boss. -/
def hop : Hop := ⟨person, boss, person⟩

end Staff

/-- A relation that leads back to where it comes from is walked as often as is allowed. -/
theorem Path.resolves_boss :
    resolveGiven Staff.schema "Person" (.text "boss.boss") 2 = .ok [Staff.person, Staff.person] ∧
    resolveGiven Staff.schema "Person" (.text "boss.boss") 1 = .error (.pathTooDeep "boss.boss" 1) := by
  have document : Staff.graph.isDocument = true := by decide
  have accepted : Schema.ofValue Staff.graph = .ok Staff.schema := rfl
  have declared : Staff.schema.find? Staff.person.name = some Staff.person := rfl
  have gives : Gives (.text "boss.boss") ["boss", "boss"] := gives_text "boss.boss"
  have walk : Staff.schema.Walks Staff.person ["boss", "boss"] [Staff.hop, Staff.hop] Staff.person :=
    .step rfl (.step rfl (.done _))
  obtain ⟨resolved, -⟩ := resolves_walks document accepted declared gives 2
  obtain ⟨-, -, deep, -⟩ := resolves_walks document accepted declared gives 1
  exact ⟨(resolved _).2 ⟨by decide, by decide, _, _, walk, rfl⟩, deep (by decide) (by decide) _ _⟩

end Semijoin
