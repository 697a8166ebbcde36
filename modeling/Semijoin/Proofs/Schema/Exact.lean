import Semijoin.Proofs.Schema.Rules

/-!
# A check finds exactly the broken rules

Of a graph document whose kinds and targets are scalars, the violations collected are those of the rules that it
breaks. A document without violations declares a schema, entity by entity and relation by relation.
-/

namespace Semijoin
set_option autoImplicit false

namespace Schema

theorem ofName?_eq_some {s : String} {k : RelationKind} : RelationKind.ofName? s = some k ↔ s = k.name := by
  constructor
  · intro found
    have named : k.name = s := by simpa using List.find?_some found
    exact named.symm
  · rintro rfl
    exact RelationKind.ofName?_name k

theorem kindOf?_eq_some {s : Scalar} {k : RelationKind} : kindOf? s = some k ↔ s = .text k.name := by
  cases s <;> simp [kindOf?, ofName?_eq_some]

/-- A graph document whose relations have scalars as kinds and targets, and whose entities have lists of fields. -/
structure Plain (graph : Value) : Prop where
  document : graph.isDocument = true
  mapping : graph.isMap = true
  scalars : ∀ i name doc, graph.EntryAt "entities" i name doc → ∀ j relation rel,
    doc.EntryAt "relations" j relation rel → ∀ v, rel.get? "kind" = some v ∨ rel.get? "target" = some v →
      ∃ k, v = .scalar k
  fields : ∀ i name doc, graph.EntryAt "entities" i name doc → ∀ v, doc.get? "fields" = some v → v.isList = true

/-- The entities among entries, by name. -/
def Among (entities : List (Scalar × Value)) (name : String) : Prop :=
  ∃ (i : Nat) (doc : Value), entities[i]? = some (.text name, doc)

section Relation

variable {entities : List (Scalar × Value)} {rel : Value} {kind target : Scalar}

/-- A name that is found stands among the entities. -/
theorem find?_isSome_iff (document : Value.DocumentEntries entities) {k : Scalar} :
    (Entries.find? k entities).isSome = true ↔ ∃ s, k = .text s ∧ Among entities s := by
  constructor
  · intro found
    obtain ⟨doc, eq⟩ := Option.isSome_iff_exists.1 found
    obtain ⟨name, mem, same⟩ := Entries.mem_of_find? eq
    obtain ⟨s, doc, eq⟩ := document.exists_text mem
    cases eq
    obtain rfl : k = .text s := by simpa [Scalar.same_comm _ k, Scalar.same_text] using same
    obtain ⟨i, at_⟩ := List.mem_iff_getElem?.1 mem
    exact ⟨s, rfl, i, doc, at_⟩
  · rintro ⟨s, rfl, i, doc, at_⟩
    by_contra none
    have apart := Entries.forall_of_find?_eq_none (by simpa using none) _ (List.mem_of_getElem? at_)
    simp [Scalar.same_text] at apart

/-- What is wrong with a kind. -/
def kindProblem (kind : Scalar) : Option String :=
  if (kindOf? kind).isSome then none
  else some ("Invalid kind '" ++ (Value.scalar kind).shown ++ "', must be one of " ++ kindNames)

/-- What is wrong with a target that is a scalar. -/
def scalarProblem (entities : List (Scalar × Value)) (target : Scalar) : Option String :=
  if (Value.scalar target).truthy = false then some "Missing target"
  else if (Entries.find? target entities).isSome then none
  else some ("Unknown target entity '" ++ (Value.scalar target).shown ++ "'")

/-- What is wrong with a foreign key. -/
def keyProblem (key : Value) : Option String := if key.truthy then none else some "Missing foreign_key"

theorem targetProblem_scalar : targetProblem? entities (.scalar target) = .ok (scalarProblem entities target) := by
  unfold targetProblem? scalarProblem
  cases given : (Value.scalar target).truthy with
  | false => rfl
  | true =>
    show (if (Entries.find? target entities).isSome = true then (return none : Except Fault (Option String)) else _) = _
    cases (Entries.find? target entities).isSome <;> rfl

/-- The violations of a relation of scalars, one rule after another. -/
theorem relationViolations_scalars (mapping : rel.isMap = true) (isKind : (rel.get? "kind").getD .null = .scalar kind)
    (isTarget : (rel.get? "target").getD .null = .scalar target) (owner name : String) :
    relationViolations entities owner name rel = .ok
      (((kindProblem kind).toList.map (⟨some owner, some name, ·⟩) ++
        (scalarProblem entities target).toList.map (⟨some owner, some name, ·⟩)) ++
        (keyProblem ((rel.get? "foreign_key").getD .null)).toList.map (⟨some owner, some name, ·⟩)) := by
  unfold relationViolations kindProblem keyProblem
  rw [isKind, isTarget, mapping]
  simp only [targetProblem_scalar, Value.asKey, bind, Except.bind, pure, Except.pure, Bool.not_true, Bool.false_eq_true,
    if_false]
  cases kindOf? kind <;> cases ((rel.get? "foreign_key").getD .null).truthy <;> rfl

variable {isEntity : String → Prop}

/-- What is written under a name is a text if it is that as a key. -/
theorem get?_eq_text_iff {v : Value} {name : String} {k : Scalar} (isKey : (v.get? name).getD .null = .scalar k)
    (s : String) : v.get? name = some (.text s) ↔ k = .text s := by
  cases found : v.get? name with
  | none =>
    rw [found] at isKey
    cases isKey
    simp
  | some w =>
    rw [found] at isKey
    cases isKey
    simp

theorem breaks_kind_iff (mapping : rel.isMap = true) (isKind : (rel.get? "kind").getD .null = .scalar kind)
    (message : String) : RelationBreaks isEntity rel [0] message ↔ kindProblem kind = some message := by
  have known (k : RelationKind) : rel.get? "kind" = some (.text k.name) ↔ kindOf? kind = some k := by
    rw [get?_eq_text_iff isKind, kindOf?_eq_some]
  unfold kindProblem
  constructor
  · intro breaks
    cases breaks with
    | kind _ unknown =>
      have none : kindOf? kind = none := Option.eq_none_iff_forall_ne_some.2 fun k eq => unknown k ((known k).2 eq)
      rw [none, isKind]
      rfl
  · intro problem
    split at problem
    · cases problem
    · rename_i none
      cases problem
      rw [← isKind]
      exact .kind mapping fun k eq => none (by rw [(known k).1 eq]; rfl)

theorem breaks_target_iff (mapping : rel.isMap = true) (isTarget : (rel.get? "target").getD .null = .scalar target)
    (document : Value.DocumentEntries entities) (message : String) :
    RelationBreaks (Among entities) rel [1] message ↔ scalarProblem entities target = some message := by
  have declared : (Entries.find? target entities).isSome = true ↔
      ∃ s, rel.get? "target" = some (.text s) ∧ Among entities s := by
    rw [find?_isSome_iff document]
    exact exists_congr fun s => and_congr_left fun _ => (get?_eq_text_iff isTarget s).symm
  unfold scalarProblem
  constructor
  · intro breaks
    cases breaks with
    | noTarget _ missing =>
      rw [isTarget] at missing
      rw [if_pos missing]
    | target _ given undeclared =>
      rw [isTarget] at given ⊢
      have notFound : ¬ (Entries.find? target entities).isSome = true := fun found => by
        obtain ⟨s, eq, entity⟩ := declared.1 found
        exact undeclared s eq entity
      rw [if_neg (by simp [given]), if_neg notFound]
  · intro problem
    split at problem
    · rename_i missing
      cases problem
      exact .noTarget mapping (by rw [isTarget, missing])
    · rename_i given
      split at problem
      · cases problem
      · rename_i notFound
        cases problem
        rw [← isTarget]
        refine .target mapping (by rw [isTarget]; simpa using given) fun s eq entity => notFound ?_
        exact declared.2 ⟨s, eq, entity⟩

theorem breaks_key_iff (mapping : rel.isMap = true) (message : String) :
    RelationBreaks isEntity rel [2] message ↔
      keyProblem ((rel.get? "foreign_key").getD .null) = some message := by
  unfold keyProblem
  constructor
  · intro breaks
    cases breaks with
    | foreignKey _ missing => simp [missing]
  · intro problem
    split at problem
    · cases problem
    · rename_i missing
      cases problem
      exact .foreignKey mapping (by simpa using missing)

/-- What is no mapping breaks no other rule. -/
theorem breaks_of_not_mapping (bad : rel.isMap = false) {place : List Nat} {message : String} :
    RelationBreaks isEntity rel place message ↔ place = [] ∧ message = "Relation definition must be a mapping" := by
  constructor
  · intro breaks
    cases breaks with
    | notMapping => exact ⟨rfl, rfl⟩
    | _ => simp_all
  · rintro ⟨rfl, rfl⟩
    exact .notMapping bad

/-- A mapping may break the three rules for its parts. -/
theorem breaks_of_mapping (mapping : rel.isMap = true) {place : List Nat} {message : String}
    (breaks : RelationBreaks isEntity rel place message) : (place = [0] ∨ place = [1]) ∨ place = [2] := by
  cases breaks with
  | notMapping bad => simp [mapping] at bad
  | kind => exact .inl (.inl rfl)
  | noTarget => exact .inl (.inr rfl)
  | target => exact .inl (.inr rfl)
  | foreignKey => exact .inr rfl

/-- A problem at a place, if there is one. -/
theorem exactly_problem {α : Type} {there : List Nat → String → Prop} {problem : Option String} {place : List Nat}
    (iff : ∀ message, there place message ↔ problem = some message) (violation : String → α) :
    Exactly (fun p v => p = place ∧ ∃ message, there p message ∧ v = violation message)
      (problem.toList.map violation) := by
  cases problem with
  | none =>
    refine .nothing ?_
    rintro p v ⟨rfl, message, held, -⟩
    cases (iff message).1 held
  | some message =>
    have only (other : String) : there place other ↔ other = message := by simp [iff, eq_comm]
    refine .one place fun p v => and_congr_right ?_
    rintro rfl
    simp only [only, exists_eq_left]

/-- **The violations of a relation** are those of the rules that it breaks. -/
theorem relationViolations_exact (document : Value.DocumentEntries entities)
    (scalars : ∀ v, rel.get? "kind" = some v ∨ rel.get? "target" = some v → ∃ k, v = .scalar k)
    (owner name : String) :
    ∃ found, relationViolations entities owner name rel = .ok found ∧
      Exactly (fun p v => ∃ message, RelationBreaks (Among entities) rel p message ∧
        v = ⟨some owner, some name, message⟩) found := by
  have scalar {key : String} (given : ∀ v, rel.get? key = some v → ∃ k, v = .scalar k) :
      ∃ k, (rel.get? key).getD .null = .scalar k := by
    cases found : rel.get? key with
    | none => exact ⟨.null, rfl⟩
    | some v => exact given v found
  cases mapping : rel.isMap with
  | false =>
    refine ⟨_, by rw [relationViolations, mapping]; rfl, .one [] fun p v => ?_⟩
    simp only [breaks_of_not_mapping mapping, and_assoc, exists_and_left, exists_eq_left]
  | true =>
    obtain ⟨kind, isKind⟩ := scalar fun v given => scalars v (.inl given)
    obtain ⟨target, isTarget⟩ := scalar fun v given => scalars v (.inr given)
    refine ⟨_, relationViolations_scalars mapping isKind isTarget owner name, ?_⟩
    have rule {place : List Nat} {problem : Option String}
        (iff : ∀ message, RelationBreaks (Among entities) rel place message ↔ problem = some message) :=
      exactly_problem iff (Violation.mk (some owner) (some name))
    have kinds := rule (breaks_kind_iff mapping isKind)
    have targets := rule (breaks_target_iff mapping isTarget document)
    have keys := rule (breaks_key_iff mapping)
    refine ((kinds.append targets ?_).append keys ?_).congr fun p v => ?_
    · rintro p v p' v' ⟨rfl, -⟩ ⟨rfl, -⟩
      decide
    · rintro p v p' v' (⟨rfl, -⟩ | ⟨rfl, -⟩) ⟨rfl, -⟩ <;> decide
    · rw [← or_and_right, ← or_and_right, and_iff_right_iff_imp]
      rintro ⟨message, breaks, -⟩
      exact breaks_of_mapping mapping breaks

end Relation

section Entity

variable {entities : List (Scalar × Value)} {doc : Value}

/-- The violations of relations are those of each, one relation after another. -/
theorem relationsViolations_exact (document : Value.DocumentEntries entities) {relations : List (Scalar × Value)}
    (declared : Value.DocumentEntries relations)
    (scalars : ∀ r ∈ relations, ∀ v, r.2.get? "kind" = some v ∨ r.2.get? "target" = some v → ∃ k, v = .scalar k)
    (owner : String) : ∃ found, relationsViolations entities owner relations = .ok found ∧
      Exactly (fun p v => ∃ j name rel q message, relations[j]? = some (.text name, rel) ∧ p = j :: q ∧
        RelationBreaks (Among entities) rel q message ∧ v = ⟨some owner, some name, message⟩) found := by
  obtain ⟨found, collected, exact_⟩ := Exactly.collected (rfl : relationsViolations entities owner [] = .ok [])
    (fun _ _ => rfl) (fun r mem => relationViolations_exact document (scalars r mem) owner r.1.shown) 0
  refine ⟨found, collected, exact_.congr fun p v => ?_⟩
  constructor
  · rintro ⟨j, r, q, at_, rfl, message, breaks, rfl⟩
    obtain ⟨name, rel, rfl⟩ := declared.exists_text (List.mem_of_getElem? at_)
    exact ⟨j, name, rel, q, message, at_, by rw [Nat.zero_add], breaks, rfl⟩
  · rintro ⟨j, name, rel, q, message, at_, rfl, breaks, rfl⟩
    exact ⟨j, (.text name, rel), q, at_, by rw [Nat.zero_add], message, breaks, rfl⟩

section EntityBreaks

variable {isEntity : String → Prop} {place : List Nat} {relation : Option String} {message : String}

theorem entityBreaks_of_not_mapping (bad : doc.isMap = false) : EntityBreaks isEntity doc place relation message ↔
    place = [] ∧ relation = none ∧ message = "Entity definition must be a mapping" := by
  have unread (key : String) : doc.get? key = none := by
    cases doc with
    | map entries => cases bad
    | _ => rfl
  constructor
  · intro breaks
    cases breaks with
    | notMapping => exact ⟨rfl, rfl, rfl⟩
    | relations given =>
      rw [unread] at given
      cases given
    | relation declared => exact absurd declared (Value.not_entryAt (by simp [unread]))
  · rintro ⟨rfl, rfl, rfl⟩
    exact .notMapping bad

theorem not_entityBreaks (mapping : doc.isMap = true) (none : doc.get? "relations" = none) :
    ¬ EntityBreaks isEntity doc place relation message := by
  intro breaks
  cases breaks with
  | notMapping bad => simp [mapping] at bad
  | relations given =>
    rw [none] at given
    cases given
  | relation declared => exact absurd declared (Value.not_entryAt (by simp [none]))

theorem entityBreaks_of_bad_relations (mapping : doc.isMap = true) {v : Value} (given : doc.get? "relations" = some v)
    (bad : v.isMap = false) : EntityBreaks isEntity doc place relation message ↔
      place = [] ∧ relation = none ∧ message = "'relations' must be a mapping" := by
  constructor
  · intro breaks
    cases breaks with
    | notMapping bad => simp [mapping] at bad
    | relations => exact ⟨rfl, rfl, rfl⟩
    | relation declared =>
      refine absurd declared (Value.not_entryAt fun entries some_ => ?_)
      rw [given] at some_
      cases some_
      cases bad
  · rintro ⟨rfl, rfl, rfl⟩
    exact .relations given bad

theorem entityBreaks_of_relations (mapping : doc.isMap = true) {relations : List (Scalar × Value)}
    (given : doc.get? "relations" = some (.map relations)) : EntityBreaks isEntity doc place relation message ↔
      ∃ j name rel q, relations[j]? = some (.text name, rel) ∧ place = j :: q ∧ relation = some name ∧
        RelationBreaks isEntity rel q message := by
  constructor
  · intro breaks
    cases breaks with
    | notMapping bad => simp [mapping] at bad
    | relations some_ bad =>
      rw [given] at some_
      cases some_
      cases bad
    | relation declared breaks => exact ⟨_, _, _, _, (Value.entryAt_iff given).1 declared, rfl, rfl, breaks⟩
  · rintro ⟨j, name, rel, q, at_, rfl, rfl, breaks⟩
    exact .relation ((Value.entryAt_iff given).2 at_) breaks

end EntityBreaks

/-- One rule that is broken at the entity itself. -/
theorem exactly_entity {isEntity : String → Prop} {name text : String}
    (iff : ∀ place relation message, EntityBreaks isEntity doc place relation message ↔
      place = [] ∧ relation = none ∧ message = text) :
    Exactly (fun p v => ∃ relation message, EntityBreaks isEntity doc p relation message ∧
      v = (⟨some name, relation, message⟩ : Violation)) [⟨some name, none, text⟩] := by
  refine .one [] fun p v => ?_
  simp only [iff, and_assoc, exists_and_left, exists_eq_left]

/-- **The violations of an entity** are those of the rules that it and its relations break. -/
theorem entityViolations_exact (document : Value.DocumentEntries entities) (isDocument : doc.isDocument = true)
    (scalars : ∀ j relation rel, doc.EntryAt "relations" j relation rel →
      ∀ v, rel.get? "kind" = some v ∨ rel.get? "target" = some v → ∃ k, v = .scalar k) (name : String) :
    ∃ found, entityViolations entities name doc = .ok found ∧
      Exactly (fun p v => ∃ relation message, EntityBreaks (Among entities) doc p relation message ∧
        v = ⟨some name, relation, message⟩) found := by
  cases mapping : doc.isMap with
  | false =>
    exact ⟨_, by rw [entityViolations, mapping]; rfl,
      exactly_entity fun _ _ _ => entityBreaks_of_not_mapping mapping⟩
  | true =>
    have checked {relations : List (Scalar × Value)} (eq : relationsOf doc = .map relations) :
        entityViolations entities name doc = relationsViolations entities name relations := by
      rw [entityViolations, mapping, eq]
      rfl
    cases given : doc.get? "relations" with
    | none =>
      have empty : relationsOf doc = .map [] := by rw [relationsOf, given]; rfl
      refine ⟨[], checked empty, .nothing ?_⟩
      rintro p v ⟨relation, message, breaks, -⟩
      exact not_entityBreaks mapping given breaks
    | some v =>
      cases isMap : v.isMap with
      | false =>
        have refused :
            entityViolations entities name doc = .ok [⟨some name, none, "'relations' must be a mapping"⟩] := by
          rw [entityViolations, mapping, relationsOf, given]
          cases v with
          | map entries => cases isMap
          | _ => rfl
        exact ⟨_, refused, exactly_entity fun _ _ _ => entityBreaks_of_bad_relations mapping given isMap⟩
      | true =>
        obtain ⟨relations, rfl⟩ := Value.isMap_iff.1 isMap
        have declared := Value.isDocument_map.1 (Value.isDocument_get? isDocument given)
        have each : ∀ r ∈ relations, ∀ v, r.2.get? "kind" = some v ∨ r.2.get? "target" = some v →
            ∃ k, v = .scalar k := by
          intro r mem
          obtain ⟨j, name, rel, rfl, at_⟩ := Value.exists_entryAt isDocument given mem
          exact scalars j name rel at_
        obtain ⟨found, collected, exact_⟩ := relationsViolations_exact document declared each name
        refine ⟨found, by rw [checked (by rw [relationsOf, given]; rfl), collected], exact_.congr fun p v => ?_⟩
        simp only [entityBreaks_of_relations mapping given]
        constructor
        · rintro ⟨j, relation, rel, q, message, at_, rfl, breaks, rfl⟩
          exact ⟨_, _, ⟨j, relation, rel, q, at_, rfl, rfl, breaks⟩, rfl⟩
        · rintro ⟨_, message, ⟨j, relation, rel, q, at_, rfl, rfl, breaks⟩, rfl⟩
          exact ⟨j, relation, rel, q, message, at_, rfl, breaks, rfl⟩

end Entity

section Graph

variable {graph : Value} {entities : List (Scalar × Value)}

theorem isEntity_eq (given : graph.get? "entities" = some (.map entities)) : IsEntity graph = Among entities := by
  funext name
  exact propext (exists₂_congr fun i doc => Value.entryAt_iff given)

/-- **The violations of a graph document** are those of the rules that it breaks. -/
theorem entitiesViolations_exact (isDocument : graph.isDocument = true)
    (scalars : ∀ i name doc, graph.EntryAt "entities" i name doc → ∀ j relation rel,
      doc.EntryAt "relations" j relation rel → ∀ v, rel.get? "kind" = some v ∨ rel.get? "target" = some v →
        ∃ k, v = .scalar k) (given : graph.get? "entities" = some (.map entities)) :
    ∃ found, entitiesViolations entities entities = .ok found ∧ Exactly (Breaks graph) found := by
  have document := Value.isDocument_map.1 (Value.isDocument_get? isDocument given)
  have each : ∀ e ∈ entities, ∃ found, entityViolations entities e.1.shown e.2 = .ok found ∧
      Exactly (fun p v => ∃ relation message, EntityBreaks (Among entities) e.2 p relation message ∧
        v = ⟨some e.1.shown, relation, message⟩) found := by
    intro e mem
    obtain ⟨i, name, doc, rfl, declared⟩ := Value.exists_entryAt isDocument given mem
    exact entityViolations_exact document (document.below _ mem) (scalars i name doc declared) name
  obtain ⟨found, collected, exact_⟩ :=
    Exactly.collected (rfl : entitiesViolations entities [] = .ok []) (fun _ _ => rfl) each 0
  refine ⟨found, collected, exact_.congr fun p v => ?_⟩
  constructor
  · rintro ⟨i, e, q, at_, rfl, relation, message, breaks, rfl⟩
    obtain ⟨name, doc, rfl⟩ := document.exists_text (List.mem_of_getElem? at_)
    rw [Nat.zero_add]
    exact .entity ((Value.entryAt_iff given).2 at_) (isEntity_eq given ▸ breaks)
  · intro breaks
    cases breaks with
    | entities bad => exact absurd given (bad entities)
    | entity declared breaks =>
      rw [isEntity_eq given] at breaks
      exact ⟨_, _, _, (Value.entryAt_iff given).1 declared, by rw [Nat.zero_add], _, _, breaks, rfl⟩

end Graph

section Told

/-- Each name stands once in a mapping. -/
theorem entryAt_once {v : Value} (document : v.isDocument = true) {under name : String} {i i' : Nat}
    {part part' : Value}
    (h : v.EntryAt under i name part) (h' : v.EntryAt under i' name part') : i = i' ∧ part = part' := by
  obtain ⟨entries, given, at_⟩ := h
  obtain ⟨entries', given', at_'⟩ := h'
  rw [given] at given'
  cases given'
  have once := (Value.isDocument_map.1 (Value.isDocument_get? document given)).once
  have key : (entries.map (·.1))[i]? = some (.text name) := by rw [List.getElem?_map, at_]; rfl
  have key' : (entries.map (·.1))[i']? = some (.text name) := by rw [List.getElem?_map, at_']; rfl
  obtain ⟨bound, -⟩ := List.getElem?_eq_some_iff.1 key
  obtain rfl : i = i' := (List.getElem?_inj bound once).1 (key.trans key'.symm)
  rw [at_] at at_'
  cases at_'
  exact ⟨rfl, rfl⟩

/-- The wording of a broken rule tells its number: the ninth character is another for each. -/
theorem RelationBreaks.told {isEntity : String → Prop} {rel : Value} {place place' : List Nat} {message : String}
    (breaks : RelationBreaks isEntity rel place message) (breaks' : RelationBreaks isEntity rel place' message) :
    place = place' := by
  have mark {place : List Nat} (breaks : RelationBreaks isEntity rel place message) :
      message.toList[8]? = some ' ' ∧ place = [] ∨ message.toList[8]? = some 'k' ∧ place = [0] ∨
        message.toList[8]? = some 't' ∧ place = [1] ∨ message.toList[8]? = some 'f' ∧ place = [2] := by
    cases breaks with
    | notMapping => exact .inl ⟨rfl, rfl⟩
    | kind => exact .inr (.inl ⟨by simp only [String.toList_append]; rfl, rfl⟩)
    | noTarget => exact .inr (.inr (.inl ⟨rfl, rfl⟩))
    | target => exact .inr (.inr (.inl ⟨by simp only [String.toList_append]; rfl, rfl⟩))
    | foreignKey => exact .inr (.inr (.inr ⟨rfl, rfl⟩))
  rcases mark breaks with ⟨here, rfl⟩ | ⟨here, rfl⟩ | ⟨here, rfl⟩ | ⟨here, rfl⟩ <;>
    rcases mark breaks' with ⟨there, rfl⟩ | ⟨there, rfl⟩ | ⟨there, rfl⟩ | ⟨there, rfl⟩ <;>
    first
      | rfl
      | exact absurd (here.symm.trans there) (by decide)

theorem EntityBreaks.told {isEntity : String → Prop} {doc : Value} (document : doc.isDocument = true)
    {place place' : List Nat} {relation : Option String} {message : String}
    (breaks : EntityBreaks isEntity doc place relation message)
    (breaks' : EntityBreaks isEntity doc place' relation message) : place = place' := by
  cases relation with
  | none =>
    have whole {place : List Nat} (breaks : EntityBreaks isEntity doc place none message) : place = [] := by
      cases breaks <;> rfl
    rw [whole breaks, whole breaks']
  | some name =>
    cases breaks with
    | relation declared broken =>
      cases breaks' with
      | relation declared' broken' =>
        obtain ⟨rfl, rfl⟩ := entryAt_once document declared declared'
        rw [broken.told broken']

/-- A violation tells the place where a document breaks a rule. -/
theorem Breaks.told {graph : Value} (document : graph.isDocument = true) {place place' : List Nat}
    {violation : Violation} (breaks : Breaks graph place violation) (breaks' : Breaks graph place' violation) :
    place = place' := by
  cases breaks with
  | entities =>
    cases breaks'
    rfl
  | entity declared broken =>
    cases breaks' with
    | entity declared' broken' =>
      obtain ⟨rfl, rfl⟩ := entryAt_once document declared declared'
      obtain ⟨entries, given, at_⟩ := declared
      have below := (Value.isDocument_map.1 (Value.isDocument_get? document given)).below _ (List.mem_of_getElem? at_)
      rw [broken.told below broken']

end Told

end Schema

end Semijoin
