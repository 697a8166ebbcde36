import Semijoin.Proofs.Place
import Semijoin.Proofs.Schema.Turns

/-!
# Faults of a check

A check of a graph document gives a result, and a declaration a schema or its violations, unless the document holds a
value that the check can not handle: a list or a mapping as a kind or a target, which can not be looked up, or, in a
document that breaks no rule, fields that can not be iterated. Then the first such value is the fault.
-/

namespace Semijoin
set_option autoImplicit false

namespace Schema

/-- A kind or a target that can not be looked up, the kind at 0 and the target at 1. -/
inductive RelationUnreadable (rel : Value) : List Nat → Fault → Prop
  | kind {v : Value} (given : rel.get? "kind" = some v) (composite : v.asKey? = none) :
      RelationUnreadable rel [0] (.unhashable v.kind)
  | target {v : Value} (given : rel.get? "target" = some v) (some_ : v.truthy = true) (composite : v.asKey? = none) :
      RelationUnreadable rel [1] (.unhashable v.kind)

/-- A kind or a target in a graph document that can not be looked up, by the numbers of its entity and its relation. -/
inductive Unreadable (graph : Value) : List Nat → Fault → Prop
  | relation {i j : Nat} {name relation : String} {doc rel : Value} {place : List Nat} {f : Fault}
      (declared : graph.EntryAt "entities" i name doc) (related : doc.EntryAt "relations" j relation rel)
      (unreadable : RelationUnreadable rel place f) : Unreadable graph (i :: j :: place) f

/-- Fields in a graph document that can not be iterated, by the number of their entity. -/
inductive Unlisted (graph : Value) : List Nat → Fault → Prop
  | fields {i : Nat} {name : String} {doc : Value} {s : Scalar} (declared : graph.EntryAt "entities" i name doc)
      (given : doc.get? "fields" = some (.scalar s)) (single : s.kind ≠ .text) :
      Unlisted graph [i] (.notIterable s.kind)

/-- The fault that ends the check of a graph document: that of the first value that can not be looked up, or else, if no
rule is broken, that of the first fields that can not be iterated. -/
def Faulty (graph : Value) (f : Fault) : Prop :=
  First (Unreadable graph) f ∨
    (∀ place f', ¬ Unreadable graph place f') ∧ Lawful graph ∧ First (Unlisted graph) f

section Relation

variable {entities : List (Scalar × Value)} {rel : Value}

theorem asKey_of_composite {v : Value} (composite : v.asKey? = none) : v.asKey = .error (.unhashable v.kind) := by
  cases v <;> first | rfl | cases composite

/-- A value that is read as null where it is missing can be looked up unless it is there and composite. -/
theorem asKey_fails (key : String) (n : Nat) : FailsAtFirst
    (fun p f => ∃ v, rel.get? key = some v ∧ v.asKey? = none ∧ p = [n] ∧ f = .unhashable v.kind)
    ((rel.get? key).getD .null).asKey := by
  cases given : rel.get? key with
  | none => exact .nothing Scalar.null (by simp)
  | some v =>
    cases composite : v.asKey? with
    | none =>
      rw [Option.getD_some, asKey_of_composite composite]
      exact .one [n] fun p f => by simp [composite]
    | some s =>
      rw [Option.getD_some, Value.eq_of_asKey? composite]
      exact .nothing s (by simp [Value.asKey?])

theorem targetProblem_fails : FailsAtFirst
    (fun p f => ∃ v, rel.get? "target" = some v ∧ v.truthy = true ∧ v.asKey? = none ∧ p = [1] ∧ f = .unhashable v.kind)
    (targetProblem? entities ((rel.get? "target").getD .null)) := by
  unfold targetProblem?
  cases some_ : ((rel.get? "target").getD .null).truthy with
  | false =>
    refine .nothing (some "Missing target") ?_
    rintro p f ⟨v, given, some', -⟩
    simp [given, some'] at some_
  | true =>
    refine ((asKey_fails "target" 1).bind_total fun key => ?_).congr fun p f => ?_
    · show ∃ problem, (if (Entries.find? key entities).isSome = true then (return none : Except Fault (Option String))
        else _) = .ok problem
      split <;> exact ⟨_, rfl⟩
    · refine exists_congr fun v => and_congr_right fun given => ?_
      rw [given, Option.getD_some] at some_
      simp [some_]

/-- The check of a relation stops at its kind, and then at its target. -/
theorem relationViolations_fails (owner name : String) :
    FailsAtFirst (RelationUnreadable rel) (relationViolations entities owner name rel) := by
  unfold relationViolations
  cases mapping : rel.isMap with
  | false =>
    have unread (key : String) : rel.get? key = none := by
      cases rel with
      | map entries => cases mapping
      | _ => rfl
    refine .nothing _ fun p f unreadable => ?_
    cases unreadable <;> simp [unread] at *
  | true =>
    refine ((asKey_fails "kind" 0).bind (fun _ => targetProblem_fails.map _) ?_).congr fun p f => ?_
    · rintro p f p' f' ⟨_, -, -, rfl, -⟩ ⟨_, -, -, -, rfl, -⟩
      decide
    · constructor
      · rintro (⟨v, given, composite, rfl, rfl⟩ | ⟨v, given, some_, composite, rfl, rfl⟩)
        · exact .kind given composite
        · exact .target given some_ composite
      · intro unreadable
        cases unreadable with
        | kind given composite => exact .inl ⟨_, given, composite, rfl, rfl⟩
        | target given some_ composite => exact .inr ⟨_, given, some_, composite, rfl, rfl⟩

end Relation

section Entity

variable {doc : Value}

theorem entryAt_relations {j : Nat} {relation : String} {rel : Value} : doc.EntryAt "relations" j relation rel ↔
    ∃ relations, relationsOf doc = .map relations ∧ relations[j]? = some (.text relation, rel) := by
  unfold relationsOf
  cases given : doc.get? "relations" with
  | none => exact iff_of_false (Value.not_entryAt (by simp [given])) (by simp)
  | some v =>
    refine exists_congr fun relations => and_congr_left fun _ => ?_
    rw [given, Option.getD_some, Option.some_inj]

/-- The check of an entity stops at its first relation that can not be read. -/
theorem entityViolations_fails (entities : List (Scalar × Value)) (document : doc.isDocument = true) (name : String) :
    FailsAtFirst
      (fun p f => ∃ j relation rel q, doc.EntryAt "relations" j relation rel ∧ p = j :: q ∧ RelationUnreadable rel q f)
      (entityViolations entities name doc) := by
  unfold entityViolations
  cases mapping : doc.isMap with
  | false =>
    have unread : doc.get? "relations" = none := by
      cases doc with
      | map entries => cases mapping
      | _ => rfl
    refine .nothing _ ?_
    rintro p f ⟨j, relation, rel, q, related, -⟩
    exact Value.not_entryAt (by simp [unread]) related
  | true =>
    cases held : relationsOf doc with
    | map relations =>
      have declared : Value.DocumentEntries relations := Value.isDocument_map.1 (isDocument_relationsOf document held)
      refine (FailsAtFirst.collected (relationsViolations entities name) (· ++ ·) rfl (fun _ _ => rfl)
        (fun r _ => relationViolations_fails name r.1.shown) 0).congr fun p f => ?_
      simp only [entryAt_relations, held, Nat.zero_add]
      constructor
      · rintro ⟨j, r, q, at_, rfl, unreadable⟩
        obtain ⟨relation, rel, rfl⟩ := declared.exists_text (List.mem_of_getElem? at_)
        exact ⟨j, relation, rel, q, ⟨relations, rfl, at_⟩, rfl, unreadable⟩
      · rintro ⟨j, relation, rel, q, ⟨_, eq, at_⟩, rfl, unreadable⟩
        cases eq
        exact ⟨j, _, q, at_, rfl, unreadable⟩
    | _ =>
      refine .nothing _ ?_
      rintro p f ⟨j, relation, rel, q, related, -⟩
      obtain ⟨relations, eq, -⟩ := entryAt_relations.1 related
      simp [held] at eq

/-- What a document holds can be iterated unless it is a scalar other than a text. -/
theorem iterate_fails {v : Value} (document : v.isDocument = true) : FailsAtFirst
    (fun p f => p = [] ∧ ∃ s : Scalar, v = .scalar s ∧ s.kind ≠ .text ∧ f = .notIterable s.kind) v.iterate := by
  have single {s : Scalar} (other : s.kind ≠ .text) (fails : (Value.scalar s).iterate = .error (.notIterable s.kind)) :
      FailsAtFirst (fun p f => p = [] ∧ ∃ s' : Scalar, Value.scalar s = .scalar s' ∧ s'.kind ≠ .text ∧
        f = .notIterable s'.kind) (Value.scalar s).iterate := by
    rw [fails]
    exact .one [] fun p f => by simp [other]
  cases v with
  | scalar s =>
    cases s with
    | text s => exact .nothing _ (by simp [Scalar.kind])
    | _ => exact single (by simp [Scalar.kind]) rfl
  | list items => exact .nothing items (by simp)
  | map entries => exact .nothing _ (by simp)
  | record fields => simp [Value.isDocument] at document

/-- An entity can be built unless its fields can not be iterated. -/
theorem buildEntity_fails (document : doc.isDocument = true) (name : String) : FailsAtFirst
    (fun p f => p = [] ∧ ∃ s : Scalar, doc.get? "fields" = some (.scalar s) ∧ s.kind ≠ .text ∧ f = .notIterable s.kind)
    (buildEntity name doc) := by
  unfold buildEntity
  cases given : doc.get? "fields" with
  | none => exact (FailsAtFirst.nothing ([] : List Value) (by simp)).map _
  | some v =>
    refine ((iterate_fails (Value.isDocument_get? document given)).map _).congr fun p f => ?_
    simp only [Option.some_inj]

end Entity

section Graph

variable {graph : Value} {entities : List (Scalar × Value)}

/-- The check of a graph document stops at the first relation that can not be read. -/
theorem entitiesViolations_fails (document : graph.isDocument = true)
    (given : graph.get? "entities" = some (.map entities)) :
    FailsAtFirst (Unreadable graph) (entitiesViolations entities entities) := by
  have declared := Value.isDocument_map.1 (Value.isDocument_get? document given)
  refine (FailsAtFirst.collected (entitiesViolations entities) (· ++ ·) rfl (fun _ _ => rfl)
    (fun e mem => entityViolations_fails entities (declared.below e mem) e.1.shown) 0).congr fun p f => ?_
  constructor
  · rintro ⟨i, e, q, at_, rfl, j, relation, rel, q, related, rfl, unreadable⟩
    obtain ⟨name, doc, rfl⟩ := declared.exists_text (List.mem_of_getElem? at_)
    rw [Nat.zero_add]
    exact .relation ((Value.entryAt_iff given).2 at_) related unreadable
  · intro unreadable
    cases unreadable with
    | relation entry related unreadable =>
      exact ⟨_, _, _, (Value.entryAt_iff given).1 entry, by rw [Nat.zero_add], _, _, _, _, related, rfl, unreadable⟩

/-- The entities of a graph document are built up to the first whose fields can not be iterated. -/
theorem buildEntities_fails (document : graph.isDocument = true)
    (given : graph.get? "entities" = some (.map entities)) :
    FailsAtFirst (Unlisted graph) (buildEntities entities) := by
  have declared := Value.isDocument_map.1 (Value.isDocument_get? document given)
  refine (FailsAtFirst.collected buildEntities List.cons rfl (fun _ _ => rfl)
    (fun e mem => buildEntity_fails (declared.below e mem) e.1.shown) 0).congr fun p f => ?_
  constructor
  · rintro ⟨i, e, q, at_, rfl, rfl, s, fields, single, rfl⟩
    obtain ⟨name, doc, rfl⟩ := declared.exists_text (List.mem_of_getElem? at_)
    rw [Nat.zero_add]
    exact .fields ((Value.entryAt_iff given).2 at_) fields single
  · intro unlisted
    cases unlisted with
    | fields entry fields single =>
      exact ⟨_, _, [], (Value.entryAt_iff given).1 entry, by rw [Nat.zero_add], rfl, _, fields, single, rfl⟩

/-- Where every kind and target can be looked up, no violations are collected exactly if no rule is broken. -/
theorem violations_eq_nil_iff (document : graph.isDocument = true)
    (given : graph.get? "entities" = some (.map entities)) (readable : ∀ place f, ¬ Unreadable graph place f)
    {found : List Violation} (collected : entitiesViolations entities entities = .ok found) :
    found = [] ↔ Lawful graph := by
  have of_scalars (scalars : ∀ i name doc, graph.EntryAt "entities" i name doc → ∀ j relation rel,
      doc.EntryAt "relations" j relation rel → ∀ v, rel.get? "kind" = some v ∨ rel.get? "target" = some v →
        ∃ k, v = .scalar k) : found = [] ↔ Lawful graph := by
    obtain ⟨found', eq, exact_⟩ := entitiesViolations_exact document scalars given
    obtain rfl : found = found' := Except.ok.inj (collected.symm.trans eq)
    exact exact_.eq_nil_iff.trans lawful_iff.symm
  constructor
  · rintro rfl
    refine (of_scalars fun i name doc declared j relation rel related v held => ?_).1 rfl
    rcases held with kind | target
    · cases key : v.asKey? with
      | none => exact absurd (.relation declared related (.kind kind key)) (readable _ _)
      | some s => exact ⟨s, Value.eq_of_asKey? key⟩
    · obtain ⟨relations, held, none⟩ := entityViolations_eq_nil
        (entitiesViolations_eq_nil collected _ (List.mem_of_getElem? ((Value.entryAt_iff given).1 declared)))
      obtain ⟨relations', held', at_⟩ := entryAt_relations.1 related
      rw [held] at held'
      cases held'
      obtain ⟨-, key, isKey, -⟩ :=
        relationViolations_eq_nil (relationsViolations_eq_nil none _ (List.mem_of_getElem? at_))
      rw [target] at isKey
      exact ⟨key, isKey⟩
  · intro lawful
    refine (of_scalars fun i name doc declared j relation rel related v held => ?_).2 lawful
    obtain ⟨-, ⟨kind, isKind⟩, ⟨target, isTarget, -⟩, -⟩ := lawful.relation i name doc declared j relation rel related
    rcases held with given | given
    · exact ⟨_, Option.some.inj (given.symm.trans isKind)⟩
    · exact ⟨_, Option.some.inj (given.symm.trans isTarget)⟩

/-- **A declaration comes to a schema or to violations**, as the document breaks no rule or some, unless it is faulty. -/
theorem declare_outcome (document : graph.isDocument = true) (mapping : graph.isMap = true) :
    (∃ f, Faulty graph f ∧ declare graph = .error f) ∨
    (∀ f, ¬ Faulty graph f) ∧
      ((Lawful graph ∧ ∃ schema, declare graph = .ok (.ok schema)) ∨
        (¬ Lawful graph ∧ ∃ violations, violations ≠ [] ∧ declare graph = .ok (.error violations))) := by
  by_cases given : ∃ entities, graph.get? "entities" = some (.map entities)
  · obtain ⟨entities, given⟩ := given
    have key := Value.getKey_of_get? mapping given
    rcases entitiesViolations_fails document given with ⟨⟨found, collected⟩, readable⟩ | ⟨f, fault, first⟩
    · have unread : ¬ ∃ f, First (Unreadable graph) f := fun ⟨f, place, held, _⟩ => readable place f held
      have nil := violations_eq_nil_iff document given readable collected
      by_cases lawful : Lawful graph
      · obtain rfl := nil.2 lawful
        have built := declare_of_no_violations key collected
        rcases buildEntities_fails document given with ⟨⟨entities, eq⟩, listed⟩ | ⟨f, fault, first⟩
        · refine .inr ⟨?_, .inl ⟨lawful, _, by rw [built, eq]; rfl⟩⟩
          rintro f (first | ⟨-, -, place, held, -⟩)
          · exact unread ⟨f, first⟩
          · exact listed place f held
        · exact .inl ⟨f, .inr ⟨readable, lawful, first⟩, by rw [built, fault]; rfl⟩
      · have some_ : found ≠ [] := fun none => lawful (nil.1 none)
        refine .inr ⟨?_, .inr ⟨lawful, found, some_, declare_of_violations key collected some_⟩⟩
        rintro f (first | ⟨-, lawful', -⟩)
        · exact unread ⟨f, first⟩
        · exact lawful lawful'
    · exact .inl ⟨f, .inl first, declare_of_fault key fault⟩
  · have bad (entities : List (Scalar × Value)) : graph.get? "entities" ≠ some (.map entities) :=
      fun held => given ⟨entities, held⟩
    have unlawful : ¬ Lawful graph := fun lawful => given lawful.entities
    refine .inr ⟨?_, .inr ⟨unlawful, _, List.cons_ne_nil _ _, declare_of_no_entities mapping bad⟩⟩
    rintro f (⟨place, held, -⟩ | ⟨-, lawful, -⟩)
    · cases held with
      | relation declared => exact absurd declared (Value.not_entryAt bad)
    · exact unlawful lawful

end Graph

end Schema

namespace Checker

/-- **A check comes to a result** and a declaration to a schema or to the violations of the rules, whatever values stand
in the document, with the exception of faulty documents: those with a kind or a target that can not be looked up, and
those that break no rule but have fields that can not be iterated. Their first such value is the fault of both. -/
theorem check_outcome {graph : Value} (document : graph.isDocument = true) (mapping : graph.isMap = true) (c : Checker) :
    (∃ f, Schema.Faulty graph f ∧ ((check graph).step c).1 = .error (.ofFault f) ∧
      Schema.ofValue graph = .error (.ofFault f)) ∨
    (∀ f, ¬ Schema.Faulty graph f) ∧ ∃ r, ((check graph).step c).1 = .ok r ∧
      ((Schema.Lawful graph ∧ r.schema.isSome = true ∧ ∃ schema, Schema.ofValue graph = .ok schema) ∨
        (¬ Schema.Lawful graph ∧ r.schema = none ∧ ∃ messages, messages ≠ [] ∧
          Schema.ofValue graph = .error (.invalidGraph messages))) := by
  have shows := (check_checks graph c).shows
  generalize ((check graph).step c).1 = outcome at shows ⊢
  rw [declared] at shows
  rcases Schema.declare_outcome document mapping with
    ⟨f, faulty, eq⟩ | ⟨sound, ⟨lawful, schema, eq⟩ | ⟨unlawful, violations, some_, eq⟩⟩
  all_goals
    rw [eq] at shows
    rw [Schema.ofValue, eq]
  · cases outcome with
    | error failure => exact .inl ⟨f, faulty, congrArg Except.error (Except.error.inj shows), rfl⟩
    | ok r => cases shows
  · cases outcome with
    | error failure => cases shows
    | ok r =>
      have held : r.schema = some schema := (Prod.mk.inj (Except.ok.inj shows)).1
      exact .inr ⟨sound, r, rfl, .inl ⟨lawful, by rw [held]; rfl, schema, rfl⟩⟩
  · cases outcome with
    | error failure => cases shows
    | ok r =>
      have held : r.schema = none := (Prod.mk.inj (Except.ok.inj shows)).1
      exact .inr ⟨sound, r, rfl, .inr ⟨unlawful, held, _, by simpa using some_, rfl⟩⟩

end Checker

namespace Sample

/-- A graph document that breaks no rule, with a number in place of fields. -/
def counted : Value :=
  .ofFields [("entities", .ofFields [("Thing", .ofFields [("fields", .int 3), ("relations", .ofFields [
    ("part", .ofFields [("kind", .text "hasMany"), ("target", .text "Thing"), ("foreign_key", .text "thing_id")])])])])]

end Sample

namespace Checker

/-- Fields that can not be iterated are a fault, once a document breaks no rule. -/
theorem check_outcome_counted :
    Sample.counted.isDocument = true ∧ Sample.counted.isMap = true ∧ Schema.Faulty Sample.counted (.notIterable .int) ∧
      ((check Sample.counted).step new).1 = .error (.ofFault (.notIterable .int)) := by
  have document : Sample.counted.isDocument = true := by decide +kernel
  have fault : ((check Sample.counted).step new).1 = .error (.ofFault (.notIterable .int)) := rfl
  rcases check_outcome document rfl new with ⟨f, faulty, failed, -⟩ | ⟨-, r, ok, -⟩
  · rw [fault] at failed
    cases failed
    exact ⟨document, rfl, faulty, fault⟩
  · rw [fault] at ok
    cases ok

/-- Not every check of a graph document comes to a result: a list as a kind ends it. -/
theorem listed_kind_escapes : ¬ ∀ graph : Value, graph.isDocument = true → graph.isMap = true →
    (∃ r, ((check graph).step new).1 = .ok r) ∧
      ((∃ schema, Schema.ofValue graph = .ok schema) ∨ ∃ messages, Schema.ofValue graph = .error (.invalidGraph messages)) := by
  intro total
  obtain ⟨⟨r, ok⟩, -⟩ := total Sample.listedKind (by decide +kernel) rfl
  have fault : ((check Sample.listedKind).step new).1 = .error (.ofFault (.unhashable .list)) := rfl
  rw [fault] at ok
  cases ok

end Checker

end Semijoin
