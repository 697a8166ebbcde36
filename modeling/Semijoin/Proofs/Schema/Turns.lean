import Semijoin.Proofs.Access.Outcome
import Semijoin.Proofs.Schema.Faithful
import Semijoin.Schema.Checker

/-!
# One document after another

A checker adds to its list what the declaration of a document collects, so a check comes to what the declaration does.
No check changes a list that was begun before it: each of a sequence of results reads at the end as it would have read
alone.
-/

namespace Semijoin
set_option autoImplicit false

namespace Checker

variable {c c' : Checker}

theorem extended_nil (c : Checker) : extended [] c = c := by
  have kept : (fun list : List Violation => list ++ []) = id := by
    funext list
    simp
  rw [extended, kept, List.modify_id]

theorem extended_extended (vs more : List Violation) (c : Checker) :
    extended more (extended vs c) = extended (vs ++ more) c := by
  simp only [extended, List.modify_modify_eq]
  congr 2
  funext list
  simp

/-- An action that adds what is collected to the list in use, or only a part of it before a fault. -/
def Adds (act : Action Checker Unit) (collected : Except Fault (List Violation)) : Prop :=
  ∀ c, (∃ vs, collected = .ok vs ∧ act.step c = (.ok (), extended vs c)) ∨
    ∃ f vs, collected = .error f ∧ act.step c = (.error (.ofFault f), extended vs c)

namespace Adds

variable {act act' : Action Checker Unit} {collected collected' : Except Fault (List Violation)}

theorem nothing : Adds (pure ()) (.ok []) := fun c => .inl ⟨[], rfl, by rw [extended_nil]; rfl⟩

theorem note (v : Violation) : Adds (Checker.note v) (.ok [v]) := fun _ => .inl ⟨[v], rfl, rfl⟩

theorem report (owner name : String) (problem : Option String) :
    Adds (Checker.report owner name problem) (.ok (problem.toList.map (Violation.mk (some owner) (some name)))) := by
  cases problem with
  | none => exact nothing
  | some message => exact note _

theorem of_eq (h : Adds act collected) (same : collected = collected') : Adds act collected' := same ▸ h

theorem andThen (h : Adds act collected) (h' : Adds act' collected') :
    Adds (do act; act') (do return (← collected) ++ (← collected')) := by
  intro c
  rcases h c with ⟨vs, rfl, step⟩ | ⟨f, vs, rfl, step⟩
  · rw [Action.step_bind_ok step]
    rcases h' (extended vs c) with ⟨more, rfl, step'⟩ | ⟨f, more, rfl, step'⟩
    · exact .inl ⟨vs ++ more, rfl, by rw [step', extended_extended]⟩
    · exact .inr ⟨f, vs ++ more, rfl, by rw [step', extended_extended]⟩
  · exact .inr ⟨f, vs, rfl, Action.step_bind_error step _⟩

theorem values {α : Type} {x : Except Fault α} {next : α → Action Checker Unit}
    {collect : α → Except Fault (List Violation)} (h : ∀ a, Adds (next a) (collect a)) :
    Adds (Action.ofValues x >>= next) (x >>= collect) := by
  intro c
  cases x with
  | error f => exact .inr ⟨f, [], rfl, by rw [extended_nil]; rfl⟩
  | ok a => exact h a c

end Adds

open Schema

/-- A check of a relation adds its violations. -/
theorem adds_relation (all : List (Scalar × Value)) (owner name : String) (rel : Value) :
    Adds (relation all owner name rel) (relationViolations all owner name rel) := by
  unfold relation relationViolations
  cases rel.isMap with
  | false => exact Adds.report owner name (some "Relation definition must be a mapping")
  | true =>
    refine Adds.values fun kind => ?_
    refine ((Adds.report owner name _).andThen
      (Adds.values fun problem => (Adds.report owner name problem).andThen (Adds.report owner name _))).of_eq ?_
    cases targetProblem? all ((rel.get? "target").getD .null) with
    | error f => rfl
    | ok problem =>
      simp only [bind, Except.bind, pure, Except.pure, List.append_assoc]
      cases kindOf? kind <;> cases ((rel.get? "foreign_key").getD .null).truthy <;> rfl

theorem adds_relations (all : List (Scalar × Value)) (owner : String) (declared : List (Scalar × Value)) :
    Adds (relations all owner declared) (relationsViolations all owner declared) := by
  induction declared with
  | nil => exact .nothing
  | cons r rest ih => exact (adds_relation all owner r.1.shown r.2).andThen ih

theorem adds_entity (all : List (Scalar × Value)) (name : String) (doc : Value) :
    Adds (entity all name doc) (entityViolations all name doc) := by
  unfold entity entityViolations
  cases doc.isMap with
  | false => exact Adds.note _
  | true =>
    cases relationsOf doc with
    | map declared => exact adds_relations all name declared
    | _ => exact Adds.note _

theorem adds_entities (all entries : List (Scalar × Value)) :
    Adds (entities all entries) (entitiesViolations all entries) := by
  induction entries with
  | nil => exact .nothing
  | cons e rest ih => exact (adds_entity all e.1.shown e.2).andThen ih

/-- What the declaration of a document comes to, as a result shows it. -/
def declared (graph : Value) : Except Failure (Option Schema × List Violation) :=
  match declare graph with
  | .error f => .error (.ofFault f)
  | .ok (.error violations) => .ok (none, violations)
  | .ok (.ok schema) => .ok (some schema, [])

/-- A checker that has the lists of an earlier one as they were. -/
def Keeps (c c' : Checker) : Prop := ∃ more, c'.lists = c.lists ++ more

theorem Keeps.refl (c : Checker) : Keeps c c := ⟨[], by simp⟩

theorem Keeps.trans {c'' : Checker} (h : Keeps c c') (h' : Keeps c' c'') : Keeps c c'' := by
  obtain ⟨more, eq⟩ := h
  obtain ⟨more', eq'⟩ := h'
  exact ⟨more ++ more', by rw [eq', eq, List.append_assoc]⟩

/-- A list that was begun reads the same later. -/
theorem Keeps.errors (h : Keeps c c') {number : Nat} (begun : number < c.lists.length) :
    c'.errors number = c.errors number := by
  obtain ⟨more, eq⟩ := h
  rw [Checker.errors, Checker.errors, eq, List.getElem?_append_left begun]

theorem extended_begun (vs : List Violation) (c : Checker) :
    extended vs c.begun = ⟨c.lists ++ [vs], c.lists.length⟩ := by
  have last (lists : List (List Violation)) : (lists ++ [[]]).modify lists.length (· ++ vs) = lists ++ [vs] := by
    induction lists with
    | nil => rfl
    | cons list rest ih => exact congrArg (list :: ·) ih
  rw [extended, begun, last]

/-- What one check comes to: earlier lists stay, and the result shows what the declaration comes to. -/
structure Checks (graph : Value) (c : Checker) (outcome : Except Failure Result) (c' : Checker) : Prop where
  keeps : Keeps c c'
  shows : outcome.map (Result.shown c') = declared graph
  begun : ∀ r, outcome = .ok r → r.errors < c'.lists.length

theorem checks_fault {graph : Value} {f : Fault} (vs : List Violation) (fails : declare graph = .error f) :
    Checks graph c (.error (.ofFault f)) (extended vs c.begun) := by
  refine ⟨⟨[vs], by rw [extended_begun]⟩, ?_, fun r eq => by cases eq⟩
  rw [declared, fails]
  rfl

theorem checks_violations {graph : Value} {vs : List Violation} (gives : declare graph = .ok (.error vs)) :
    Checks graph c (.ok ⟨none, c.lists.length⟩) (extended vs c.begun) := by
  rw [extended_begun]
  refine ⟨⟨[vs], rfl⟩, ?_, fun r eq => ?_⟩
  · have read : (⟨c.lists ++ [vs], c.lists.length⟩ : Checker).errors c.lists.length = vs := by
      simp [Checker.errors]
    show Except.ok (none, (⟨c.lists ++ [vs], c.lists.length⟩ : Checker).errors c.lists.length) = _
    rw [read, declared, gives]
  · cases eq
    simp

theorem checks_schema {graph : Value} {schema : Schema} (gives : declare graph = .ok (.ok schema)) :
    Checks graph c (.ok ⟨some schema, c.lists.length + 1⟩) (extended [] c.begun).spared := by
  rw [extended_begun]
  refine ⟨⟨[[], []], by simp [spared]⟩, ?_, fun r eq => ?_⟩
  · have read : (⟨c.lists ++ [[]], c.lists.length⟩ : Checker).spared.errors (c.lists.length + 1) = [] := by
      simp [Checker.errors, spared]
    show Except.ok (some schema, (⟨c.lists ++ [[]], c.lists.length⟩ : Checker).spared.errors (c.lists.length + 1)) = _
    rw [read, declared, gives]
  · cases eq
    simp [spared]

/-- **A check comes to what the declaration does**, whatever was checked before, and leaves earlier lists alone. -/
theorem check_checks (graph : Value) (c : Checker) :
    Checks graph c ((check graph).step c).1 ((check graph).step c).2 := by
  have begins : (Action.update begun : Action Checker Unit).step c = (.ok (), c.begun) := rfl
  rw [check, Action.step_bind_ok begins]
  cases key : graph.getKey (.text "entities") with
  | error f =>
    have fails : declare graph = .error f := by rw [declare, key]; rfl
    have unread : (Action.ofValues (.error f) : Action Checker Value).step c.begun =
      (.error (.ofFault f), c.begun) := rfl
    rw [Action.step_bind_error unread, ← extended_nil c.begun]
    exact checks_fault [] fails
  | ok found =>
    have read : (Action.ofValues (.ok found) : Action Checker Value).step c.begun = (.ok found, c.begun) := rfl
    rw [Action.step_bind_ok read]
    cases found with
    | map all =>
      simp only
      rcases adds_entities all all c.begun with ⟨vs, collected, step⟩ | ⟨f, vs, collected, step⟩
      · have used : (extended vs c.begun).errors (extended vs c.begun).current = vs := by
          rw [extended_begun]
          simp [Checker.errors]
        have run : (get : StateM Checker Checker).run (extended vs c.begun) =
          (extended vs c.begun, extended vs c.begun) := rfl
        rw [Action.step_bind_ok step, state, Action.step_lift_bind, run, used]
        cases vs with
        | nil =>
          have gives := declare_of_no_violations key collected
          cases built : buildEntities all with
          | error f => exact checks_fault [] (by rw [gives, built]; rfl)
          | ok entities =>
            have length : (extended [] c.begun).lists.length = c.lists.length + 1 := by
              rw [extended_begun]
              simp
            rw [built] at gives
            have schema := checks_schema (c := c) gives
            rw [← length] at schema
            exact schema
        | cons v more => exact checks_violations (declare_of_violations key collected (by simp))
      · rw [Action.step_bind_error step]
        exact checks_fault vs (declare_of_fault key collected)
    | _ => exact checks_violations (by rw [declare, key]; rfl)

/-- A result reads the same as long as its list is kept. -/
theorem Checks.later {graph : Value} {outcome : Except Failure Result} {after : Checker}
    (h : Checks graph c outcome c') (kept : Keeps c' after) : outcome.map (Result.shown after) = declared graph := by
  rw [← h.shows]
  cases outcome with
  | error f => rfl
  | ok r =>
    have read := kept.errors (h.begun r rfl)
    show Except.ok (r.schema, after.errors r.errors) = Except.ok (r.schema, c'.errors r.errors)
    rw [read]

/-- Of documents in turn, each result shows in the end what the declaration of its document comes to. -/
theorem checkAll_shows (graphs : List Value) (c : Checker) : Keeps c ((checkAll graphs).run c).2 ∧
    List.Forall₂ (fun graph outcome => outcome.map (Result.shown ((checkAll graphs).run c).2) = declared graph)
      graphs ((checkAll graphs).run c).1 := by
  induction graphs generalizing c with
  | nil => exact ⟨.refl c, .nil⟩
  | cons graph rest ih =>
    have first := check_checks graph c
    obtain ⟨kept, shown⟩ := ih ((check graph).step c).2
    have run : (checkAll (graph :: rest)).run c = (((check graph).step c).1 ::
        ((checkAll rest).run ((check graph).step c).2).1, ((checkAll rest).run ((check graph).step c).2).2) := by
      rw [checkAll, List.mapM_cons]
      rfl
    rw [run]
    exact ⟨first.keeps.trans kept, .cons (first.later kept) shown⟩

/-- What a plain document comes to: its schema if it breaks no rule, and else exactly its violations. -/
structure Exact (graph : Value) (shown : Except Failure (Option Schema × List Violation)) : Prop where
  lawful : Lawful graph → ∃ schema, shown = .ok (some schema, []) ∧ DeclaresSchema graph schema
  unlawful : ¬ Lawful graph → ∃ violations, shown = .ok (none, violations) ∧ violations ≠ [] ∧ violations.Nodup ∧
    Exactly (Breaks graph) violations

theorem declared_exact {graph : Value} (plain : Plain graph) : Exact graph (declared graph) := by
  constructor
  · intro lawful
    obtain ⟨schema, gives, declares⟩ := declare_of_lawful plain lawful
    exact ⟨schema, by rw [declared, gives], declares⟩
  · intro unlawful
    obtain ⟨violations, gives, exact_, once, some_⟩ := declare_of_not_lawful plain unlawful
    exact ⟨violations, by rw [declared, gives], some_, once, exact_⟩

/-- **Checks in turn are exact.** Whatever a checker checked before, each result of a sequence of documents shows in
the end what the declaration of its document alone comes to, faults among them or not. Of a plain document that is its
schema, just as declared, if it breaks no rule, and else its violations: all of them, each once, and in order. -/
theorem checkAll_exact (graphs : List Value) (c : Checker) :
    List.Forall₂ (fun graph outcome =>
        outcome.map (Result.shown ((checkAll graphs).run c).2) = declared graph ∧
        (Plain graph → Exact graph (outcome.map (Result.shown ((checkAll graphs).run c).2))))
      graphs ((checkAll graphs).run c).1 :=
  (checkAll_shows graphs c).2.imp fun _ _ shown => ⟨shown, fun plain => by rw [shown]; exact declared_exact plain⟩

end Checker

namespace Sample

/-- A graph document with one entity. -/
def single (relations : List (String × Value)) : Value :=
  .ofFields [("entities", .ofFields [("Thing", .ofFields [("relations", .ofFields relations)])])]

/-- A kind that can not be looked up, two broken rules, and a relation of an entity to itself. -/
def listedKind : Value := single [("part", .ofFields [("kind", .list []), ("target", .null)])]

def twiceBroken : Value := single [("part", .ofFields [("kind", .text "many"), ("target", .text "Thing")])]

def selfRelated : Value :=
  single [("part", .ofFields [("kind", .text "hasMany"), ("target", .text "Thing"), ("foreign_key", .text "thing_id")])]

theorem entryAt_single {relations : List (String × Value)} {i : Nat} {name : String} {doc : Value}
    (h : (single relations).EntryAt "entities" i name doc) : doc = .ofFields [("relations", .ofFields relations)] := by
  obtain ⟨entries, given, at_⟩ := h
  cases given
  cases i with
  | zero => cases at_; rfl
  | succ i => cases at_

theorem plain_single {relations : List (String × Value)} (document : (single relations).isDocument = true)
    (scalars : ∀ r ∈ relations, ∀ v, r.2.get? "kind" = some v ∨ r.2.get? "target" = some v → ∃ k, v = .scalar k) :
    Schema.Plain (single relations) := by
  refine ⟨document, rfl, fun i name doc declared j relation rel related => ?_, fun i name doc declared v given => ?_⟩
  · obtain rfl := entryAt_single declared
    obtain ⟨entries, given, at_⟩ := related
    cases given
    obtain ⟨r, mem, eq⟩ := List.mem_map.1 (List.mem_of_getElem? at_)
    cases eq
    exact scalars r mem
  · obtain rfl := entryAt_single declared
    cases given

end Sample

namespace Checker

/-- A fault, two violations and a schema from one checker, as they read in the end. -/
theorem checkAll_exact_thing : ∃ faulty broken related after,
    (checkAll [Sample.listedKind, Sample.twiceBroken, Sample.selfRelated]).run new =
      ([faulty, broken, related], after) ∧
    faulty.map (Result.shown after) = .error (.ofFault (.unhashable .list)) ∧
    (∃ violations, broken.map (Result.shown after) = .ok (none, violations) ∧ violations.length = 2 ∧
      Exactly (Schema.Breaks Sample.twiceBroken) violations) ∧
    ∃ schema, related.map (Result.shown after) = .ok (some schema, []) ∧
      Schema.DeclaresSchema Sample.selfRelated schema := by
  have plainBroken : Schema.Plain Sample.twiceBroken := Sample.plain_single (by decide +kernel) (by
    simp only [List.mem_singleton, forall_eq]
    rintro v (given | given) <;> cases given <;> exact ⟨_, rfl⟩)
  have plainRelated : Schema.Plain Sample.selfRelated := Sample.plain_single (by decide +kernel) (by
    simp only [List.mem_singleton, forall_eq]
    rintro v (given | given) <;> cases given <;> exact ⟨_, rfl⟩)
  have exact_ := checkAll_exact [Sample.listedKind, Sample.twiceBroken, Sample.selfRelated] new
  generalize run : (checkAll [Sample.listedKind, Sample.twiceBroken, Sample.selfRelated]).run new = found at exact_
  obtain ⟨results, after⟩ := found
  cases exact_ with
  | @cons _ faulty _ _ first more =>
    cases more with
    | @cons _ broken _ _ second more =>
      cases more with
      | @cons _ related _ _ third more =>
        cases more
        refine ⟨faulty, broken, related, after, rfl, first.1.trans rfl, ?_, ?_⟩
        · have unlawful : ¬ Schema.Lawful Sample.twiceBroken := fun lawful => by
            obtain ⟨schema, eq, -⟩ := (second.2 plainBroken).lawful lawful
            cases second.1.symm.trans eq
          obtain ⟨violations, eq, -, -, listed⟩ := (second.2 plainBroken).unlawful unlawful
          have two : violations.length = 2 := by
            cases second.1.symm.trans eq
            rfl
          exact ⟨violations, eq, two, listed⟩
        · have lawful : Schema.Lawful Sample.selfRelated := by_contra fun unlawful => by
            obtain ⟨violations, eq, -⟩ := (third.2 plainRelated).unlawful unlawful
            cases third.1.symm.trans eq
          exact (third.2 plainRelated).lawful lawful

end Checker

end Semijoin
