import Semijoin.Access.Fixed
import Semijoin.Proofs.Path.Visits
import Semijoin.Proofs.Reversal.Condition
import Semijoin.Proofs.Reversal.Refusal
import Semijoin.Proofs.Reversal.Scalars

/-!
# The outcome of a reversal

A condition that has no text, or else a path that the schema refuses, is refused before anything is asked. Otherwise
there is one find, whatever comes of it: a failure of the library's own is the outcome, any other error is wrapped for
the furthest entity, and of rows the ids along the way back are the members of a condition on the root, or the first
missing node the failure.
-/

namespace Semijoin
set_option autoImplicit false

/-- An access that notes what it is asked. -/
def Access.noted {σ : Type} (access : Access σ) : Access (σ × List FindCall) where
  find entity condition include_ := ExceptT.mk fun state =>
    let (r, after) := (access.find entity condition include_).step state.1
    (r, after, state.2 ++ [⟨entity, condition, include_⟩])

namespace Reversal

variable [Attributes]

/-- What is come upon in rows along the way back of a plan. -/
def Plan.found (p : Plan) (rows : List Value) : List Path.Visit := rows.flatMap (Path.visits p.back)

/-- The ids that a plan collects from rows are scalars. -/
def Plan.ScalarIds (p : Plan) (rows : List Value) : Prop :=
  ∀ name, p.idField = .text name → ∀ id ∈ Path.idsOf name (p.found rows), ∃ k, id = .scalar k

/-- What a reversal comes to by what its one find came to. -/
inductive Plan.Answers (p : Plan) (options : Options) : Except Failure Value → Except Failure Value → Prop
  | own {f : Failure} (own : f.isOwn = true) : Answers p options (.error f) (.error f)
  | wrapped (c : Cause) :
      Answers p options (.error (.cause c)) (.error (.accessFailed p.furthest c.message none (some c)))
  | missing {rows : List Value} {segment : String} (strict : options.missing = .fail)
      (first : (p.found rows).findSome? Path.Visit.missing? = some segment) :
      Answers p options (.ok (.list rows)) (.error (.missingNode p.back (some segment)))
  | collected {rows : List Value} {rootField idField : String} {keys : List Scalar}
      (compared : p.rootField = .text rootField ∧ p.idField = .text idField)
      (complete : options.missing = .fail → (p.found rows).findSome? Path.Visit.missing? = none)
      (ids : Path.idsOf idField (p.found rows) = keys.map .scalar) :
      Answers p options (.ok (.list rows))
        (.ok (membership (.text rootField) ((options.kept keys).map .scalar)))

variable {p : Plan} {options : Options} {rows : List Value}

theorem ids_settled {idField : String} (named : p.idField = .text idField) (policy : MissingPolicy) :
    p.ids policy (.list rows) = Path.settled policy p.back idField (p.found rows) := by
  have each : Path.leaves policy (p.back.map .text) p.idField =
      fun row => Path.settled policy p.back idField (Path.visits p.back row) := by
    funext row
    rw [Path.leaves, named, Path.leavesFrom_eq]
  show ((rows.mapM (Path.leaves policy (p.back.map .text) p.idField)) >>= fun parts => pure parts.flatten) = _
  rw [each, Path.mapM_settled, Plan.found]

/-- Of rows with scalar ids, a plan makes a condition or finds a node missing. -/
theorem condition_answers {rootField idField : String} (rootNamed : p.rootField = .text rootField)
    (idNamed : p.idField = .text idField) (scalars : p.ScalarIds rows) :
    p.Answers options (.ok (.list rows)) (p.condition options (.list rows)) := by
  have settled : p.ids options.missing (.list rows) = _ := ids_settled idNamed options.missing
  by_cases incomplete : options.missing = .fail ∧ (p.found rows).findSome? Path.Visit.missing? ≠ none
  · obtain ⟨strict, some_⟩ := incomplete
    obtain ⟨segment, first⟩ := Option.ne_none_iff_exists'.1 some_
    rw [strict, Path.settled_missing first] at settled
    have failed : p.condition options (.list rows) = .error (.missingNode p.back (some segment)) := by
      rw [condition_steps, strict, settled]
      rfl
    rw [failed]
    exact .missing strict first
  · have complete (strict : options.missing = .fail) : (p.found rows).findSome? Path.Visit.missing? = none := by
      by_contra some_
      exact incomplete ⟨strict, some_⟩
    obtain ⟨keys, ids⟩ := exists_keys (scalars idField idNamed)
    rw [Path.settled_ids complete, ids] at settled
    rw [condition_eq_ok.2 ⟨_, _, _, settled, Options.keep_keys keys, Plan.key_text rootNamed idNamed, rfl⟩]
    exact .collected ⟨rootNamed, idNamed⟩ complete ids

variable {σ : Type} {access : Access σ} {schema : Schema} {root : String} {path : List String} {condition : Value}

/-- A refused path is refused before anything is asked. -/
theorem run_refused {f : Failure} (sound : schema.Sound) (writable : condition.isWritable = true)
    (refused : schema.Refuses options.maxDepth root path f) (s : σ) :
    (run access schema options root (path.map .text) condition).step s = (.error f, s) := by
  have planned : (Action.ofExcept (plan schema options.maxDepth root (path.map .text) condition) : Action σ Plan).step s =
      (.error f, s) := by
    rw [Action.step_ofExcept, plan_eq_route writable, route_eq_error sound refused]
  exact Action.step_bind_error planned _

/-- A planned path makes one find, and what becomes of it leaves the state alone. -/
theorem run_planned (sound : schema.Sound) (writable : condition.isWritable = true)
    (planned : schema.Plans options.maxDepth root path p) (s : σ) :
    (run access schema options root (path.map .text) condition).step s =
      (((access.find p.furthest (fetched condition) p.include_).step s).1.mapError (wrap p.furthest) >>=
        p.condition options, ((access.find p.furthest (fetched condition) p.include_).step s).2) := by
  have first : (Action.ofExcept (plan schema options.maxDepth root (path.map .text) condition) : Action σ Plan).step s =
      (.ok p, s) := by
    rw [Action.step_ofExcept, plan_eq_route writable, route_eq_ok_of_plans sound planned]
  rw [run, Action.step_bind_ok first, Plan.run, Plan.fetch]
  generalize access.find p.furthest (fetched condition) p.include_ = find
  have asked := Action.step_adapt (wrap p.furthest) find s
  cases answer : find.step s with
  | mk r after =>
    rw [answer] at asked
    cases r with
    | error f => exact Action.step_bind_error asked _
    | ok found => exact Action.step_bind_ok asked _

omit [Attributes] in
/-- A plan compares columns with text names, if all keys have them. -/
theorem plan_texts (texts : schema.TextKeys) {maxDepth : Int} {path : List Value}
    (planned : plan schema maxDepth root path condition = .ok p) :
    ∃ rootField idField, p.rootField = .text rootField ∧ p.idField = .text idField := by
  obtain ⟨rootField, rootNamed⟩ := texts _ (plan_keys planned).1
  obtain ⟨idField, idNamed⟩ := texts _ (plan_keys planned).2
  exact ⟨rootField, idField, rootNamed, idNamed⟩

/-- Whatever the find of a plan comes to, the reversal answers it. -/
theorem answers_of_find (texts : schema.TextKeys) {maxDepth : Int} {path : List Value}
    (planned : plan schema maxDepth root path condition = .ok p) {answer : Except Failure Value}
    (records : ∀ v, answer = .ok v → ∃ rows, v = .list rows ∧ p.ScalarIds rows) :
    p.Answers options answer (answer.mapError (wrap p.furthest) >>= p.condition options) := by
  cases answer with
  | error f =>
    cases f with
    | cause c => exact .wrapped c
    | _ => exact .own rfl
  | ok v =>
    obtain ⟨rows, rfl, scalars⟩ := records v rfl
    obtain ⟨rootField, idField, rootNamed, idNamed⟩ := plan_texts texts planned
    exact condition_answers rootNamed idNamed scalars

/-- **A reversal is refused, or asks once and answers.** A condition that has no text is refused whatever its path, and
nothing is asked. Of a condition that has one, the schema refuses the path, and then nothing is asked, or it plans one
find: of the furthest entity with the condition given and the way back as the include. What that find comes to decides
the outcome. -/
theorem run_refused_or_answered {graph : Value} {schema : Schema} (document : graph.isDocument = true)
    (accepted : Schema.ofValue graph = .ok schema) (texts : schema.TextKeys) {σ : Type} (access : Access σ)
    (options : Options) (root : String) (path : List String) (condition : Value) (s : σ) (asked : List FindCall)
    (records : ∀ p, schema.Plans options.maxDepth root path p → ∀ v s',
      (access.find p.furthest (fetched condition) p.include_).step s = (.ok v, s') →
        ∃ rows, v = .list rows ∧ p.ScalarIds rows) :
    ((∃ f, schema.Refuses options.maxDepth root path f) ∨ ∃ p, schema.Plans options.maxDepth root path p) ∧
    (condition.isWritable = false → (run access.noted schema options root (path.map .text) condition).step (s, asked) =
      (.error (.ofFault .longInteger), s, asked)) ∧
    (condition.isWritable = true →
      (∀ f, schema.Refuses options.maxDepth root path f ↔
        (run access.noted schema options root (path.map .text) condition).step (s, asked) = (.error f, s, asked)) ∧
      ∀ p, schema.Plans options.maxDepth root path p → ∃ answer s' r,
        (access.find p.furthest (fetched condition) p.include_).step s = (answer, s') ∧ p.Answers options answer r ∧
        (run access.noted schema options root (path.map .text) condition).step (s, asked) =
          (r, s', asked ++ [⟨p.furthest, fetched condition, p.include_⟩])) := by
  have sound := Schema.sound_of_ofValue document accepted
  have total := refuses_or_plans sound options.maxDepth root path
  refine ⟨total, fun long => run_long long path _, fun writable => ?_⟩
  have answered {p : Plan} (planned : schema.Plans options.maxDepth root path p) : ∃ answer s' r,
      (access.find p.furthest (fetched condition) p.include_).step s = (answer, s') ∧ p.Answers options answer r ∧
      (run access.noted schema options root (path.map .text) condition).step (s, asked) =
        (r, s', asked ++ [⟨p.furthest, fetched condition, p.include_⟩]) := by
    have route := (plan_eq_route writable path).trans (route_eq_ok_of_plans sound planned)
    refine ⟨_, _, _, rfl, answers_of_find texts route ?_, run_planned sound writable planned _⟩
    intro v found
    exact records p planned v _ (Prod.ext found rfl)
  refine ⟨fun f => ⟨fun refused => run_refused sound writable refused _, fun run => ?_⟩, fun p => answered⟩
  rcases total with ⟨f', refused⟩ | ⟨p, planned⟩
  · rw [run_refused sound writable refused] at run
    cases run
    exact refused
  · -- a planned path leaves a note of its find
    obtain ⟨_, _, _, -, -, noted⟩ := answered planned
    rw [noted] at run
    have noCall := (Prod.mk.inj (Prod.mk.inj run).2).2
    simp at noCall

end Reversal

namespace Orders

theorem textKeys : schema.TextKeys := by
  intro k mem
  simp only [Schema.keyNames, schema, person, order, List.flatMap_cons, List.flatMap_nil, List.map_cons, List.map_nil,
    List.append_nil, List.mem_append, List.mem_cons, List.not_mem_nil, or_false] at mem
  rcases mem with (rfl | rfl | rfl) | (rfl | rfl | rfl) <;> exact ⟨_, rfl⟩

/-- Two people, of whom the first bought an order and the second has none. -/
def buyers : List Value := [
  .ofFields [("id", .text "ann"), ("bought", .list [.ofFields [("id", .int 7), ("buyer_id", .text "ann")]])],
  .ofFields [("id", .text "bob"), ("bought", .null)]]

/-- The plan for the people whom one's orders were sold to. -/
def buyersPlan : Reversal.Plan := ⟨.text "id", .text "buyer_id", "Person", ["bought"]⟩

theorem plans_buyers : schema.Plans 16 "Person" ["sold", "buyer"] buyersPlan :=
  .mk ⟨rfl, by simp, by decide⟩ (.step rfl (.step rfl (.done _)) : schema.Walks person _ [sold, buyer] person)
    (.inl rfl) (fun _ => rfl) (by simp [Hop.back?, Hop.back, buyer, person, order])

theorem scalarIds_buyers : buyersPlan.ScalarIds buyers := by
  intro name named id mem
  cases named
  have ids : Path.idsOf "buyer_id" (buyersPlan.found buyers) = [.text "ann"] := rfl
  rw [ids, List.mem_singleton] at mem
  exact ⟨_, mem⟩

theorem refuses_planet :
    schema.Refuses 16 "Person" ["sold", "planet"] (.unknownRelation "Order" (.text "planet")) :=
  have admitted : schema.Admits 16 person (["sold"] ++ "planet" :: []) := ⟨rfl, by simp, by decide⟩
  have walk : schema.Walks person ["sold"] [sold] order := .step rfl (.done _)
  .undeclaredStep admitted walk rfl

end Orders

/-- An undeclared step asks nothing; a declared path asks once, and the person without orders is reported as missing
ones where that fails. -/
theorem Reversal.run_refused_or_answered_buyers :
    (run (FixedAnswer.records (.list Orders.buyers)).access.noted Orders.schema { missing := .fail } "Person"
      [.text "sold", .text "planet"] .null).step ([], []) =
        (.error (.unknownRelation "Order" (.text "planet")), [], []) ∧
    ∃ r, Orders.buyersPlan.Answers { missing := .fail } (.ok (.list Orders.buyers)) r ∧
      (run (FixedAnswer.records (.list Orders.buyers)).access.noted Orders.schema { missing := .fail } "Person"
        [.text "sold", .text "buyer"] .null).step ([], []) =
          (r, [⟨"Person", .map [], .ofFields [("relation", .text "bought")]⟩],
            [⟨"Person", .map [], .ofFields [("relation", .text "bought")]⟩]) := by
  have sound := Schema.sound_of_ofValue Orders.document Orders.accepted
  have refused := run_refused_or_answered Orders.document Orders.accepted Orders.textKeys
    (FixedAnswer.records (.list Orders.buyers)).access { missing := .fail } "Person" ["sold", "planet"] .null [] []
    (fun p planned => absurd planned (not_plans_of_refuses sound Orders.refuses_planet p))
  have answered := run_refused_or_answered Orders.document Orders.accepted Orders.textKeys
    (FixedAnswer.records (.list Orders.buyers)).access { missing := .fail } "Person" ["sold", "buyer"] .null [] []
    (fun p planned v s' found => by
      obtain rfl := plans_unique sound planned Orders.plans_buyers
      cases found
      exact ⟨_, rfl, Orders.scalarIds_buyers⟩)
  refine ⟨((refused.2.2 rfl).1 _).1 Orders.refuses_planet, ?_⟩
  obtain ⟨_, _, r, found, answers, run⟩ := (answered.2.2 rfl).2 _ Orders.plans_buyers
  cases found
  exact ⟨r, answers, run⟩

/-- The schema plans a find for the path and refuses nothing, yet no find is made for a condition on a long integer. -/
theorem Reversal.planned_unasked :
    Schema.ofValue Orders.graph = .ok Orders.schema ∧ Orders.schema.Plans 16 "Person" ["sold", "buyer"] Orders.buyersPlan ∧
    (run (FixedAnswer.records (.list Orders.buyers)).access.noted Orders.schema {} "Person" [.text "sold", .text "buyer"]
      (.ofFields [("id", .scalar .leastLong)])).step ([], []) = (.error (.ofFault .longInteger), [], []) ∧
    ∀ f, ¬ Orders.schema.Refuses 16 "Person" ["sold", "buyer"] f := by
  have sound := Schema.sound_of_ofValue Orders.document Orders.accepted
  refine ⟨Orders.accepted, Orders.plans_buyers,
    run_long (Value.isWritable_equality Scalar.leastLong_long "id") ["sold", "buyer"] _, fun f refused => ?_⟩
  exact absurd Orders.plans_buyers (not_plans_of_refuses sound refused _)

end Semijoin
