import Semijoin.Proofs.Filter.Loop
import Semijoin.Proofs.Filter.Merge

/-!
# Filters under a schedule

What a requirement comes to by itself, and when, decides what becomes of a filter whose requirements are all
reversed at the same time. If none fails, the outcome is the one that reversing them one after the other gives,
whatever the schedule. If some fail, the first of them, by time and then by place, is what the compilation
fails with; the finds that end up to its time are finished and the later ones cancelled.
-/

namespace Semijoin
set_option autoImplicit false

namespace Race

section Requirement

variable {σ : Type} (access : Access σ)

theorem scripted_eq {script : FindScript} (whole : script.error = none) : scripted access script = access := by
  rw [scripted, whole]

variable [Attributes]

/-- Over steady data reversing a requirement comes to one outcome. -/
theorem reverseEntry_ends (steady : access.Steady) (schema : Schema) (options : CompileOptions) (root : String)
    (entry : Scalar × Value) (s : σ) : (Filter.reverseEntry access schema options root entry).Ends
      ((Filter.reverseEntry access schema options root entry).step s).1 := by
  obtain ⟨r, ends⟩ : (Filter.reverseEntry access schema options root entry).Steady :=
    (Action.steady_ofExcept _).bind fun path => Reversal.run_steady steady schema options.toOptions root path entry.2
  rw [ends s]
  exact ends

/-- A find that fails by its script fails the reversal, as a failed access with the cause kept. -/
theorem run_ends_of_error {script : FindScript} {text : String} (broken : script.error = some text)
    (plan : Reversal.Plan) (opts : Reversal.Options) (condition : Value) :
    (plan.run (scripted access script) opts condition).Ends
      (.error (.accessFailed plan.furthest text none (some (.host .runtime text)))) := by
  refine Action.Ends.bind_error (fun s => ?_) _
  rw [Reversal.Plan.fetch, scripted, broken]
  rfl

end Requirement

/-- Keeping something of items that were numbered, where the numbers do not matter. -/
theorem filterMap_mapIdx {α β γ : Type} {f : Nat → α → β} {g : β → Option γ} {h : α → Option γ} {l : List α}
    (each : ∀ i (below : i < l.length), g (f i l[i]) = h l[i]) : (l.mapIdx f).filterMap g = l.filterMap h := by
  induction l generalizing f with
  | nil => rfl
  | cons a rest ih =>
    have first : g (f 0 a) = h a := each 0 (by simp)
    have later := ih fun i below => each (i + 1) (by simpa using below)
    rw [List.mapIdx_cons, List.filterMap_cons, List.filterMap_cons, first, later]

/-- The outcome at a place. -/
def outcomeAt (all : List Completion) (place : Nat) : Except Failure Value :=
  (all[place]?.map (·.outcome)).getD (.ok .null)

variable [Attributes]

section Tasks

variable (tables : Tables) (schedule : Schedule) (schema : Schema) (options : CompileOptions) (root : String)

/-- What the requirement at a place comes to: a failure before its find at time zero, and else, at the time at
which its find ends, the error of the find or the outcome of the reversal by itself. -/
def completion (place : Nat) (entry : Scalar × Value) : Completion :=
  match Filter.entryPlan schema options root entry with
  | .error f => ⟨place, none, 0, .error f⟩
  | .ok plan =>
    let script := schedule place plan.furthest
    ⟨place, some plan.furthest, script.delay,
      match script.error with
      | some text => .error (.accessFailed plan.furthest text none (some (.host .runtime text)))
      | none => ((Filter.reverseEntry (tables.access schema) schema options root entry).step []).1⟩

/-- What the requirements come to, in their order. -/
def completions (require : List (Scalar × Value)) : List Completion :=
  require.mapIdx (completion tables schedule schema options root)

/-- The entity that a requirement asks for, if it comes to a find. -/
def asked (entry : Scalar × Value) : Option String :=
  (Filter.entryPlan schema options root entry).toOption.map (·.furthest)

theorem completion_place (place : Nat) (entry : Scalar × Value) :
    (completion tables schedule schema options root place entry).place = place := by
  unfold completion
  split <;> rfl

theorem completion_started (place : Nat) (entry : Scalar × Value) :
    (completion tables schedule schema options root place entry).started = asked schema options root entry := by
  unfold completion asked
  split <;> simp_all [Except.toOption]

/-- What reversing a requirement by itself gives, if it does not fail. -/
def answer (entry : Scalar × Value) : Value :=
  ((Filter.reverseEntry (tables.access schema) schema options root entry).step []).1.toOption.getD .null

/-- A reversal that does not fail has made its find, and comes to what reversing by itself gives. -/
theorem completion_succeeds {place : Nat} {entry : Scalar × Value}
    (succeeds : (completion tables schedule schema options root place entry).failure? = none) :
    (asked schema options root entry).isSome = true ∧
      (completion tables schedule schema options root place entry).outcome =
        .ok (answer tables schema options root entry) ∧
      (Filter.reverseEntry (tables.access schema) schema options root entry).Ends
        (.ok (answer tables schema options root entry)) := by
  have ends := reverseEntry_ends (tables.access schema) (tables.access_steady schema) schema options root entry []
  unfold completion asked answer at *
  cases planned : Filter.entryPlan schema options root entry with
  | error f =>
    rw [planned] at succeeds
    cases succeeds
  | ok plan =>
    simp only [planned] at succeeds ⊢
    cases broken : (schedule place plan.furthest).error with
    | some text =>
      rw [broken] at succeeds
      cases succeeds
    | none =>
      simp only [broken] at succeeds ⊢
      cases outcome : ((Filter.reverseEntry (tables.access schema) schema options root entry).step []).1 with
      | error f =>
        rw [outcome] at succeeds
        cases succeeds
      | ok v => exact ⟨rfl, rfl, outcome ▸ ends⟩

/-- A task does what its requirement comes to. -/
theorem start_completed {all : List Completion} {place : Nat} {entry : Scalar × Value}
    (here : all[place]? = some (completion tables schedule schema options root place entry)) :
    (start (tables.access schema) schedule schema options root place entry).completed (outcomeAt all) =
        completion tables schedule schema options root place entry ∧
      (start (tables.access schema) schedule schema options root place entry).work.Ends
        (completion tables schedule schema options root place entry).outcome := by
  have looked : outcomeAt all place = (completion tables schedule schema options root place entry).outcome := by
    rw [outcomeAt, here]
    rfl
  have ends := reverseEntry_ends (tables.access schema) (tables.access_steady schema) schema options root entry []
  unfold completion at looked ⊢
  unfold start
  cases planned : Filter.entryPlan schema options root entry with
  | error f =>
    simp only [planned] at looked ⊢
    exact ⟨by rw [Task.completed, looked], fun s => rfl⟩
  | ok plan =>
    simp only [planned] at looked ⊢
    refine ⟨by rw [Task.completed, looked], ?_⟩
    cases broken : (schedule place plan.furthest).error with
    | some text => exact run_ends_of_error (tables.access schema) broken plan _ _
    | none =>
      rw [Filter.reverseEntry_of_plan (tables.access schema) planned] at ends ⊢
      rw [scripted_eq (tables.access schema) broken]
      exact ends

variable (require : List (Scalar × Value))

/-- The tasks of the requirements. -/
def tasks : List (Task (List SelectCall)) :=
  require.mapIdx (start (tables.access schema) schedule schema options root)

theorem completions_getElem? {place : Nat} (below : place < require.length) :
    (completions tables schedule schema options root require)[place]? =
      some (completion tables schedule schema options root place require[place]) := by
  simp [completions, below]

theorem completions_placed (place : Nat)
    (within : place < (completions tables schedule schema options root require).length) :
    (completions tables schedule schema options root require)[place].place = place := by
  simp [completions, completion_place]

theorem tasks_completed : (tasks tables schedule schema options root require).map
      (Task.completed (outcomeAt (completions tables schedule schema options root require))) =
    completions tables schedule schema options root require := by
  refine List.ext_getElem (by simp [tasks, completions]) fun place within within' => ?_
  have below : place < require.length := by simpa [completions] using within'
  have here := completions_getElem? tables schedule schema options root require below
  simpa [tasks, completions] using (start_completed tables schedule schema options root here).1

/-- The books of the loop over the tasks of a filter. -/
theorem tasks_sound : Loop.Sound (outcomeAt (completions tables schedule schema options root require))
      (tasks tables schedule schema options root require)
      (Loop.exec { waiting := tasks tables schedule schema options root require, state := [] }) ∧
    (Loop.exec { waiting := tasks tables schedule schema options root require, state := [] }).waiting = [] := by
  have placed {place : Nat} (below : place < require.length) :
      (start (tables.access schema) schedule schema options root place require[place]).place = place := by
    have here := completions_getElem? tables schedule schema options root require below
    have same := (start_completed tables schedule schema options root here).1
    exact (congrArg Completion.place same).trans (completion_place tables schedule schema options root _ _)
  refine Loop.exec_sound (List.pairwise_iff_getElem.2 fun i j hi hj lt => ?_) (fun t mem => ?_) []
  · simp only [tasks, List.length_mapIdx] at hi hj
    simpa [tasks, placed hi, placed hj] using lt
  · obtain ⟨place, below, rfl⟩ := List.mem_mapIdx.1 mem
    have here := completions_getElem? tables schedule schema options root require below
    rw [placed below, outcomeAt, here]
    exact (start_completed tables schedule schema options root here).2

/-- The finds that were started are those that the requirements come to. -/
theorem tasks_started : (tasks tables schedule schema options root require).map (·.started) =
    (completions tables schedule schema options root require).map (·.started) := by
  rw [← tasks_completed, List.map_map]
  rfl

theorem names_completions : names ((completions tables schedule schema options root require).map (·.started)) =
    require.filterMap (asked schema options root) := by
  rw [names, List.filterMap_map, completions]
  exact filterMap_mapIdx fun place _ => completion_started tables schedule schema options root place _

/-- Without failures every requirement has its find, and the values are what they give by themselves. -/
theorem completions_succeed
    (succeeds : ∀ c ∈ completions tables schedule schema options root require, c.failure? = none) :
    (∀ entry ∈ require, (asked schema options root entry).isSome = true ∧
      (Filter.reverseEntry (tables.access schema) schema options root entry).Ends
        (.ok (answer tables schema options root entry))) ∧
    (completions tables schedule schema options root require).filterMap (·.outcome.toOption) =
      require.map (answer tables schema options root) := by
  have each {place : Nat} (below : place < require.length) :=
    completion_succeeds tables schedule schema options root (succeeds _ (List.mem_of_getElem?
      (completions_getElem? tables schedule schema options root require below)))
  refine ⟨fun entry mem => ?_, ?_⟩
  · obtain ⟨place, below, rfl⟩ := List.mem_iff_getElem.1 mem
    exact ⟨(each below).1, (each below).2.2⟩
  · rw [completions, ← List.filterMap_eq_map]
    refine filterMap_mapIdx fun place below => ?_
    rw [(each below).2.1]
    rfl

end Tasks

section Compile

variable {tables : Tables} {schedule : Schedule} {schema : Schema} {options : CompileOptions} {root : String}
  {source : FilterSource} {filter : Value} {require : List (Scalar × Value)}

theorem compile_eq (prepared : Filter.prepare source = .ok (.pending filter require)) :
    compile (tables.access schema) [] schedule schema options root source =
      settle filter (tasks tables schedule schema options root require) [] := by
  rw [compile, prepared]
  rfl

/-- Without failures the conditions go into the filter in the order of their requirements. -/
theorem result_of_success (prepared : Filter.prepare source = .ok (.pending filter require))
    (succeeds : ∀ c ∈ completions tables schedule schema options root require, c.failure? = none) :
    (compile (tables.access schema) [] schedule schema options root source).result =
      Filter.conclude filter (require.map (answer tables schema options root)) := by
  obtain ⟨sound, done⟩ := tasks_sound tables schedule schema options root require
  have completed := tasks_completed tables schedule schema options root require
  obtain ⟨perm, -⟩ := sound.of_success done (by rwa [completed])
  rw [completed] at perm
  have gathered := gather_of_perm perm (completions_placed tables schedule schema options root require) succeeds
  have count : (tasks tables schedule schema options root require).length =
      (completions tables schedule schema options root require).length := by simp [tasks, completions]
  rw [compile_eq prepared, settle, count, gathered,
    (completions_succeed tables schedule schema options root require succeeds).2]
  rfl

end Compile

/-- **Without failures the schedule does not matter.** The outcome is the one that reversing the requirements one
after the other has: the filter with their conditions, unless these hold an integer that has no text, which is reported.
The finds start in the order of the requirements, one for each, end by time and then in that order, and none is
cancelled. -/
theorem compile_of_success (tables : Tables) (schedule : Schedule) (schema : Schema) (options : CompileOptions)
    (root : String) {source : FilterSource} {filter : Value} {require : List (Scalar × Value)}
    (parsed : source.parse = .ok filter) (requires : Filter.part filter "require" = .map require)
    (nonempty : require ≠ [])
    (succeeds : ∀ c ∈ completions tables schedule schema options root require, c.failure? = none) :
    let report := compile (tables.access schema) [] schedule schema options root source
    (∃ conditions,
      List.Forall₂ (fun entry c => (Filter.reverseEntry (tables.access schema) schema options root entry).Ends (.ok c))
        require conditions ∧
      (Filter.compile (tables.access schema) schema options root source).Ends report.result ∧
      ((Value.list conditions).isWritable = true → report.result = .ok (Filter.merge filter conditions)) ∧
      ((Value.list conditions).isWritable = false → report.result = .error (.ofFault .longInteger))) ∧
    report.started = require.filterMap (asked schema options root) ∧ report.started.length = require.length ∧
    (∃ order : List Completion, order.Perm (completions tables schedule schema options root require) ∧
      order.Pairwise Completion.Before ∧ report.finished = names (order.map (·.started))) ∧
    report.finished.Perm report.started ∧ report.cancelled = [] := by
  have prepared := Filter.prepare_eq parsed requires nonempty
  obtain ⟨sound, done⟩ := tasks_sound tables schedule schema options root require
  have completed := tasks_completed tables schedule schema options root require
  have started : names ((tasks tables schedule schema options root require).map (·.started)) =
      require.filterMap (asked schema options root) := by rw [tasks_started, names_completions]
  obtain ⟨perm, spared⟩ := sound.of_success done (by rwa [completed])
  rw [completed] at perm
  obtain ⟨each, -⟩ := completions_succeed tables schedule schema options root require succeeds
  have result := result_of_success prepared succeeds
  have ends := Filter.compile_ends prepared fun entry mem => (each entry mem).2
  rw [compile_eq prepared] at result ⊢
  refine ⟨⟨require.map (answer tables schema options root), ?answers, result ▸ ends, ?written, ?long⟩, started, ?count,
    ⟨_, perm, sound.sorted, rfl⟩, ?finished, ?cancelled⟩
  case answers => exact List.forall₂_map_right_iff.2 (List.forall₂_same.2 fun entry mem => (each entry mem).2)
  case written => exact fun writable => result.trans (Filter.conclude_eq_ok.2 ⟨writable, rfl⟩)
  case long => exact fun long => result.trans (Filter.conclude_long long)
  case count =>
    rw [settle, started, List.filterMap_length_eq_length]
    exact fun entry mem => (each entry mem).1
  case finished =>
    rw [settle, tasks_started]
    exact (perm.map (·.started)).filterMap id
  case cancelled =>
    rw [settle, spared]
    exact List.mergeSort_nil

end Race

namespace Sample

/-- Requirements of a person on its city, on the country of that, and on who else lives there. -/
def neighbours : List (Scalar × Value) :=
  [(.text "city", .ofFields [("id", .int 10)]), (.text "city.country", .ofFields [("name", .text "NZ")]),
    (.text "city.people", .ofFields [("id", .int 9)])]

def delays : Race.Scripts := [("City", { delay := 5 }), ("Country", { delay := 2 })]

/-- Two finds fail at one time, before a third ends. -/
def faults : Race.Scripts :=
  [("City", { delay := 5 }), ("Country", { delay := 2, error := some "down" }),
    ("Person", { delay := 2, error := some "late" })]

/-- A city whose number has no text. -/
def farTables : Tables := [("City", [.ofFields [("id", .scalar .leastLong), ("name", .text "Auckland")]])]

/-- A requirement of a person on the name of its city. -/
def townspeople : List (Scalar × Value) := [(.text "city", .ofFields [("name", .text "Auckland")])]

end Sample

namespace Race

/-- Three finds that end in the opposite order give the filter that one after the other would. -/
theorem compile_of_success_neighbours :
    (∀ c ∈ completions Sample.tables (fun _ => Sample.delays.of) Sample.schema {} "Person" Sample.neighbours,
      c.failure? = none) ∧
    (∃ compiled, (run Sample.tables Sample.delays Sample.schema {} "Person"
        (.value (Sample.filter Sample.neighbours))).result = .ok compiled ∧
      (Filter.compile (Sample.tables.access Sample.schema) Sample.schema {} "Person"
        (.value (Sample.filter Sample.neighbours))).Ends (.ok compiled)) ∧
    (run Sample.tables Sample.delays Sample.schema {} "Person"
      (.value (Sample.filter Sample.neighbours))).finished = ["Person", "Country", "City"] := by
  have succeeds : ∀ c ∈ completions Sample.tables (fun _ => Sample.delays.of) Sample.schema {} "Person"
      Sample.neighbours, c.failure? = none := by decide +kernel
  have filtered : (run Sample.tables Sample.delays Sample.schema {} "Person"
      (.value (Sample.filter Sample.neighbours))).result.isOk = true := by decide +kernel
  obtain ⟨conditions, -, ends, -⟩ := (compile_of_success Sample.tables (fun _ => Sample.delays.of) Sample.schema {}
    "Person" (rfl : (FilterSource.value (Sample.filter Sample.neighbours)).parse = .ok _) rfl
    (by simp [Sample.neighbours]) succeeds).1
  refine ⟨succeeds, ?_, by decide +kernel⟩
  unfold run at filtered ⊢
  generalize (compile (Sample.tables.access Sample.schema) [] (fun _ => Sample.delays.of) Sample.schema {} "Person"
    (.value (Sample.filter Sample.neighbours))).result = outcome at filtered ends ⊢
  cases outcome with
  | error f => cases filtered
  | ok compiled => exact ⟨compiled, rfl, ends⟩

/-- A requirement that is reversed, at whatever time, and still no filter: the number that was found can not be written
out. -/
theorem reversed_unfiltered :
    (∀ c ∈ completions Sample.farTables (fun _ => Sample.delays.of) Sample.schema {} "Person" Sample.townspeople,
      c.failure? = none ∧ c.outcome = .ok (membership (.text "city_id") [.scalar .leastLong])) ∧
    (run Sample.farTables Sample.delays Sample.schema {} "Person" (.value (Sample.filter Sample.townspeople))).result =
      .error (.ofFault .longInteger) := by
  have reversed : ∀ c ∈ completions Sample.farTables (fun _ => Sample.delays.of) Sample.schema {} "Person"
      Sample.townspeople, c.failure? = none ∧ c.outcome = .ok (membership (.text "city_id") [.scalar .leastLong]) :=
    List.forall_mem_singleton.2 ⟨rfl, rfl⟩
  have prepared : Filter.prepare (.value (Sample.filter Sample.townspeople)) =
      .ok (.pending (Sample.filter Sample.townspeople) Sample.townspeople) := rfl
  refine ⟨reversed, (result_of_success prepared fun c mem => (reversed c mem).1).trans (Filter.conclude_long ?_)⟩
  decide +kernel

/-- **The first failure decides, and what would end later is cancelled.** First is first by time and then in the
order of the requirements. Started are the finds of the requirements that come to one; of these the ones that
end up to the time of the failure are finished, and all others cancelled. -/
theorem compile_of_failure [Attributes] (tables : Tables) (schedule : Schedule) (schema : Schema) (options : CompileOptions)
    (root : String) {source : FilterSource} {filter : Value} {require : List (Scalar × Value)}
    (parsed : source.parse = .ok filter) (requires : Filter.part filter "require" = .map require)
    (fails : ∃ c ∈ completions tables schedule schema options root require, c.failure?.isSome = true) :
    let all := completions tables schedule schema options root require
    let report := compile (tables.access schema) [] schedule schema options root source
    ∃ c ∈ all, ∃ f, c.failure? = some f ∧ report.result = .error f ∧
      (∀ d ∈ all, d.failure?.isSome = true → d = c ∨ c.Before d) ∧
      report.started = require.filterMap (asked schema options root) ∧
      (∃ order : List Completion, order.Perm (all.filter (·.ends ≤ c.ends)) ∧
        order.Pairwise Completion.Before ∧ report.finished = names (order.map (·.started))) ∧
      report.cancelled.Perm (names ((all.filter (c.ends < ·.ends)).map (·.started))) ∧
      report.started.Perm (report.finished ++ report.cancelled) := by
  have nonempty : require ≠ [] := by
    rintro rfl
    obtain ⟨c, mem, -⟩ := fails
    cases mem
  have prepared := Filter.prepare_eq parsed requires nonempty
  obtain ⟨sound, done⟩ := tasks_sound tables schedule schema options root require
  have completed := tasks_completed tables schedule schema options root require
  have first := sound.of_failure done (by rwa [completed])
  rw [completed] at first
  obtain ⟨c, mem, f, failed, decides, least, ended, cancelled⟩ := first
  have all := sound.all
  rw [completed, done, List.nil_append] at all
  have sorted (l : List String) : l.mergeSort.Perm l := List.mergeSort_perm l _
  have named (l : List (Task (List SelectCall))) : names (l.map (·.started)) =
      names ((l.map (Task.completed (outcomeAt (completions tables schedule schema options root require)))).map
        (·.started)) := by
    rw [List.map_map]
    rfl
  rw [compile_eq prepared]
  refine ⟨c, mem, f, failed, ?result, least, ?started, ⟨_, ended, sound.sorted, rfl⟩, ?cancelled, ?parted⟩
  case result =>
    rw [settle, gather, decides]
    rfl
  case started => rw [settle, tasks_started, names_completions]
  case cancelled =>
    refine (sorted _).trans ?_
    rw [named]
    exact (cancelled.map (·.started)).filterMap id
  case parted =>
    refine List.Perm.trans ?_ ((sorted _).symm.append_left _)
    rw [settle, tasks_started, named, names, names, names, ← List.filterMap_append, ← List.map_append]
    exact (all.symm.map (·.started)).filterMap id

/-- Of two failures at one time the first requirement's decides, and the find that would end later is cancelled. -/
theorem compile_of_failure_neighbours :
    (∃ c ∈ completions Sample.tables (fun _ => Sample.faults.of) Sample.schema {} "Person" Sample.neighbours,
      c.failure?.isSome = true) ∧
    ∃ c ∈ completions Sample.tables (fun _ => Sample.faults.of) Sample.schema {} "Person" Sample.neighbours,
      ∃ f, c.failure? = some f ∧
        (run Sample.tables Sample.faults Sample.schema {} "Person"
          (.value (Sample.filter Sample.neighbours))).result = .error f ∧
        (run Sample.tables Sample.faults Sample.schema {} "Person"
          (.value (Sample.filter Sample.neighbours))).finished = ["Country", "Person"] ∧
        (run Sample.tables Sample.faults Sample.schema {} "Person"
          (.value (Sample.filter Sample.neighbours))).cancelled = ["City"] := by
  have fails : ∃ c ∈ completions Sample.tables (fun _ => Sample.faults.of) Sample.schema {} "Person"
      Sample.neighbours, c.failure?.isSome = true := by decide +kernel
  obtain ⟨c, mem, f, failed, result, -⟩ := compile_of_failure Sample.tables (fun _ => Sample.faults.of) Sample.schema
    {} "Person" (rfl : (FilterSource.value (Sample.filter Sample.neighbours)).parse = .ok _) rfl fails
  exact ⟨fails, c, mem, f, failed, result, by decide +kernel, by decide +kernel⟩

end Race

end Semijoin
