import Semijoin.Proofs.Access.Records
import Semijoin.Proofs.Filter.Merge
import Semijoin.Proofs.Filter.Parsed
import Semijoin.Proofs.Http.Delivery
import Semijoin.Proofs.Reversal.Plan

/-!
# Finding through a service

A find that is sent to a service and answered there is the find on the service's own data: a request says all
that the find needs, and an answer all that was found. Only failures change: whatever the data fail with, the
client sees a failed fetch with the status and the text of the answer. So a filter compiles through services
as it does on the data, but for failures of finds.
-/

namespace Semijoin
set_option autoImplicit false

namespace Remote

/-- What a failure of a service's data looks like to its client. -/
def seen (entity : String) (f : Failure) : Failure :=
  let answered := InternalRouter.answer (.error f)
  .accessFailed entity answered.body.shown (some answered.status) none

end Remote

variable {σ : Type}

/-- Data as they look through a service: what is found is the same, and failures are seen from outside. -/
def Access.served (data : Access σ) : Access σ where
  find entity condition include_ := ExceptT.adapt (Remote.seen entity) (data.find entity condition include_)

namespace Remote

/-- Every declared entity is registered with a service that the router answers. -/
def Covers (services : List (String × String)) (router : InternalRouter σ) : Prop :=
  ∀ e ∈ router.schema.entities, ∃ url, services.lookup e.name = some url ∧ url ≠ "" ∧
    pathOf (address url) = router.path

/-- A where and an include that a request can carry. -/
structure Carried (condition include_ : Value) : Prop where
  asks : condition.isNull = true ∨ condition.isMap = true
  attaches : include_.isNull = true ∨ include_.isMap = true
  strict : Json.isStrict condition = true ∧ Json.isStrict include_ = true

section Request

variable {entity : String} {condition include_ : Value}

/-- A request that can be carried has no issues, wherever they would be placed. -/
theorem Carried.issues (h : Carried condition include_) (place : List Step) :
    Shape.findRequestIssues place (request entity condition include_) = [] :=
  issues_request h.asks (h.attaches.imp_right .inl) place

theorem Carried.sendable (h : Carried condition include_) : unsendable? (request entity condition include_) = none :=
  sendable_request h.asks (h.attaches.imp_right .inl) h.strict

end Request

/-- The records in a good answer are those that were answered. -/
theorem received_records {entity : String} {rows : List Value} (records : ∀ row ∈ rows, row.IsRecord) :
    received entity (.response (InternalRouter.answer (.ok (.list rows)))) = .ok (.list rows) := by
  have maps : rows.all Value.isMap = true := List.all_eq_true.2 fun row mem => (records row mem).mapping
  have strict : Json.isStrict (.ofFields [("items", .list rows)]) = true :=
    Value.isStrict_map.2 (by simpa using Value.isStrict_list.2 fun row mem => (records row mem).strict)
  have issues (n : Nat) : Shape.itemsIssuesFrom n rows = [] := by
    clear maps strict
    induction rows generalizing n with
    | nil => rfl
    | cons row rest ih =>
      obtain ⟨here, later⟩ := List.forall_mem_cons.1 records
      rw [Shape.itemsIssuesFrom, here.mapping, ih later]
      rfl
  have items : (Value.ofFields [("items", .list rows)]).get? "items" = some (.list rows) := rfl
  have none : Shape.findResponseIssues (.ofFields [("items", .list rows)]) = [] := issues 0
  have answered : InternalRouter.answer (.ok (.list rows)) = ⟨200, .json (.ofFields [("items", .list rows)])⟩ := by
    rw [InternalRouter.answer, InternalRouter.ofItems, if_pos maps, Response.ofValue, if_pos strict]
  rw [answered, received, if_pos rfl, Body.read, Remote.records]
  simp only [none, Shape.responseItems, items]

theorem received_failure (entity : String) (f : Failure) :
    received entity (.response (InternalRouter.answer (.error f))) = .error (seen entity f) := by
  have status : (InternalRouter.answer (.error f)).status ≠ 200 := by
    rw [InternalRouter.answer]
    split
    · cases f <;> simp [InternalRouter.failed, Response.ofFields, Failure.status]
    · simp [Response.crash]
  rw [received, if_neg status]
  rfl

section Find

variable {schema : Schema} {data : Access σ} {base : String} {services : List (String × String)}

/-- A router that is asked for a declared entity at its path answers with what its data come to. -/
theorem handle_request {entity : String} (declared : (schema.find? entity).isNone = false) {condition include_ : Value}
    (carried : Carried condition include_) (s : σ) :
    (InternalRouter.handle ⟨schema, data, base⟩ ⟨"POST", InternalRouter.path ⟨schema, data, base⟩, [],
      some (.json (request entity condition include_))⟩).run s =
        (InternalRouter.answer ((data.find entity condition include_).step s).1,
          ((data.find entity condition include_).step s).2) := by
  obtain ⟨named, where_, included⟩ := @get?_request entity condition include_
  have issues : InternalRouter.requestIssues (request entity condition include_) = [] := carried.issues _
  unfold InternalRouter.handle
  simp only [bne_self_eq_false, Bool.false_eq_true, if_false, InternalRouter.contentValue, Body.read, issues,
    InternalRouter.find, named, where_, included, declared, Option.getD_some]
  rfl

/-- A delivery is what the router answers. -/
theorem send_run (url : String) (content : Value) (s : σ) (router : InternalRouter σ) :
    ((toRouter router).send url content).run s =
      let answered := (router.handle ⟨"POST", pathOf url, [], some (.json content)⟩).run s
      (.response answered.1, answered.2) := by
  unfold toRouter
  dsimp only
  generalize router.handle _ = handled
  rfl

/-- **A find through a service is the find on its data**, with failures as they are seen from outside. -/
theorem find_eq (finds : data.FindsRecords) (covers : Covers services ⟨schema, data, base⟩) {e : Entity}
    (declared : schema.find? e.name = some e) {condition include_ : Value} (carried : Carried condition include_) :
    (access services (toRouter ⟨schema, data, base⟩)).find e.name condition include_ =
      data.served.find e.name condition include_ := by
  obtain ⟨url, registered, nonempty, served⟩ := covers e (Schema.find?_eq_some declared).1
  have registered : (services.lookup e.name).filter (· != "") = some url := by simp [registered, nonempty]
  have known : (schema.find? e.name).isNone = false := by rw [declared]; rfl
  have asked : (access services (toRouter ⟨schema, data, base⟩)).find e.name condition include_ = (do
      Action.ofExcept (received e.name (← ExceptT.lift ((toRouter ⟨schema, data, base⟩).send (address url)
        (request e.name condition include_))))) := by
    unfold access
    simp only [registered, carried.sendable]
  refine Action.ext fun s => ?_
  have sent := send_run (address url) (request e.name condition include_) s ⟨schema, data, base⟩
  rw [served, handle_request known carried s] at sent
  have received' : (received e.name (.response (InternalRouter.answer ((data.find e.name condition include_).step s).1)) =
      ((data.find e.name condition include_).step s).1.mapError (seen e.name)) := by
    cases found : (data.find e.name condition include_).step s with
    | mk r s' =>
      cases r with
      | error f => exact received_failure e.name f
      | ok v =>
        obtain ⟨rows, rfl, records⟩ := finds _ _ _ _ _ _ found
        exact received_records records
  rw [asked, Action.step_lift_bind, sent, Action.step_ofExcept]
  exact congrArg (·, _) received'

end Find

end Remote

namespace Reversal

theorem includeScope_cases (names : List Value) :
    (Path.includeScope names).isNull = true ∨ (Path.includeScope names).isMap = true := by
  match names with
  | [] => exact .inl rfl
  | [_] => exact .inr rfl
  | _ :: _ :: _ => exact .inr rfl

theorem isStrict_includeScope (names : List String) : Json.isStrict (Path.includeScope (names.map .text)) = true := by
  induction names with
  | nil => rfl
  | cons name rest ih =>
    cases rest with
    | nil => rfl
    | cons next more =>
      have scope : Path.includeScope ((name :: next :: more).map .text) = .ofFields [("relation", .text name),
          ("scope", .ofFields [("include", Path.includeScope ((next :: more).map .text))])] := rfl
      rw [scope]
      generalize Path.includeScope ((next :: more).map .text) = nested at ih
      simp [Value.ofFields, Json.isStrict, Json.entriesStrict, ih]

/-- What a plan fetches can be carried by a request, if the condition can. -/
theorem carried_fetched (p : Plan) {condition : Value} (asks : condition.isNull = true ∨ condition.isMap = true)
    (strict : Json.isStrict condition = true) : Remote.Carried (fetched condition) p.include_ := by
  refine ⟨.inr ?_, includeScope_cases _, ?_, isStrict_includeScope _⟩
  · unfold fetched
    split
    · rename_i truthy
      rcases asks with null | map
      · rw [Value.falsy_of_isNull null] at truthy
        cases truthy
      · exact map
    · rfl
  · unfold fetched
    split
    · exact strict
    · rfl

section Run

variable {σ : Type} {access : Access σ} {p : Plan} {options : Options} {condition : Value} {s s' : σ}

/-- A reversal comes to what is collected from what is found. -/
theorem run_step_ok [Attributes] {found : Value}
    (h : (access.find p.furthest (fetched condition) p.include_).step s = (.ok found, s')) :
    (p.run access options condition).step s = (p.condition options found, s') := by
  have fetch : (p.fetch access condition).step s = (.ok found, s') := by
    rw [Plan.fetch, Action.step_adapt, h]
    rfl
  rw [Plan.run, Action.step_bind_ok fetch, Action.step_ofExcept]

/-- A reversal fails as its find does. -/
theorem run_step_error [Attributes] {f : Failure}
    (h : (access.find p.furthest (fetched condition) p.include_).step s = (.error f, s')) :
    (p.run access options condition).step s = (.error (wrap p.furthest f), s') := by
  have fetch : (p.fetch access condition).step s = (.error (wrap p.furthest f), s') := by
    rw [Plan.fetch, Action.step_adapt, h]
    rfl
  rw [Plan.run, Action.step_bind_error fetch]

theorem wrap_own {entity : String} {f : Failure} (own : f.isOwn = true) : wrap entity f = f := by
  cases f <;> first | rfl | cases own

end Run

end Reversal

namespace Filter

section Entry

variable {σ : Type} {schema : Schema} {options : CompileOptions} {root : String} {entry : Scalar × Value}

theorem entryPlan_declared {p : Reversal.Plan} (h : entryPlan schema options root entry = .ok p) :
    ∃ e, p.furthest = e.name ∧ schema.find? e.name = some e := by
  obtain ⟨steps, -, planned⟩ := bind_eq_ok.1 h
  exact Reversal.plan_declared planned

variable [Attributes] {data : Access σ}

/-- A requirement succeeds on data as they are served exactly if it does on the data. -/
theorem reverseEntry_served_iff {s s' : σ} {v : Value} :
    (reverseEntry data.served schema options root entry).step s = (.ok v, s') ↔
      (reverseEntry data schema options root entry).step s = (.ok v, s') := by
  cases planned : entryPlan schema options root entry with
  | error f => rw [reverseEntry_of_error _ planned, reverseEntry_of_error _ planned]
  | ok p =>
    rw [reverseEntry_of_plan _ planned, reverseEntry_of_plan _ planned]
    cases find : (data.find p.furthest (Reversal.fetched entry.2) p.include_).step s with
    | mk r after =>
      have served : (data.served.find p.furthest (Reversal.fetched entry.2) p.include_).step s =
          (r.mapError (Remote.seen p.furthest), after) := by
        unfold Access.served
        rw [Action.step_adapt, find]
      cases r with
      | ok found => rw [Reversal.run_step_ok served, Reversal.run_step_ok find]
      | error f => simp [Reversal.run_step_error served, Reversal.run_step_error find]

variable {base : String} {services : List (String × String)}

/-- A requirement is reversed through services as it is on the data that they serve. -/
theorem reverseEntry_remote (finds : data.FindsRecords) (covers : Remote.Covers services ⟨schema, data, base⟩)
    (asks : entry.2.isNull = true ∨ entry.2.isMap = true) (strict : Json.isStrict entry.2 = true) :
    reverseEntry (Remote.access services (Remote.toRouter ⟨schema, data, base⟩)) schema options root entry =
      reverseEntry data.served schema options root entry := by
  cases planned : entryPlan schema options root entry with
  | error f => rw [reverseEntry_of_error _ planned, reverseEntry_of_error _ planned]
  | ok p =>
    obtain ⟨e, furthest, declared⟩ := entryPlan_declared planned
    rw [reverseEntry_of_plan _ planned, reverseEntry_of_plan _ planned, Reversal.Plan.run, Reversal.Plan.run,
      Reversal.Plan.fetch, Reversal.Plan.fetch, furthest,
      Remote.find_eq finds covers declared (Reversal.carried_fetched p asks strict)]

end Entry

section Compile

variable {σ : Type} {access access' : Access σ} {schema : Schema} {options : CompileOptions} {root : String}
  {source : FilterSource}

/-- What requirements come to, they come to in any other way that gives each of these outcomes. -/
theorem Reversed.transfer {reverse reverse' : Scalar × Value → Action σ Value} {s s' : σ}
    {require : List (Scalar × Value)} {outcomes : List (Except Failure Value)}
    (h : Reversed reverse s require outcomes s') (each : ∀ entry ∈ require, ∀ r ∈ outcomes, ∀ s s',
      (reverse entry).step s = (r, s') → (reverse' entry).step s = (r, s')) :
    Reversed reverse' s require outcomes s' := by
  induction h with
  | done s => exact .done s
  | @next s s' s'' entry require r outcomes here more ih =>
    refine .next (each entry (by simp) r (by simp) _ _ here) (ih fun entry' mem r' mem' => ?_)
    exact each entry' (by simp [mem]) r' (by simp [mem'])

variable [Attributes]

/-- Compiling depends only on what the requirements of the filter come to. -/
theorem compile_congr (same : ∀ filter require, prepare source = .ok (.pending filter require) → ∀ entry ∈ require,
      reverseEntry access schema options root entry = reverseEntry access' schema options root entry) :
    compile access schema options root source = compile access' schema options root source := by
  refine Action.ext fun s => ?_
  cases prepared : prepare source with
  | error f => rw [compile_unprepared prepared, compile_unprepared prepared]
  | ok ready =>
    cases ready with
    | done filter => rw [compile_done prepared, compile_done prepared]
    | pending filter require =>
      obtain ⟨outcomes, s', reversed⟩ := exists_reversed (reverseEntry access schema options root) s require
      have reversed' : Reversed (reverseEntry access' schema options root) s require outcomes s' :=
        reversed.transfer fun entry mem r _ s s' h => same filter require prepared entry mem ▸ h
      rw [compile_step prepared reversed, compile_step prepared reversed']

/-- A compilation succeeds wherever its requirements do. -/
theorem compile_ok_of (transfers : ∀ filter require, prepare source = .ok (.pending filter require) → ∀ entry ∈ require,
      ∀ s s' v, (reverseEntry access schema options root entry).step s = (.ok v, s') →
        (reverseEntry access' schema options root entry).step s = (.ok v, s')) {s s' : σ} {r : Value}
    (h : (compile access schema options root source).step s = (.ok r, s')) :
    (compile access' schema options root source).step s = (.ok r, s') := by
  cases prepared : prepare source with
  | error f =>
    rw [compile_unprepared prepared] at h
    cases h
  | ok ready =>
    cases ready with
    | done filter =>
      rw [compile_done prepared] at h ⊢
      exact h
    | pending filter require =>
      obtain ⟨outcomes, after, reversed⟩ := exists_reversed (reverseEntry access schema options root) s require
      rw [compile_step prepared reversed] at h
      rcases mapM_id_cases outcomes with ⟨conditions, rfl, all⟩ | ⟨f, -, failed⟩
      · have reversed' : Reversed (reverseEntry access' schema options root) s require (conditions.map .ok) after :=
          reversed.transfer fun entry mem r held s s' h => by
            obtain ⟨v, -, rfl⟩ := List.mem_map.1 held
            exact transfers filter require prepared entry mem s s' v h
        rw [compile_step prepared reversed']
        exact h
      · rw [failed] at h
        cases h

end Compile

/-- The conditions of a well-formed filter with finite numbers have finite numbers. -/
theorem isStrict_require {filter : Value} {require : List (Scalar × Value)} (finite : Json.isStrict filter = true)
    (requires : part filter "require" = .map require) : ∀ entry ∈ require, Json.isStrict entry.2 = true := by
  have given : Json.isStrict (part filter "require") = true := by
    unfold part
    cases filter with
    | map entries =>
      cases found : (Value.map entries).get? "require" with
      | none => rfl
      | some v =>
        obtain ⟨k, mem, -⟩ := Entries.mem_of_find? found
        exact Value.isStrict_map.1 finite _ mem
    | _ => rfl
  rw [requires] at given
  exact Value.isStrict_map.1 given

end Filter

/-- How a requirement fares through a service: what comes before a find and after it is what it is on the data,
and a failure of the library in a find is seen as a failed fetch of the furthest entity, under status 502 if it
was one already and 400 if not. -/
structure Filter.Relayed [Attributes] {σ : Type} (data remote : Access σ) (schema : Schema) (options : CompileOptions)
    (root : String) (entry : Scalar × Value) : Prop where
  before : ∀ f, entryPlan schema options root entry = .error f →
    reverseEntry data schema options root entry = Action.ofExcept (.error f) ∧
      reverseEntry remote schema options root entry = Action.ofExcept (.error f)
  after : ∀ p, entryPlan schema options root entry = .ok p → ∀ s found s',
    (data.find p.furthest (Reversal.fetched entry.2) p.include_).step s = (.ok found, s') →
      (reverseEntry data schema options root entry).step s = (p.condition options.toOptions found, s') ∧
        (reverseEntry remote schema options root entry).step s = (p.condition options.toOptions found, s')
  failed : ∀ p, entryPlan schema options root entry = .ok p → ∀ s f s', f.isOwn = true →
    (data.find p.furthest (Reversal.fetched entry.2) p.include_).step s = (.error f, s') →
      (reverseEntry data schema options root entry).step s = (.error f, s') ∧
        (reverseEntry remote schema options root entry).step s = (.error (.accessFailed p.furthest
          (InternalRouter.failed f.status f.message).body.shown
          (some (match f with | .accessFailed _ _ _ _ => 502 | _ => 400)) none), s')

/-- What is the same on data as they are served is relayed. -/
theorem Filter.relayed_of_served [Attributes] {σ : Type} {data remote : Access σ} {schema : Schema}
    {options : CompileOptions} {root : String} {entry : Scalar × Value} (same : reverseEntry remote schema options root entry =
      reverseEntry data.served schema options root entry) : Relayed data remote schema options root entry := by
  have through {p : Reversal.Plan} {s s' : σ} {r : Except Failure Value}
      (find : (data.find p.furthest (Reversal.fetched entry.2) p.include_).step s = (r, s')) :
      (data.served.find p.furthest (Reversal.fetched entry.2) p.include_).step s =
        (r.mapError (Remote.seen p.furthest), s') := by
    unfold Access.served
    rw [Action.step_adapt, find]
  refine ⟨fun f planned => ?_, fun p planned s found s' find => ?_, fun p planned s f s' own find => ?_⟩
  · rw [same]
    exact ⟨reverseEntry_of_error _ planned, reverseEntry_of_error _ planned⟩
  · rw [same, reverseEntry_of_plan _ planned, reverseEntry_of_plan _ planned]
    exact ⟨Reversal.run_step_ok find, Reversal.run_step_ok (through find)⟩
  · rw [same, reverseEntry_of_plan _ planned, reverseEntry_of_plan _ planned, Reversal.run_step_error find,
      Reversal.run_step_error (through find), Reversal.wrap_own own, Reversal.wrap_own rfl, Remote.seen,
      InternalRouter.answer, if_pos own]
    cases f <;> exact ⟨rfl, rfl⟩

/-- **Compiling through services is compiling on the data that they serve**, with the failures of finds as they
are seen from outside; what compiles is the same, and every requirement is relayed. Tables of records are data
that can be served. -/
theorem Filter.compile_remote [Attributes] {schema : Schema} {base : String} {services : List (String × String)}
    {options : CompileOptions} {root : String} {source : FilterSource} (json : source.IsJson)
    (finite : ∀ filter, source.parse = .ok filter → Json.isStrict filter = true) :
    (∀ tables : Tables, (∀ name, ∀ row ∈ tables.rows name, row.IsRecord) → (tables.access schema).FindsRecords) ∧
    ∀ {σ : Type} {data : Access σ}, data.FindsRecords → Remote.Covers services ⟨schema, data, base⟩ →
      let remote := Remote.access services (Remote.toRouter ⟨schema, data, base⟩)
      compile remote schema options root source = compile data.served schema options root source ∧
      (∀ s s' r, (compile remote schema options root source).step s = (.ok r, s') ↔
        (compile data schema options root source).step s = (.ok r, s')) ∧
      ∀ filter require, prepare source = .ok (.pending filter require) →
        ∀ entry ∈ require, Relayed data remote schema options root entry := by
  refine ⟨fun tables records => Tables.access_records records schema, fun {σ data} finds covers => ?_⟩
  intro remote
  have same : ∀ filter require, prepare source = .ok (.pending filter require) → ∀ entry ∈ require,
      reverseEntry remote schema options root entry = reverseEntry data.served schema options root entry := by
    intro filter require prepared entry mem
    obtain ⟨parsed, requires⟩ := parse_of_prepare prepared
    exact reverseEntry_remote finds covers ((wellFormed_of_parse json parsed).conditions requires entry mem)
      (isStrict_require (finite filter parsed) requires entry mem)
  have served := compile_congr same
  refine ⟨served, fun s s' r => ?_, fun filter require prepared entry mem =>
    relayed_of_served (same filter require prepared entry mem)⟩
  rw [served]
  constructor
  · exact compile_ok_of fun _ _ _ _ _ _ _ _ => reverseEntry_served_iff.1
  · exact compile_ok_of fun _ _ _ _ _ _ _ _ => reverseEntry_served_iff.2

namespace Sample

/-- Every entity is registered, under hosts of their own. -/
def services : List (String × String) :=
  [("Country", "http://geo:8001/v1/"), ("City", "http://geo:8002/v1"), ("Person", "http://people/v1//")]

/-- The countries with a city where Person 7 lives. -/
def requirement : Value := .ofFields [("require", .ofFields [("cities.people", .ofFields [("id", .int 7)])])]

theorem covers : Remote.Covers services ⟨schema, tables.access schema, "/v1"⟩ := by
  intro e mem
  simp only [schema, List.mem_cons, List.not_mem_nil, or_false] at mem
  rcases mem with rfl | rfl | rfl
  · exact ⟨"http://geo:8001/v1/", rfl, by decide, rfl⟩
  · exact ⟨"http://geo:8002/v1", rfl, by decide, rfl⟩
  · exact ⟨"http://people/v1//", rfl, by decide, rfl⟩

theorem records : ∀ name, ∀ row ∈ tables.rows name, row.IsRecord := by
  intro name row mem
  obtain ⟨table, held, stored⟩ := Tables.mem_of_rows mem
  have all : tables.all (fun t => t.2.all fun r => r.isMap && r.isDocument && Json.isStrict r) = true := by
    decide +kernel
  have good := List.all_eq_true.1 (List.all_eq_true.1 all table held) row stored
  simp only [Bool.and_eq_true] at good
  exact ⟨good.1.1, good.1.2, good.2⟩

end Sample

/-- Three services, two hosts and slashes at the ends: what they compile is what the tables compile. -/
theorem Filter.compile_remote_countries :
    (Sample.tables.access Sample.schema).FindsRecords ∧
    ∀ s s' r, (compile (Remote.access Sample.services
        (Remote.toRouter ⟨Sample.schema, Sample.tables.access Sample.schema, "/v1"⟩))
        Sample.schema {} "Country" (.value Sample.requirement)).step s = (.ok r, s') ↔
      (compile (Sample.tables.access Sample.schema) Sample.schema {} "Country" (.value Sample.requirement)).step s =
        (.ok r, s') := by
  have json : (FilterSource.value Sample.requirement).IsJson := by
    show Sample.requirement.isDocument = true
    decide +kernel
  have finite : ∀ filter, (FilterSource.value Sample.requirement).parse = .ok filter → Json.isStrict filter = true := by
    intro filter parsed
    cases parsed
    rfl
  obtain ⟨served, remote⟩ := @Filter.compile_remote _ Sample.schema "/v1" Sample.services {} "Country" _ json finite
  have finds := served Sample.tables Sample.records
  exact ⟨finds, (remote finds Sample.covers).2.1⟩

end Semijoin
